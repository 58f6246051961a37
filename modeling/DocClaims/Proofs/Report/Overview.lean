import DocClaims.Proofs.Number.Digits
import DocClaims.Proofs.Path
import DocClaims.Proofs.Report.Finished
import DocClaims.Report.Overview

/-!
# What an overview says by category

The overview of a report has one line for each category with a verdict. It tells how many of the
claims that were checked have been found, unless none was checked, and then how many there are.
What the lines tell adds up to the counters of the summary, which are kept on their own.
-/

namespace DocClaims

namespace Breakdown

/-- What is told of a category. -/
inductive Shown
  | unchecked (total : Nat)
  | ratio (found checked : Nat)

namespace Shown

def text (color : Bool) : Shown → String
  | unchecked total => Tint.dimmed.paint color (toString total ++ " not validated")
  | ratio found checked =>
      toString found ++ "/" ++ toString checked ++ " " ++ share found checked

def line (color : Bool) (c : Category) (shown : Shown) : String :=
  "    " ++ padded labelWidth c.label ++ " " ++ shown.text color ++ "\n"

/-- What is to be told of a category with these verdicts. -/
def ofVerdicts (verdicts : List Verdict) : Shown :=
  if Status.notValidated.count verdicts = verdicts.length then .unchecked verdicts.length
  else .ratio (Status.found.count verdicts)
    (Status.found.count verdicts + Status.notFound.count verdicts)

/-! ### Texts tell apart -/

end Shown

/-! ### Lines of a finished breakdown -/

variable {verdicts : List Verdict}

/-- The text says how many verdicts there are exactly if none of them comes from a check, and
otherwise how many claims were found of those that were checked, one at least. -/
structure Tells (color : Bool) (verdicts : List Verdict) (text : String) : Prop where
  unchecked_iff : ∀ n, text = (Shown.unchecked n).text color ↔
    (∀ v ∈ verdicts, v.status = .notValidated) ∧ n = verdicts.length
  ratio_iff : ∀ found checked, text = (Shown.ratio found checked).text color ↔
    (∃ v ∈ verdicts, v.status ≠ .notValidated) ∧ found = Status.found.count verdicts ∧
      checked = found + Status.notFound.count verdicts
  checked_pos : (∃ v ∈ verdicts, v.status ≠ .notValidated) →
    1 ≤ Status.found.count verdicts + Status.notFound.count verdicts

end Breakdown

namespace Report

open Breakdown

variable {sourceDocument validationDate sourceRoot : String}

/-- The categories with a verdict, in canonical order. -/
def named (verdicts : List Verdict) : List Category :=
  Category.all.filter fun c => c.select verdicts ≠ []

end Report
end DocClaims
