import DocClaims.ClaimSet
import DocClaims.Number.Decimal
import DocClaims.Report.Basic
import DocClaims.Terminal

/-!
# Overviews for the terminal

Short texts about a claim set and about a report: counts, shares and, by
category, how many of the checked claims were found.
-/

namespace DocClaims

def labelWidth : Nat := 16

def ClaimSet.countLine (set : ClaimSet) (color : Bool) (c : Category) : String :=
  let n := set.count c
  let tint : Tint := if n == 0 then .dimmed else .plain
  "    " ++ padded labelWidth c.label ++ " " ++ tint.paint color (toString n) ++ "\n"

/-- What was extracted, and to which file it was written. -/
def ClaimSet.overview (set : ClaimSet) (color : Bool) (output : String) : String :=
  "\n  " ++ Tint.boldGreen.paint color "Extracted" ++ " " ++ set.sourceDocument ++
  "\n  " ++ Tint.dimmed.paint color "Output: " ++ output ++
  "\n\n  " ++ Tint.bold.paint color "Claims:" ++ "\n" ++
  String.join (Category.all.map (set.countLine color)) ++
  "    " ++ padded labelWidth "Total" ++ " " ++ Tint.bold.paint color (toString set.size) ++ "\n\n"

def share (part total : Nat) : String := "(" ++ Number.percentText part total ++ "%)"

/-- The claims of a category with a check. Counts are words of 64 bits, of which a difference
below zero wraps around. -/
def Breakdown.checked (b : Breakdown) : Nat :=
  if b.notValidated ≤ b.total then b.total - b.notValidated
  else b.total + Shape.countLimit - b.notValidated

def Breakdown.line (b : Breakdown) (color : Bool) (c : Category) : String :=
  "    " ++ padded labelWidth c.label ++ " " ++
  (if b.notValidated == b.total then
    Tint.dimmed.paint color (toString b.total ++ " not validated")
  else
    toString b.found ++ "/" ++ toString b.checked ++ " " ++ share b.found b.checked) ++ "\n"

namespace Report

def listed (r : Report) : List (Category × Breakdown) := r.breakdowns.filter (·.2.total != 0)

def counts (s : Summary) (color : Bool) : String :=
  let missing : Tint := if 0 < s.notFound then .red else .plain
  "    Total claims   " ++ toString s.totalClaims ++
  "\n    Found          " ++ Tint.green.paint color (toString s.found) ++ " " ++
    share s.found s.validated ++
  "\n    Not found      " ++ missing.paint color (toString s.notFound) ++ " " ++
    share s.notFound s.validated ++ "\n" ++
  (if 0 < s.notValidated then
    "    " ++ Tint.dimmed.paint color ("Not validated  " ++ toString s.notValidated) ++ "\n"
  else "")

def confidenceLine (color : Bool) (tint : Tint) (label : String) (n : Nat) : String :=
  "    " ++ padded 8 label ++ " " ++ tint.paint color (toString n) ++ "\n"

/-- What the report says, and to which file it was written. -/
def overview (r : Report) (color : Bool) (output : String) : String :=
  "\n  " ++ Tint.boldCyan.paint color "Validated" ++ " " ++ r.sourceDocument ++
  "\n  " ++ Tint.dimmed.paint color "Source:  " ++ r.sourceRoot ++
  "\n  " ++ Tint.dimmed.paint color "Output:  " ++ output ++
  "\n\n  " ++ Tint.bold.paint color "Summary:" ++ "\n" ++ counts r.summary color ++
  "\n  " ++ Tint.bold.paint color "Confidence:" ++ "\n" ++
  confidenceLine color .green "High" r.summary.confidence.high ++
  confidenceLine color .yellow "Medium" r.summary.confidence.medium ++
  confidenceLine color .red "Low" r.summary.confidence.low ++
  "\n  " ++ Tint.bold.paint color "By type:" ++ "\n" ++
  String.join (r.listed.map fun (c, b) => b.line color c) ++ "\n"

end Report
end DocClaims
