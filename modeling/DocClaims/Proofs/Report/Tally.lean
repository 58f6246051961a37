import DocClaims.Proofs.Categories
import DocClaims.Report.Builder
import Mathlib.Algebra.Ring.Nat
import Mathlib.Data.List.Induction

/-!
# What the counters count

A report builder keeps its counters by hand. After any run of records they agree
with the list of the verdicts recorded: each counter is the number of verdicts of
its kind, and the entries of a category are its verdicts, the newest first.
-/

namespace DocClaims

/-! ### Counting verdicts -/

def Status.count (s : Status) (verdicts : List Verdict) : Nat := verdicts.countP (·.status = s)

def Confidence.count (c : Confidence) (verdicts : List Verdict) : Nat :=
  verdicts.countP (·.confidence = c)

namespace Category

/-- The verdicts on claims of the category, in order. -/
def select (c : Category) (verdicts : List Verdict) : List Verdict :=
  verdicts.filter (·.claim.category = c)

/-- The entries of the category, in the order in which they were recorded. -/
def entries (c : Category) (verdicts : List Verdict) : List ReportEntry :=
  (c.select verdicts).map ReportEntry.ofVerdict

def sum (f : Category → Nat) : Nat := (all.map f).sum

theorem sum_add (f g : Category → Nat) : (sum fun c => f c + g c) = sum f + sum g := by
  simp only [sum, all, List.map_cons, List.map_nil, List.sum_cons, List.sum_nil]
  omega

theorem sum_ite (c : Category) (n : Nat) : (sum fun d => if c = d then n else 0) = n := by
  cases c <;> simp [sum, all]

@[simp] theorem select_append (c : Category) (xs ys : List Verdict) :
    c.select (xs ++ ys) = c.select xs ++ c.select ys := List.filter_append xs ys

theorem select_singleton (c : Category) (v : Verdict) :
    c.select [v] = if v.claim.category = c then [v] else [] := by
  by_cases h : v.claim.category = c <;> simp [select, h]

/-- Every verdict is counted in one category. -/
theorem sum_countP_select (p : Verdict → Bool) (verdicts : List Verdict) :
    (sum fun c => (c.select verdicts).countP p) = verdicts.countP p := by
  induction verdicts using List.reverseRecOn with
  | nil => simp [select, sum, all]
  | append_singleton verdicts v ih =>
      have hstep : ∀ c : Category, (c.select (verdicts ++ [v])).countP p =
          (c.select verdicts).countP p + if v.claim.category = c then [v].countP p else 0 := by
        intro c
        rw [select_append, select_singleton, List.countP_append]
        split
        · rfl
        · rw [List.countP_nil]
      calc (sum fun c => (c.select (verdicts ++ [v])).countP p)
          = sum fun c => (c.select verdicts).countP p +
              if v.claim.category = c then [v].countP p else 0 := by
            rw [funext hstep]
        _ = (sum fun c => (c.select verdicts).countP p) + [v].countP p := by
            rw [sum_add, sum_ite]
        _ = (verdicts ++ [v]).countP p := by rw [ih, List.countP_append]

theorem sum_length_select (verdicts : List Verdict) :
    (sum fun c => (c.select verdicts).length) = verdicts.length := by
  have h := sum_countP_select (fun _ => true) verdicts
  simpa only [List.countP_true] using h

end Category

theorem Status.count_add (verdicts : List Verdict) :
    Status.found.count verdicts + Status.notFound.count verdicts +
      Status.notValidated.count verdicts = verdicts.length := by
  induction verdicts with
  | nil => rfl
  | cons v verdicts ih =>
      simp only [count, List.countP_cons, List.length_cons] at ih ⊢
      cases v.status <;> simp <;> omega

theorem Confidence.count_add (verdicts : List Verdict) :
    Confidence.high.count verdicts + Confidence.medium.count verdicts +
      Confidence.low.count verdicts = verdicts.length := by
  induction verdicts with
  | nil => rfl
  | cons v verdicts ih =>
      simp only [count, List.countP_cons, List.length_cons] at ih ⊢
      cases v.confidence <;> simp <;> omega

/-! ### Counters after a run of records -/

def Histogram.tally (verdicts : List Verdict) : Histogram :=
  ⟨Confidence.high.count verdicts, Confidence.medium.count verdicts,
    Confidence.low.count verdicts⟩

theorem Histogram.add_tally (verdicts : List Verdict) (v : Verdict) :
    (tally verdicts).add v.confidence = tally (verdicts ++ [v]) := by
  cases h : v.confidence <;> simp [tally, add, Confidence.count, List.countP_append, h]

namespace Summary

def tally (verdicts : List Verdict) : Summary :=
  ⟨verdicts.length, Status.found.count verdicts + Status.notFound.count verdicts,
    Status.found.count verdicts, Status.notFound.count verdicts,
    Status.notValidated.count verdicts, .tally verdicts⟩

theorem record_tally (verdicts : List Verdict) (v : Verdict) :
    (tally verdicts).record v = tally (verdicts ++ [v]) := by
  unfold record
  cases h : v.status <;>
    simp [tally, Histogram.add_tally, Status.count, List.countP_append, h] <;> omega

end Summary

namespace Breakdown

def tally (verdicts : List Verdict) : Breakdown :=
  ⟨verdicts.length, Status.found.count verdicts, Status.notFound.count verdicts,
    Status.notValidated.count verdicts, (verdicts.map ReportEntry.ofVerdict).reverse⟩

theorem record_tally (verdicts : List Verdict) (v : Verdict) :
    (tally verdicts).record v = tally (verdicts ++ [v]) := by
  unfold record
  cases h : v.status <;> simp [tally, Status.count, List.countP_append, h]

end Breakdown

namespace ReportBuilder

variable {sourceDocument validationDate sourceRoot : String}

/-- A builder that has recorded the verdicts. -/
def tally (sourceDocument validationDate sourceRoot : String) (verdicts : List Verdict) :
    ReportBuilder :=
  ⟨sourceDocument, validationDate, sourceRoot, .tally verdicts,
    .ofFn fun c => .tally (c.select verdicts)⟩

theorem record_tally (verdicts : List Verdict) (v : Verdict) :
    (tally sourceDocument validationDate sourceRoot verdicts).record v =
      tally sourceDocument validationDate sourceRoot (verdicts ++ [v]) := by
  have hcategories : ((PerCategory.ofFn fun c => Breakdown.tally (c.select verdicts)).modify
      v.claim.category (·.record v)) =
      .ofFn fun c => Breakdown.tally (c.select (verdicts ++ [v])) := by
    ext c
    rw [PerCategory.get_modify, PerCategory.get_ofFn, PerCategory.get_ofFn,
      Category.select_append, Category.select_singleton]
    split
    · rw [Breakdown.record_tally]
    · rw [List.append_nil]
  simp only [record, tally, Summary.record_tally, hcategories]

theorem recordAll_append (b : ReportBuilder) (xs ys : List Verdict) :
    b.recordAll (xs ++ ys) = (b.recordAll xs).recordAll ys := List.foldl_append

theorem recordAll_eq (verdicts : List Verdict) :
    (start sourceDocument validationDate sourceRoot).recordAll verdicts =
      tally sourceDocument validationDate sourceRoot verdicts := by
  induction verdicts using List.reverseRecOn with
  | nil => rfl
  | append_singleton verdicts v ih =>
      rw [recordAll_append, ih]
      exact record_tally verdicts v

end ReportBuilder
end DocClaims
