import DocClaims.Proofs.Checking.Batches
import DocClaims.Proofs.Checking.Verdicts
import DocClaims.Proofs.ClaimSets
import DocClaims.Proofs.Report.Finished

/-!
# The report on a set of claims

A report has one entry for each claim of the set, under its category and in order, with the
verdict of its check, and its counters say so. It is the same for every number of workers that
can be started and every order in which the checks end.
-/

namespace DocClaims

open Outcome

namespace Checker

variable {c : Checker} {set : ClaimSet} {claims : List Claim} {checks : List Check}
  {category : Category}

/-! ### Verdicts on a list of claims -/

theorem claims_of_checkAll (h : c.checkAll claims = .ok checks) :
    (checks.map Check.verdict).map Verdict.claim = claims := by
  rw [List.map_map]
  exact map_eq_of_mapM h fun claim check hcheck => (ends_of_check hcheck).tier.1

theorem mem_verdicts_iff (h : c.checkAll claims = .ok checks) {v : Verdict} :
    v ∈ checks.map Check.verdict ↔
      ∃ claim ∈ claims, ∃ check, c.check claim = .ok check ∧ check.verdict = v := by
  rw [List.mem_map]
  constructor
  · rintro ⟨check, hcheck, rfl⟩
    obtain ⟨claim, hclaim, hok⟩ := (mem_iff_of_mapM h).1 hcheck
    exact ⟨claim, hclaim, check, hok, rfl⟩
  · rintro ⟨claim, hclaim, check, hok, rfl⟩
    exact ⟨check, (mem_iff_of_mapM h).2 ⟨claim, hclaim, hok⟩, rfl⟩

/-- A verdict on a claim of the category comes from the check of that claim. -/
theorem exists_check_of_mem_select (h : c.checkAll claims = .ok checks) {v : Verdict}
    (hv : v ∈ category.select (checks.map Check.verdict)) :
    v.claim.category = category ∧ ∃ check, c.check v.claim = .ok check ∧ check.verdict = v := by
  obtain ⟨hmem, hcategory⟩ := List.mem_filter.1 hv
  obtain ⟨claim, -, check, hcheck, rfl⟩ := (mem_verdicts_iff h).1 hmem
  have hclaim : check.verdict.claim = claim := (ends_of_check hcheck).tier.1
  exact ⟨of_decide_eq_true hcategory, check, by rw [hclaim, hcheck], rfl⟩

theorem count_notValidated (h : c.checkAll claims = .ok checks) (category : Category) :
    Status.notValidated.count (category.select (checks.map Check.verdict)) =
      if category.isValidated then 0
      else (category.select (checks.map Check.verdict)).length := by
  have hstatus : ∀ v ∈ category.select (checks.map Check.verdict),
      (v.status = .notValidated ↔ category.isValidated = false) := by
    intro v hv
    obtain ⟨hcategory, check, hcheck, rfl⟩ := exists_check_of_mem_select h hv
    rw [(ends_of_check hcheck).notValidated_iff, hcategory]
  by_cases hvalidated : category.isValidated
  · rw [if_pos hvalidated, Status.count, List.countP_eq_zero]
    intro v hv
    simp [hstatus v hv, hvalidated]
  · rw [if_neg hvalidated, Status.count, List.countP_eq_length]
    intro v hv
    simpa [hstatus v hv] using hvalidated

/-! ### Entries by category -/

theorem claims_entries {verdicts : List Verdict}
    (h : verdicts.map Verdict.claim = set.toList) (category : Category) :
    (category.entries verdicts).map (·.claim) = (set.values.get category).toList := by
  rw [← set.values_of_category, ← h, List.filter_map, List.map_map, Category.entries,
    List.map_map]
  rfl

theorem pairwise_entries {verdicts : List Verdict}
    (h : verdicts.map Verdict.claim = set.toList) (category : Category) :
    (category.entries verdicts).Pairwise (·.claim < ·.claim) := by
  have hsorted := (set.values.get category).sorted
  rw [← claims_entries h] at hsorted
  exact List.pairwise_map.1 hsorted

/-- Nothing is left to sort when the claims of a set have been recorded in order. -/
theorem finish_tally_select {verdicts : List Verdict}
    (h : verdicts.map Verdict.claim = set.toList) (category : Category) :
    (Breakdown.tally (category.select verdicts)).finish =
      { Breakdown.tally (category.select verdicts) with results := category.entries verdicts } := by
  have hsorted := (pairwise_entries h category).imp Std.le_of_lt
  rw [Breakdown.finish_tally, ← Category.entries, ReportEntry.inOrder_of_pairwise hsorted]

/-! ### Reports -/

/-- What the breakdown of a category has to say on the claims of a set. -/
structure Covers (c : Checker) (set : ClaimSet) (category : Category) (b : Breakdown) :
    Prop where
  claims_eq : b.results.map (·.claim) = (set.values.get category).toList
  sorted : b.results.Pairwise (·.claim < ·.claim)
  verdicts : ∀ e ∈ b.results, ∃ check, c.check ⟨category, e.claim⟩ = .ok check ∧
    e = .ofVerdict check.verdict
  found_iff : ∀ e ∈ b.results, e.found ↔ e.status = .found
  total : b.total = set.count category
  notValidated : b.notValidated = if category.isValidated then 0 else b.total

/-- What a report has to say on a set. -/
structure Reports (c : Checker) (set : ClaimSet) (r : Report) : Prop where
  sourceDocument : r.sourceDocument = set.sourceDocument
  sourceRoot : r.sourceRoot = Text.lossy c.root.given
  breakdowns : ∀ category, ∃ b, r.byCategory.get category = some b ∧ c.Covers set category b
  totalClaims : r.summary.totalClaims = set.size
  hasMissing_iff : r.hasMissing ↔
    ∃ claim ∈ set.toList, ∃ check, c.check claim = .ok check ∧ check.verdict.status = .notFound

theorem covers_tally (h : c.checkAll set.toList = .ok checks) (category : Category) :
    c.Covers set category
      { Breakdown.tally (category.select (checks.map Check.verdict)) with
        results := category.entries (checks.map Check.verdict) } where
  claims_eq := claims_entries (claims_of_checkAll h) category
  sorted := pairwise_entries (claims_of_checkAll h) category
  verdicts e he := by
    obtain ⟨v, hv, rfl⟩ := List.mem_map.1 he
    obtain ⟨rfl, check, hcheck, rfl⟩ := exists_check_of_mem_select h hv
    exact ⟨check, hcheck, rfl⟩
  found_iff e he := by
    obtain ⟨v, -, rfl⟩ := List.mem_map.1 he
    exact beq_iff_eq
  total := by
    have hlength := congrArg List.length (claims_entries (claims_of_checkAll h) category)
    rw [List.length_map, Category.entries, List.length_map] at hlength
    exact hlength
  notValidated := count_notValidated h category

theorem report_eq_ok_iff {date : String} {r : Report} :
    c.report set date = .ok r ↔ ∃ checks, c.checkAll set.toList = .ok checks ∧
      .ofVerdicts set.sourceDocument date (Text.lossy c.root.given)
        (checks.map Check.verdict) = r := by
  simp only [report, bind_eq_ok_iff, pure_eq_ok_iff]

theorem reports_of_report {date : String} {r : Report} (h : c.report set date = .ok r) :
    c.Reports set r := by
  obtain ⟨checks, hchecks, rfl⟩ := report_eq_ok_iff.1 h
  have hclaims := claims_of_checkAll hchecks
  rw [Report.ofVerdicts_eq]
  refine ⟨rfl, rfl, ?_, ?_, ?_⟩
  · intro category
    refine ⟨_, PerCategory.get_ofFn _ category, ?_⟩
    rw [finish_tally_select hclaims]
    exact covers_tally hchecks category
  · have hlength := congrArg List.length hclaims
    rw [List.length_map, ClaimSet.length_toList] at hlength
    exact hlength
  · rw [Report.hasMissing, decide_eq_true_iff]
    change 0 < List.countP _ _ ↔ _
    rw [List.countP_pos_iff]
    constructor
    · rintro ⟨v, hv, hstatus⟩
      obtain ⟨claim, hclaim, check, hcheck, rfl⟩ := (mem_verdicts_iff hchecks).1 hv
      exact ⟨claim, hclaim, check, hcheck, of_decide_eq_true hstatus⟩
    · rintro ⟨claim, hclaim, check, hcheck, hstatus⟩
      exact ⟨_, (mem_verdicts_iff hchecks).2 ⟨claim, hclaim, check, hcheck, rfl⟩,
        decide_eq_true hstatus⟩

theorem report_batch_eq_ok_iff {b : Batch} {workers : Nat}
    (hway : b.OnTheWay c workers set.toList) (hover : b.isOver) {date : String} {r : Report} :
    b.report c set date = .ok r ↔ c.report set date = .ok r := by
  rw [report_eq_ok_iff, Batch.report, bind_eq_ok_iff]
  simp only [pure_eq_ok_iff, hway.outcome_eq_ok_iff hover]

/-- A batch fails to start exactly if the system refuses its workers. Whatever these do next,
no more of them are busy than there are, the batch comes to its end unless a check waits forever,
and then it has the report that checking the claims in order gives. There is a report exactly
when every check ends properly, and it covers the set. -/
theorem report_of_batch (c : Checker) (set : ClaimSet) :
    (∀ (m : Machine) (jobs : Nat) (e : PoolError), m.batch jobs set = .error e ↔
      m.refusal? (m.workers jobs) = some e.reason) ∧
    (∀ (m : Machine) (jobs : Nat) (start : Batch), m.batch jobs set = .ok start →
      ∀ (moves : List Move) (b : Batch), start.run? c moves = some b →
        moves.length ≤ 2 * set.size ∧ b.busy ≤ m.workers jobs ∧
          ((∀ claim ∈ set.toList, c.halts claim = true) → ¬b.isOver →
            ∃ move b', b.step? c move = some b') ∧
          (b.isOver → ∀ date r, b.report c set date = .ok r ↔ c.report set date = .ok r)) ∧
      ((∃ r : Report, ∀ date, c.report set date = .ok { r with validationDate := date }) ↔
        ∀ claim ∈ set.toList, ∃ check, c.check claim = .ok check) ∧
      ∀ date r, c.report set date = .ok r → c.Reports set r := by
  refine ⟨?_, ?_, ?_, fun date r h => reports_of_report h⟩
  · intro m jobs e
    rw [← Machine.pool_eq_error_iff, Machine.batch]
    cases m.pool jobs <;> simp [bind, Except.bind, pure, Except.pure]
  · intro m jobs start hstart moves b hrun
    obtain ⟨workers, hpool, hbatch⟩ := bind_eq_ok_iff.1 hstart
    obtain rfl := pure_eq_ok_iff.1 hbatch
    obtain ⟨-, rfl⟩ := Machine.pool_eq_ok_iff.1 hpool
    obtain ⟨hway, hmoves⟩ := Batch.onTheWay_start.run hrun
    rw [Batch.movesLeft_start, ClaimSet.length_toList] at hmoves
    refine ⟨by omega, hway.busy_le, ?_, fun hover date r => report_batch_eq_ok_iff hway hover⟩
    intro hhalts hover
    refine Batch.exists_step (hway.workers_eq ▸ m.workers_pos jobs) ?_ ?_
    · intro s hs
      exact hhalts s.claim (hway.claims_eq ▸ List.mem_map_of_mem hs)
    · exact mt Batch.isOver_of_all_hasEnded hover
  · constructor
    · rintro ⟨r, hr⟩
      obtain ⟨checks, hchecks, -⟩ := report_eq_ok_iff.1 (hr "")
      exact exists_mapM_eq_ok_iff.1 ⟨checks, hchecks⟩
    · intro h
      obtain ⟨checks, hchecks⟩ := exists_mapM_eq_ok_iff.2 h
      refine ⟨.ofVerdicts set.sourceDocument "" (Text.lossy c.root.given)
        (checks.map Check.verdict), ?_⟩
      intro date
      refine report_eq_ok_iff.2 ⟨checks, hchecks, ?_⟩
      rw [Report.ofVerdicts_eq, Report.ofVerdicts_eq]

/-- Two methods, a table and a path that cannot be validated. -/
def customerClaims : ClaimSet where
  sourceDocument := "customer.html"
  extractedAt := "T"
  values := .ofFn fun
    | .methods => ⟨["getById", "save"], by decide⟩
    | .tables => ⟨["customer_entity"], by decide⟩
    | .filePaths => ⟨["etc/di.xml"], by decide⟩
    | _ => .empty

/-- Two workers take the claims out of order and end their checks in another order. -/
def crossingMoves : List Move :=
  [.take 3, .take 1, .finish 3, .take 2, .finish 1, .take 0, .finish 0, .finish 2]

/-- A machine that starts up to 64 threads. -/
def smallMachine : Machine where
  processors := 4
  refusal? n := if 64 < n then some "Resource temporarily unavailable (os error 11)" else none
  processors_pos := by decide

theorem report_of_batch_crossingMoves :
    ∃ start b : Batch, smallMachine.batch 2 customerClaims = .ok start ∧
      start.run? (within [sourceIndex]) crossingMoves = some b ∧ b.isOver ∧
      ∃ r : Report,
        (∀ date, b.report (within [sourceIndex]) customerClaims date =
          .ok { r with validationDate := date }) ∧
        (within [sourceIndex]).Reports customerClaims r ∧ r.hasMissing := by
  obtain ⟨-, hbatch, hreport, hcovers⟩ := report_of_batch (within [sourceIndex]) customerClaims
  obtain ⟨r, hr⟩ := hreport.2 fun claim _ => exists_check responds_sourceIndex claim
  have hstart : smallMachine.batch 2 customerClaims = .ok (.start 2 customerClaims.toList) := rfl
  have hrun : (Batch.start 2 customerClaims.toList).run? (within [sourceIndex]) crossingMoves =
      some _ := rfl
  obtain ⟨-, -, -, hover⟩ := hbatch _ 2 _ hstart crossingMoves _ hrun
  have hdone := hover rfl
  have hreports := hcovers _ _ (hr r.validationDate)
  refine ⟨_, _, hstart, hrun, rfl, r, fun date => (hdone date _).2 (hr date), hreports, ?_⟩
  exact hreports.hasMissing_iff.2 ⟨⟨.tables, "customer_entity"⟩, by decide, _, rfl, rfl⟩

/-- A walk with a time limit, in seconds, that fits 64 bits but not the clock. -/
def longestWalk : Placement :=
  ⟨.walk, ⟨["php"], ["xml"]⟩, 18446744073709551615 * nanosecondsInSecond,
    fun _ => ⟨.empty, fun _ => none, fun _ => 0⟩⟩

/-- There is no report if so many threads are refused, or if the check of a claim panics. -/
theorem no_report_longestWalk :
    (∃ e, smallMachine.batch 65535 customerClaims = .error e) ∧
    ¬∃ r, (within [longestWalk.searcher]).report
      (.ofClaims "doc.html" "T" [⟨.methods, "save"⟩]) "T" = .ok r := by
  refine ⟨⟨_, rfl⟩, ?_⟩
  rintro ⟨r, hr⟩
  have hreport : (within [longestWalk.searcher]).report
      (.ofClaims "doc.html" "T" [⟨.methods, "save"⟩]) "T" = .error .clockOverflow := rfl
  rw [hreport] at hr
  cases hr

end Checker
end DocClaims
