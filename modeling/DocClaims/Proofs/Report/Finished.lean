import DocClaims.Proofs.Report.Tally
import DocClaims.Report.Format
import Mathlib.Data.List.Nodup

/-!
# Finished reports

Finishing a report sorts the entries of each category by claim and changes nothing
else. As long as no claim is recorded twice, the finished report does not depend on
the order of the records.
-/

namespace DocClaims

/-! ### Entries in the order of their claims -/

namespace ReportEntry

variable {xs ys : List ReportEntry}

def inOrder (xs : List ReportEntry) : List ReportEntry := xs.mergeSort fun x y => x.claim ≤ y.claim

theorem claim_le_trans (x y z : ReportEntry) (hxy : decide (x.claim ≤ y.claim) = true)
    (hyz : decide (y.claim ≤ z.claim) = true) : decide (x.claim ≤ z.claim) = true :=
  decide_eq_true (String.le_trans (of_decide_eq_true hxy) (of_decide_eq_true hyz))

theorem claim_le_total (x y : ReportEntry) :
    (decide (x.claim ≤ y.claim) || decide (y.claim ≤ x.claim)) = true := by
  simpa using String.le_total x.claim y.claim

theorem inOrder_perm (xs : List ReportEntry) : (inOrder xs).Perm xs := List.mergeSort_perm xs _

theorem pairwise_inOrder (xs : List ReportEntry) :
    (inOrder xs).Pairwise (·.claim ≤ ·.claim) :=
  (List.pairwise_mergeSort claim_le_trans claim_le_total xs).imp fun h => of_decide_eq_true h

theorem inOrder_of_pairwise (h : xs.Pairwise (·.claim ≤ ·.claim)) : inOrder xs = xs :=
  List.mergeSort_of_pairwise (h.imp fun hle => decide_eq_true hle)

/-- Entries with equal claims stay in their order. -/
theorem filter_inOrder (xs : List ReportEntry) (claim : String) :
    (inOrder xs).filter (·.claim = claim) = xs.filter (·.claim = claim) := by
  have hequal : (xs.filter (·.claim = claim)).Pairwise
      fun x y => decide (x.claim ≤ y.claim) = true := by
    refine List.pairwise_of_forall_mem_list ?_
    intro x hx y hy
    simp_all
  have hsub : (xs.filter (·.claim = claim)).Sublist (inOrder xs) :=
    List.sublist_mergeSort claim_le_trans claim_le_total hequal List.filter_sublist
  have hfiltered := hsub.filter fun x => decide (x.claim = claim)
  rw [List.filter_filter, List.filter_congr fun x _ => Bool.and_self _] at hfiltered
  exact (hfiltered.eq_of_length ((inOrder_perm xs).filter _).length_eq.symm).symm

theorem inOrder_eq_of_perm (hclaims : (xs.map (·.claim)).Nodup) (h : xs.Perm ys) :
    inOrder xs = inOrder ys := by
  have hperm : (inOrder xs).Perm (inOrder ys) :=
    (inOrder_perm xs).trans (h.trans (inOrder_perm ys).symm)
  refine hperm.eq_of_pairwise ?_ (pairwise_inOrder xs) (pairwise_inOrder ys)
  intro x y hx hy hxy hyx
  -- Equal claims mean equal entries only because no claim occurs twice.
  have hx' : x ∈ xs := (inOrder_perm xs).mem_iff.1 hx
  have hy' : y ∈ xs := h.mem_iff.2 ((inOrder_perm ys).mem_iff.1 hy)
  exact List.inj_on_of_nodup_map hclaims hx' hy' (String.le_antisymm hxy hyx)

end ReportEntry

theorem Breakdown.finish_tally (verdicts : List Verdict) :
    (tally verdicts).finish =
      { tally verdicts with
        results := ReportEntry.inOrder (verdicts.map ReportEntry.ofVerdict) } := by
  simp [finish, tally, ReportEntry.inOrder]

/-! ### Counters and entries after any run of records -/

namespace ReportBuilder

variable {sourceDocument validationDate sourceRoot : String}

/-- The counters of a builder agree with each other and with the verdicts recorded. -/
structure Balanced (b : ReportBuilder) (verdicts : List Verdict) : Prop where
  recorded : ∀ c, (b.byCategory.get c).results.reverse = c.entries verdicts
  total : ∀ c, (b.byCategory.get c).total = (b.byCategory.get c).results.length
  byStatus : ∀ c, (b.byCategory.get c).found + (b.byCategory.get c).notFound +
    (b.byCategory.get c).notValidated = (b.byCategory.get c).total
  validated : b.summary.validated = b.summary.found + b.summary.notFound
  totalClaims : b.summary.totalClaims = b.summary.validated + b.summary.notValidated
  byConfidence : b.summary.totalClaims =
    b.summary.confidence.high + b.summary.confidence.medium + b.summary.confidence.low
  sumTotal : b.summary.totalClaims = Category.sum fun c => (b.byCategory.get c).total
  sumFound : b.summary.found = Category.sum fun c => (b.byCategory.get c).found
  sumNotFound : b.summary.notFound = Category.sum fun c => (b.byCategory.get c).notFound
  sumNotValidated :
    b.summary.notValidated = Category.sum fun c => (b.byCategory.get c).notValidated

theorem get_tally (verdicts : List Verdict) (c : Category) :
    (tally sourceDocument validationDate sourceRoot verdicts).byCategory.get c =
      .tally (c.select verdicts) := PerCategory.get_ofFn _ c

theorem balanced_tally (verdicts : List Verdict) :
    (tally sourceDocument validationDate sourceRoot verdicts).Balanced verdicts where
  recorded c := by rw [get_tally, Breakdown.tally, List.reverse_reverse, Category.entries]
  total c := by simp [get_tally, Breakdown.tally]
  byStatus c := by rw [get_tally]; exact Status.count_add _
  validated := rfl
  totalClaims := (Status.count_add verdicts).symm
  byConfidence := (Confidence.count_add verdicts).symm
  sumTotal := by simp only [get_tally]; exact (Category.sum_length_select verdicts).symm
  sumFound := by simp only [get_tally]; exact (Category.sum_countP_select _ verdicts).symm
  sumNotFound := by simp only [get_tally]; exact (Category.sum_countP_select _ verdicts).symm
  sumNotValidated := by simp only [get_tally]; exact (Category.sum_countP_select _ verdicts).symm

theorem get_finish (b : ReportBuilder) (c : Category) :
    b.finish.byCategory.get c = some (b.byCategory.get c).finish := PerCategory.get_map _ _ c

/-- Whatever has been recorded, the counters are balanced. Finishing keeps them, keeps
every category, and sorts the entries of each by claim without reordering those with
equal claims. -/
theorem balanced_recordAll (sourceDocument validationDate sourceRoot : String)
    (verdicts : List Verdict) :
    let b := (start sourceDocument validationDate sourceRoot).recordAll verdicts
    b.Balanced verdicts ∧ b.finish.summary = b.summary ∧
      ∀ c, ∃ x, b.finish.byCategory.get c = some x ∧
        x = { b.byCategory.get c with results := x.results } ∧
        x.results.Perm (c.entries verdicts) ∧
        x.results.Pairwise (·.claim ≤ ·.claim) ∧
        ∀ claim, x.results.filter (·.claim = claim) =
          (c.entries verdicts).filter (·.claim = claim) := by
  intro b
  have hb : b = tally sourceDocument validationDate sourceRoot verdicts := recordAll_eq verdicts
  refine ⟨hb ▸ balanced_tally verdicts, rfl, ?_⟩
  intro c
  have hfinish : (b.byCategory.get c).finish =
      { b.byCategory.get c with results := ReportEntry.inOrder (c.entries verdicts) } := by
    rw [hb, get_tally, Breakdown.finish_tally]
    rfl
  refine ⟨_, get_finish b c, ?_⟩
  rw [hfinish]
  exact ⟨rfl, ReportEntry.inOrder_perm _, ReportEntry.pairwise_inOrder _,
    ReportEntry.filter_inOrder _⟩

end ReportBuilder

/-! ### The order of the records -/

theorem Category.nodup_claims_entries {verdicts : List Verdict}
    (h : (verdicts.map Verdict.claim).Nodup) (c : Category) :
    ((c.entries verdicts).map (·.claim)).Nodup := by
  rw [entries, List.map_map]
  have hselect : ((c.select verdicts).map Verdict.claim).Nodup :=
    h.sublist (List.filter_sublist.map Verdict.claim)
  have hcategory : ∀ v ∈ c.select verdicts, v.claim.category = c := fun v hv => by
    simpa [select] using (List.mem_filter.1 hv).2
  refine List.Nodup.map_on ?_ (List.Nodup.of_map _ hselect)
  intro v hv w hw hvalue
  have hclaim : v.claim = w.claim := by
    rw [Claim.mk.injEq, hcategory v hv, hcategory w hw]
    exact ⟨rfl, hvalue⟩
  exact List.inj_on_of_nodup_map hselect hv hw hclaim

theorem Summary.tally_eq_of_perm {xs ys : List Verdict} (h : xs.Perm ys) :
    tally xs = tally ys := by
  simp only [tally, Histogram.tally, Status.count, Confidence.count, h.length_eq, h.countP_eq]

theorem Breakdown.finish_eq_of_perm {xs ys : List Verdict}
    (hclaims : ((xs.map ReportEntry.ofVerdict).map (·.claim)).Nodup) (h : xs.Perm ys) :
    (tally xs).finish = (tally ys).finish := by
  have hentries := ReportEntry.inOrder_eq_of_perm hclaims (h.map ReportEntry.ofVerdict)
  rw [finish_tally, finish_tally, hentries]
  simp only [tally, Status.count, h.length_eq, h.countP_eq]

namespace Report

theorem ofVerdicts_eq (sourceDocument validationDate sourceRoot : String)
    (verdicts : List Verdict) :
    ofVerdicts sourceDocument validationDate sourceRoot verdicts =
      ⟨sourceDocument, validationDate, sourceRoot, .tally verdicts,
        .ofFn fun c => some (Breakdown.tally (c.select verdicts)).finish⟩ := by
  rw [ofVerdicts, ReportBuilder.recordAll_eq, ReportBuilder.finish, mk.injEq]
  refine ⟨rfl, rfl, rfl, rfl, ?_⟩
  ext c
  rw [PerCategory.get_map, ReportBuilder.get_tally, PerCategory.get_ofFn]

/-- Two runs of records of the same verdicts, no claim twice among them, end in the
same report and the same files. -/
theorem ofVerdicts_eq_of_perm (sourceDocument validationDate sourceRoot : String)
    {xs ys : List Verdict} (hclaims : (xs.map Verdict.claim).Nodup) (h : xs.Perm ys) :
    ofVerdicts sourceDocument validationDate sourceRoot xs =
        ofVerdicts sourceDocument validationDate sourceRoot ys ∧
      ∀ format, (ofVerdicts sourceDocument validationDate sourceRoot xs).render format =
        (ofVerdicts sourceDocument validationDate sourceRoot ys).render format := by
  have hbreakdowns : ∀ c : Category, (Breakdown.tally (c.select xs)).finish =
      (Breakdown.tally (c.select ys)).finish := fun c =>
    Breakdown.finish_eq_of_perm (c.nodup_claims_entries hclaims) (h.filter _)
  have hreport : ofVerdicts sourceDocument validationDate sourceRoot xs =
      ofVerdicts sourceDocument validationDate sourceRoot ys := by
    simp only [ofVerdicts_eq, Summary.tally_eq_of_perm h, hbreakdowns]
  exact ⟨hreport, fun format => by rw [hreport]⟩

/-- Three verdicts on methods and an event, not in the order of their claims. -/
def loginVerdicts : List Verdict :=
  [.notFound ⟨.methods, "save"⟩ .medium "No method definition found",
    .found ⟨.events, "customer_login"⟩ .high [⟨"etc/events.xml", 3⟩] "Found 1 occurrences",
    .found ⟨.methods, "getById"⟩ .medium [⟨"Api/Data.php", 7⟩] "Found 1 occurrences"]

theorem ofVerdicts_loginVerdicts_reverse :
    (loginVerdicts.map Verdict.claim).Nodup ∧ loginVerdicts.Perm loginVerdicts.reverse ∧
      loginVerdicts ≠ loginVerdicts.reverse ∧
      ofVerdicts "doc.html" "T" "." loginVerdicts =
        ofVerdicts "doc.html" "T" "." loginVerdicts.reverse ∧
      ∀ format, (ofVerdicts "doc.html" "T" "." loginVerdicts).render format =
        (ofVerdicts "doc.html" "T" "." loginVerdicts.reverse).render format := by
  have hclaims : (loginVerdicts.map Verdict.claim).Nodup := by decide
  have hperm : loginVerdicts.Perm loginVerdicts.reverse := (List.reverse_perm _).symm
  exact ⟨hclaims, hperm, by decide, ofVerdicts_eq_of_perm "doc.html" "T" "." hclaims hperm⟩

end Report
end DocClaims
