import DocClaims.Proofs.Categories
import DocClaims.Proofs.Json.RoundTrip
import DocClaims.Proofs.Yaml.RoundTrip
import DocClaims.Report.Builder
import DocClaims.Report.Format

/-!
# Reports in files

A report that was built from verdicts is read back from its file in either format.
Counts and line numbers are taken to be machine words.
-/

namespace DocClaims

/-! ### Counts within words -/

def Hit.FitsWord (hit : Hit) : Prop := hit.line < Shape.countLimit

/-- No count is larger than the number. -/
structure Histogram.AtMost (h : Histogram) (n : Nat) : Prop where
  high : h.high ≤ n
  medium : h.medium ≤ n
  low : h.low ≤ n

structure Summary.AtMost (s : Summary) (n : Nat) : Prop where
  totalClaims : s.totalClaims ≤ n
  validated : s.validated ≤ n
  found : s.found ≤ n
  notFound : s.notFound ≤ n
  notValidated : s.notValidated ≤ n
  confidence : s.confidence.AtMost n

structure Breakdown.AtMost (b : Breakdown) (n : Nat) : Prop where
  total : b.total ≤ n
  found : b.found ≤ n
  notFound : b.notFound ≤ n
  notValidated : b.notValidated ≤ n
  lines : ∀ e ∈ b.results, ∀ hit ∈ e.evidence, hit.FitsWord

structure Report.AtMost (r : Report) (n : Nat) : Prop where
  summary : r.summary.AtMost n
  byCategory : ∀ c b, r.byCategory.get c = some b → b.AtMost n

/-! ### Building -/

variable {n m : Nat}

theorem Histogram.AtMost.add {h : Histogram} (hn : h.AtMost n) (c : Confidence) :
    (h.add c).AtMost (n + 1) := by
  obtain ⟨hhigh, hmedium, hlow⟩ := hn
  cases c with
  | high => exact ⟨Nat.succ_le_succ hhigh, Nat.le_succ_of_le hmedium, Nat.le_succ_of_le hlow⟩
  | medium => exact ⟨Nat.le_succ_of_le hhigh, Nat.succ_le_succ hmedium, Nat.le_succ_of_le hlow⟩
  | low => exact ⟨Nat.le_succ_of_le hhigh, Nat.le_succ_of_le hmedium, Nat.succ_le_succ hlow⟩

theorem Summary.AtMost.record {s : Summary} (hn : s.AtMost n) (v : Verdict) :
    (s.record v).AtMost (n + 1) := by
  obtain ⟨htotal, hvalidated, hfound, hnotFound, hnotValidated, hconfidence⟩ := hn
  have hadd := hconfidence.add v.confidence
  unfold Summary.record
  cases v.status with
  | found =>
      exact ⟨Nat.succ_le_succ htotal, Nat.succ_le_succ hvalidated, Nat.succ_le_succ hfound,
        Nat.le_succ_of_le hnotFound, Nat.le_succ_of_le hnotValidated, hadd⟩
  | notFound =>
      exact ⟨Nat.succ_le_succ htotal, Nat.succ_le_succ hvalidated, Nat.le_succ_of_le hfound,
        Nat.succ_le_succ hnotFound, Nat.le_succ_of_le hnotValidated, hadd⟩
  | notValidated =>
      exact ⟨Nat.succ_le_succ htotal, Nat.le_succ_of_le hvalidated, Nat.le_succ_of_le hfound,
        Nat.le_succ_of_le hnotFound, Nat.succ_le_succ hnotValidated, hadd⟩

theorem Breakdown.AtMost.record {b : Breakdown} (hn : b.AtMost n) {v : Verdict}
    (hv : ∀ hit ∈ v.evidence, hit.FitsWord) : (b.record v).AtMost (n + 1) := by
  obtain ⟨htotal, hfound, hnotFound, hnotValidated, hlines⟩ := hn
  have hall : ∀ e ∈ ReportEntry.ofVerdict v :: b.results, ∀ hit ∈ e.evidence, hit.FitsWord :=
    List.forall_mem_cons.2 ⟨hv, hlines⟩
  unfold Breakdown.record
  cases v.status with
  | found =>
      exact ⟨Nat.succ_le_succ htotal, Nat.succ_le_succ hfound, Nat.le_succ_of_le hnotFound,
        Nat.le_succ_of_le hnotValidated, hall⟩
  | notFound =>
      exact ⟨Nat.succ_le_succ htotal, Nat.le_succ_of_le hfound, Nat.succ_le_succ hnotFound,
        Nat.le_succ_of_le hnotValidated, hall⟩
  | notValidated =>
      exact ⟨Nat.succ_le_succ htotal, Nat.le_succ_of_le hfound, Nat.le_succ_of_le hnotFound,
        Nat.succ_le_succ hnotValidated, hall⟩

theorem Breakdown.AtMost.mono {b : Breakdown} (hn : b.AtMost n) (hle : n ≤ m) : b.AtMost m :=
  ⟨Nat.le_trans hn.total hle, Nat.le_trans hn.found hle, Nat.le_trans hn.notFound hle,
    Nat.le_trans hn.notValidated hle, hn.lines⟩

theorem Breakdown.AtMost.finish {b : Breakdown} (hn : b.AtMost n) : b.finish.AtMost n := by
  refine ⟨hn.total, hn.found, hn.notFound, hn.notValidated, ?_⟩
  intro e he
  apply hn.lines e
  simpa [Breakdown.finish] using he

namespace ReportBuilder

structure AtMost (b : ReportBuilder) (n : Nat) : Prop where
  summary : b.summary.AtMost n
  byCategory : ∀ c, (b.byCategory.get c).AtMost n

theorem atMost_start (sourceDocument validationDate sourceRoot : String) :
    (start sourceDocument validationDate sourceRoot).AtMost 0 := by
  constructor
  · exact ⟨Nat.le_refl 0, Nat.le_refl 0, Nat.le_refl 0, Nat.le_refl 0, Nat.le_refl 0, Nat.le_refl 0,
      Nat.le_refl 0, Nat.le_refl 0⟩
  · intro c
    rw [start, PerCategory.get_replicate]
    exact ⟨Nat.le_refl 0, Nat.le_refl 0, Nat.le_refl 0, Nat.le_refl 0, by simp [Breakdown.zero]⟩

theorem AtMost.record {b : ReportBuilder} (hn : b.AtMost n) {v : Verdict}
    (hv : ∀ hit ∈ v.evidence, hit.FitsWord) : (b.record v).AtMost (n + 1) := by
  refine ⟨hn.summary.record v, ?_⟩
  intro c
  rw [ReportBuilder.record, PerCategory.get_modify]
  split
  · exact (hn.byCategory c).record hv
  · exact (hn.byCategory c).mono (Nat.le_succ n)

theorem AtMost.recordAll {b : ReportBuilder} (hn : b.AtMost n) {verdicts : List Verdict}
    (h : ∀ v ∈ verdicts, ∀ hit ∈ v.evidence, hit.FitsWord) :
    (b.recordAll verdicts).AtMost (n + verdicts.length) := by
  induction verdicts generalizing b n with
  | nil => exact hn
  | cons v verdicts ih =>
      have hrest := ih (hn.record (h v (by simp))) fun u hu => h u (by simp [hu])
      rw [List.length_cons, Nat.add_comm verdicts.length, ← Nat.add_assoc]
      exact hrest

end ReportBuilder

theorem Report.atMost_ofVerdicts (sourceDocument validationDate sourceRoot : String)
    {verdicts : List Verdict} (h : ∀ v ∈ verdicts, ∀ hit ∈ v.evidence, hit.FitsWord) :
    (ofVerdicts sourceDocument validationDate sourceRoot verdicts).AtMost verdicts.length := by
  have hall := (ReportBuilder.atMost_start sourceDocument validationDate sourceRoot).recordAll h
  rw [Nat.zero_add] at hall
  refine ⟨hall.summary, ?_⟩
  intro c b hb
  rw [ofVerdicts, ReportBuilder.finish, PerCategory.get_map] at hb
  obtain rfl := Option.some.inj hb
  exact (hall.byCategory c).finish

/-! ### Data of reports -/

theorem toCount?_count (n : Nat) : (Datum.count n).toCount? = some n := rfl

theorem Hit.fits_toDatum {hit : Hit} (h : hit.FitsWord) : shape.Fits hit.toDatum := by
  rw [shape, toDatum, Shape.fits_record]
  simpa [FitsWord] using h

theorem Hit.ofDatum?_toDatum (hit : Hit) : ofDatum? hit.toDatum = some hit := by
  simp [ofDatum?, toDatum, Datum.get?, List.lookup_cons, Datum.toText?, toCount?_count]

theorem Status.ofName?_name (s : Status) : Status.ofName? s.name = some s := by
  cases s <;> decide

theorem Confidence.ofName?_name (c : Confidence) : Confidence.ofName? c.name = some c := by
  cases c <;> decide

namespace Histogram

theorem fits_toDatum {h : Histogram} (hn : h.AtMost n) (hlt : n < Shape.countLimit) :
    shape.Fits h.toDatum := by
  rw [shape, toDatum, Shape.fits_record]
  simp [countShape, Nat.lt_of_le_of_lt hn.high hlt, Nat.lt_of_le_of_lt hn.medium hlt,
    Nat.lt_of_le_of_lt hn.low hlt]

theorem ofDatum?_toDatum (h : Histogram) : ofDatum? h.toDatum = some h := by
  simp [ofDatum?, toDatum, Datum.get?, List.lookup_cons, toCount?_count]

end Histogram

namespace Summary

theorem fits_toDatum {s : Summary} (hn : s.AtMost n) (hlt : n < Shape.countLimit) :
    shape.Fits s.toDatum := by
  rw [shape, toDatum, Shape.fits_record]
  simp [Histogram.countShape, Nat.lt_of_le_of_lt hn.totalClaims hlt,
    Nat.lt_of_le_of_lt hn.validated hlt, Nat.lt_of_le_of_lt hn.found hlt,
    Nat.lt_of_le_of_lt hn.notFound hlt, Nat.lt_of_le_of_lt hn.notValidated hlt,
    Histogram.fits_toDatum hn.confidence hlt]

theorem ofDatum?_toDatum (s : Summary) : ofDatum? s.toDatum = some s := by
  simp [ofDatum?, toDatum, Datum.get?, List.lookup_cons, toCount?_count,
    Histogram.ofDatum?_toDatum]

end Summary

namespace ReportEntry

theorem fits_toDatum {e : ReportEntry} (h : ∀ hit ∈ e.evidence, hit.FitsWord) :
    shape.Fits e.toDatum := by
  have hstatus : (Shape.choice (Status.all.map Status.name)).Fits (.text e.status.name) :=
    Shape.fits_choice (List.mem_map_of_mem (by cases e.status <;> decide))
  have hconfidence : (Shape.choice (Confidence.all.map Confidence.name)).Fits
      (.text e.confidence.name) :=
    Shape.fits_choice (List.mem_map_of_mem (by cases e.confidence <;> decide))
  have hevidence : (Shape.list Hit.shape).Fits (.list (e.evidence.map Hit.toDatum)) :=
    Shape.fits_list fun hit hmem => Hit.fits_toDatum (h hit hmem)
  rw [shape, toDatum, Shape.fits_record]
  simp [hstatus, hconfidence, hevidence]

theorem ofDatum?_toDatum (e : ReportEntry) : ofDatum? e.toDatum = some e := by
  have hevidence := mapM_encode Hit.ofDatum?_toDatum e.evidence
  simp [ofDatum?, toDatum, Datum.get?, List.lookup_cons, Datum.toText?, Datum.toFlag?,
    Datum.toList?, Status.ofName?_name, Confidence.ofName?_name, hevidence]

end ReportEntry

namespace Breakdown

theorem fits_toDatum {b : Breakdown} (hn : b.AtMost n) (hlt : n < Shape.countLimit) :
    shape.Fits b.toDatum := by
  have hresults : (Shape.list ReportEntry.shape).Fits
      (.list (b.results.map ReportEntry.toDatum)) :=
    Shape.fits_list fun e he => ReportEntry.fits_toDatum (hn.lines e he)
  rw [shape, toDatum, Shape.fits_record]
  simp [Histogram.countShape, Nat.lt_of_le_of_lt hn.total hlt, Nat.lt_of_le_of_lt hn.found hlt,
    Nat.lt_of_le_of_lt hn.notFound hlt, Nat.lt_of_le_of_lt hn.notValidated hlt, hresults]

theorem ofDatum?_toDatum (b : Breakdown) : ofDatum? b.toDatum = some b := by
  have hresults := mapM_encode ReportEntry.ofDatum?_toDatum b.results
  simp [ofDatum?, toDatum, Datum.get?, List.lookup_cons, toCount?_count,
    Datum.toList?, hresults]

end Breakdown

namespace Report

theorem mem_breakdowns {r : Report} {c : Category} {b : Breakdown} (h : (c, b) ∈ r.breakdowns) :
    r.byCategory.get c = some b := by
  obtain ⟨⟨d, entry⟩, hmem, hentry⟩ := List.mem_filterMap.1 h
  obtain ⟨e, -, heq⟩ := List.mem_map.1 hmem
  obtain ⟨rfl, rfl⟩ := Prod.mk.inj heq
  obtain ⟨a, ha, hpair⟩ := Option.map_eq_some_iff.1 hentry
  obtain ⟨rfl, rfl⟩ := Prod.mk.inj hpair
  exact ha

theorem fits_breakdowns {r : Report} (hn : r.AtMost n) (hlt : n < Shape.countLimit) :
    (Shape.keyed (Category.all.map Category.key) Breakdown.shape).Fits
      (.table (r.breakdowns.map fun (c, b) => (c.key, b.toDatum))) := by
  rw [Shape.Fits]
  refine ⟨_, rfl, ?_⟩
  intro e he
  obtain ⟨⟨c, b⟩, hmem, rfl⟩ := List.mem_map.1 he
  exact ⟨List.mem_map_of_mem (Category.mem_all c),
    Breakdown.fits_toDatum (hn.byCategory c b (mem_breakdowns hmem)) hlt⟩

theorem fits_toDatum {r : Report} (hn : r.AtMost n) (hlt : n < Shape.countLimit) :
    shape.Fits r.toDatum := by
  have hbreakdowns := fits_breakdowns hn hlt
  rw [shape, toDatum, Shape.fits_record]
  simp [Summary.fits_toDatum hn.summary hlt, hbreakdowns]

theorem foldlM_withBreakdown (r : Report) :
    (r.breakdowns.map fun (c, b) => (c.key, b.toDatum)).foldlM withBreakdown
      (PerCategory.replicate none) = some r.byCategory := by
  refine PerCategory.foldlM_present (fun t c b => ?_) r.byCategory
  simp [withBreakdown, Category.ofKey?_key, Breakdown.ofDatum?_toDatum]

theorem ofDatum?_toDatum (r : Report) : ofDatum? r.toDatum = some r := by
  have hbreakdowns := foldlM_withBreakdown r
  simp [ofDatum?, toDatum, Datum.get?, List.lookup_cons, Datum.toText?, Datum.toTable?,
    Summary.ofDatum?_toDatum, hbreakdowns]

/-! ### Files -/

theorem wellKeyed_shape : shape.wellKeyed Yaml.isKeyText := by decide +kernel

theorem parse_render_of_atMost {r : Report} (hn : r.AtMost n) (hlt : n < Shape.countLimit) :
    parseJson (r.render .json) = .ok r ∧ parseYaml (r.render .yaml) = .ok r := by
  have hfits := fits_toDatum hn hlt
  have hjson : Json.read shape (r.render .json) = .ok r.toDatum :=
    Json.read_write wellKeyed_shape hfits
  have hyaml : Yaml.read shape (r.render .yaml) = .ok r.toDatum :=
    Yaml.read_write wellKeyed_shape hfits
  constructor
  · rw [parseJson, hjson, Outcome.ok_bind, ofDatum?_toDatum]
    rfl
  · rw [parseYaml, hyaml, Outcome.ok_bind, ofDatum?_toDatum]
    rfl

/-- The report on any verdicts is read back from both formats, as long as its counts
and line numbers are words. -/
theorem parse_render_ofVerdicts (sourceDocument validationDate sourceRoot : String)
    (verdicts : List Verdict) (hlength : verdicts.length < Shape.countLimit)
    (hlines : ∀ v ∈ verdicts, ∀ hit ∈ v.evidence, hit.line < Shape.countLimit) :
    let r := ofVerdicts sourceDocument validationDate sourceRoot verdicts
    parseJson (r.render .json) = .ok r ∧ parseYaml (r.render .yaml) = .ok r :=
  parse_render_of_atMost (atMost_ofVerdicts sourceDocument validationDate sourceRoot hlines)
    hlength

/-- Errors of a tool end up in the notes as they are. -/
theorem parse_render_toolErrors :
    let v : Verdict := ⟨⟨.methods, "null"⟩, .notFound, .low, [⟨"- app: #1.php", 12⟩],
      "rg: \"x\"\n\tfailed \\ 'y' \u0007\n"⟩
    let r := ofVerdicts "docs/~.html" "2025-01-07" "true" [v]
    ([v].length < Shape.countLimit ∧
      ∀ u ∈ [v], ∀ hit ∈ u.evidence, hit.line < Shape.countLimit) ∧
      parseJson (r.render .json) = .ok r ∧ parseYaml (r.render .yaml) = .ok r := by
  intro v r
  have hlines : ∀ u ∈ [v], ∀ hit ∈ u.evidence, hit.line < Shape.countLimit := by decide
  exact ⟨⟨by decide, hlines⟩,
    parse_render_ofVerdicts "docs/~.html" "2025-01-07" "true" [v] (by decide) hlines⟩

end Report
end DocClaims
