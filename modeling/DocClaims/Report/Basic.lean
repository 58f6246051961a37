import DocClaims.PerCategory
import DocClaims.Verdict

/-!
# Reports

A report holds the verdicts of one document by category, with counts for each
category and for the whole. A report read from a file may lack categories, and
its counts are what the file says.
-/

namespace DocClaims

structure Histogram where
  high : Nat
  medium : Nat
  low : Nat
  deriving DecidableEq, Repr

structure Summary where
  totalClaims : Nat
  validated : Nat
  found : Nat
  notFound : Nat
  notValidated : Nat
  confidence : Histogram
  deriving DecidableEq, Repr

structure ReportEntry where
  claim : String
  status : Status
  found : Bool
  confidence : Confidence
  evidence : List Hit
  notes : String
  deriving DecidableEq, Repr

structure Breakdown where
  total : Nat
  found : Nat
  notFound : Nat
  notValidated : Nat
  results : List ReportEntry
  deriving DecidableEq, Repr

structure Report where
  sourceDocument : String
  validationDate : String
  sourceRoot : String
  summary : Summary
  byCategory : PerCategory (Option Breakdown)
  deriving DecidableEq, Repr

namespace Histogram

def zero : Histogram := ⟨0, 0, 0⟩

def add (h : Histogram) : Confidence → Histogram
  | .high => { h with high := h.high + 1 }
  | .medium => { h with medium := h.medium + 1 }
  | .low => { h with low := h.low + 1 }

def toDatum (h : Histogram) : Datum :=
  .table [("high", .count h.high), ("medium", .count h.medium), ("low", .count h.low)]

def countShape : Shape := .count "usize"

def shape : Shape :=
  .record "ConfidenceHistogram"
    (.field "high" countShape none (.field "medium" countShape none
      (.field "low" countShape none .none)))

def ofDatum? (d : Datum) : Option Histogram := do
  some ⟨← (← d.get? "high").toCount?, ← (← d.get? "medium").toCount?, ← (← d.get? "low").toCount?⟩

end Histogram

namespace Summary

def zero : Summary := ⟨0, 0, 0, 0, 0, .zero⟩

def toDatum (s : Summary) : Datum :=
  .table [("total_claims", .count s.totalClaims), ("validated", .count s.validated),
    ("found", .count s.found), ("not_found", .count s.notFound),
    ("not_validated", .count s.notValidated), ("confidence_distribution", s.confidence.toDatum)]

def shape : Shape :=
  .record "ReportSummary"
    (.field "total_claims" Histogram.countShape none
      (.field "validated" Histogram.countShape none
        (.field "found" Histogram.countShape none
          (.field "not_found" Histogram.countShape none
            (.field "not_validated" Histogram.countShape none
              (.field "confidence_distribution" Histogram.shape none .none))))))

def ofDatum? (d : Datum) : Option Summary := do
  some ⟨← (← d.get? "total_claims").toCount?, ← (← d.get? "validated").toCount?,
    ← (← d.get? "found").toCount?, ← (← d.get? "not_found").toCount?,
    ← (← d.get? "not_validated").toCount?,
    ← Histogram.ofDatum? (← d.get? "confidence_distribution")⟩

end Summary

namespace ReportEntry

def ofVerdict (v : Verdict) : ReportEntry :=
  ⟨v.claim.value, v.status, v.isFound, v.confidence, v.evidence, v.notes⟩

def toDatum (e : ReportEntry) : Datum :=
  .table [("claim", .text e.claim), ("status", .text e.status.name), ("found", .flag e.found),
    ("confidence", .text e.confidence.name), ("evidence", .list (e.evidence.map Hit.toDatum)),
    ("notes", .text e.notes)]

def shape : Shape :=
  .record "ReportEntry"
    (.field "claim" .text none
      (.field "status" (.choice (Status.all.map Status.name)) none
        (.field "found" .flag none
          (.field "confidence" (.choice (Confidence.all.map Confidence.name)) none
            (.field "evidence" (.list Hit.shape) none (.field "notes" .text none .none))))))

def ofDatum? (d : Datum) : Option ReportEntry := do
  some ⟨← (← d.get? "claim").toText?, ← Status.ofName? (← (← d.get? "status").toText?),
    ← (← d.get? "found").toFlag?, ← Confidence.ofName? (← (← d.get? "confidence").toText?),
    ← (← (← d.get? "evidence").toList?).mapM Hit.ofDatum?, ← (← d.get? "notes").toText?⟩

end ReportEntry

namespace Breakdown

def zero : Breakdown := ⟨0, 0, 0, 0, []⟩

def toDatum (b : Breakdown) : Datum :=
  .table [("total", .count b.total), ("found", .count b.found), ("not_found", .count b.notFound),
    ("not_validated", .count b.notValidated),
    ("results", .list (b.results.map ReportEntry.toDatum))]

def shape : Shape :=
  .record "CategoryBreakdown"
    (.field "total" Histogram.countShape none
      (.field "found" Histogram.countShape none
        (.field "not_found" Histogram.countShape none
          (.field "not_validated" Histogram.countShape none
            (.field "results" (.list ReportEntry.shape) none .none)))))

def ofDatum? (d : Datum) : Option Breakdown := do
  some ⟨← (← d.get? "total").toCount?, ← (← d.get? "found").toCount?,
    ← (← d.get? "not_found").toCount?, ← (← d.get? "not_validated").toCount?,
    ← (← (← d.get? "results").toList?).mapM ReportEntry.ofDatum?⟩

end Breakdown

namespace Report

def hasMissing (r : Report) : Bool := 0 < r.summary.notFound

/-- The categories that are present, in canonical order. -/
def breakdowns (r : Report) : List (Category × Breakdown) :=
  r.byCategory.toList.filterMap fun (c, b) => b.map (c, ·)

def toDatum (r : Report) : Datum :=
  .table [("source_document", .text r.sourceDocument),
    ("validation_date", .text r.validationDate), ("source_root", .text r.sourceRoot),
    ("summary", r.summary.toDatum),
    ("results_by_type", .table (r.breakdowns.map fun (c, b) => (c.key, b.toDatum)))]

def shape : Shape :=
  .record "ValidationReport"
    (.field "source_document" .text none
      (.field "validation_date" .text none
        (.field "source_root" .text none
          (.field "summary" Summary.shape none
            (.field "results_by_type" (.keyed (Category.all.map Category.key) Breakdown.shape) none
              .none)))))

/-- A breakdown under a key; of those under the same key the last one counts. -/
def withBreakdown (t : PerCategory (Option Breakdown)) :
    String × Datum → Option (PerCategory (Option Breakdown))
  | (key, d) => do some (t.set (← Category.ofKey? key) (some (← Breakdown.ofDatum? d)))

def ofDatum? (d : Datum) : Option Report := do
  let byCategory ←
    (← (← d.get? "results_by_type").toTable?).foldlM withBreakdown (PerCategory.replicate none)
  some ⟨← (← d.get? "source_document").toText?, ← (← d.get? "validation_date").toText?,
    ← (← d.get? "source_root").toText?, ← Summary.ofDatum? (← d.get? "summary"), byCategory⟩

end Report
end DocClaims
