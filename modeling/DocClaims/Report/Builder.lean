import DocClaims.Report.Basic

/-!
# Building reports

Verdicts are recorded one by one, in any order. The finished report lists the
entries of each category by claim, entries with equal claims in the order in
which they were recorded.
-/

namespace DocClaims

namespace Summary

def record (s : Summary) (v : Verdict) : Summary :=
  let s := { s with totalClaims := s.totalClaims + 1, confidence := s.confidence.add v.confidence }
  match v.status with
  | .found => { s with validated := s.validated + 1, found := s.found + 1 }
  | .notFound => { s with validated := s.validated + 1, notFound := s.notFound + 1 }
  | .notValidated => { s with notValidated := s.notValidated + 1 }

end Summary

namespace Breakdown

/-- The newest entry comes first until the breakdown is finished. -/
def record (b : Breakdown) (v : Verdict) : Breakdown :=
  let b := { b with total := b.total + 1, results := .ofVerdict v :: b.results }
  match v.status with
  | .found => { b with found := b.found + 1 }
  | .notFound => { b with notFound := b.notFound + 1 }
  | .notValidated => { b with notValidated := b.notValidated + 1 }

def finish (b : Breakdown) : Breakdown :=
  { b with results := b.results.reverse.mergeSort fun x y => x.claim ≤ y.claim }

end Breakdown

structure ReportBuilder where
  sourceDocument : String
  validationDate : String
  sourceRoot : String
  summary : Summary
  byCategory : PerCategory Breakdown

namespace ReportBuilder

def start (sourceDocument validationDate sourceRoot : String) : ReportBuilder :=
  ⟨sourceDocument, validationDate, sourceRoot, .zero, .replicate .zero⟩

def record (b : ReportBuilder) (v : Verdict) : ReportBuilder :=
  { b with
    summary := b.summary.record v
    byCategory := b.byCategory.modify v.claim.category (·.record v) }

def recordAll (b : ReportBuilder) (verdicts : List Verdict) : ReportBuilder :=
  verdicts.foldl record b

def finish (b : ReportBuilder) : Report :=
  ⟨b.sourceDocument, b.validationDate, b.sourceRoot, b.summary,
    b.byCategory.map fun x => some x.finish⟩

end ReportBuilder

def Report.ofVerdicts (sourceDocument validationDate sourceRoot : String)
    (verdicts : List Verdict) : Report :=
  ((ReportBuilder.start sourceDocument validationDate sourceRoot).recordAll verdicts).finish

end DocClaims
