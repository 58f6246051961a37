import DocClaims.Claim
import DocClaims.Search.Hit

/-!
# Verdicts

What checking a claim against a source tree gives: a status, how much it can be
trusted, and the lines that show it.
-/

namespace DocClaims

inductive Status
  | found
  | notFound
  | notValidated
  deriving DecidableEq, Repr

namespace Status

def all : List Status := [found, notFound, notValidated]

def name : Status → String
  | found => "found"
  | notFound => "not_found"
  | notValidated => "not_validated"

def ofName? (s : String) : Option Status := all.find? (·.name == s)

end Status

inductive Confidence
  | high
  | medium
  | low
  deriving DecidableEq, Repr

namespace Confidence

def all : List Confidence := [high, medium, low]

def name : Confidence → String
  | high => "high"
  | medium => "medium"
  | low => "low"

def ofName? (s : String) : Option Confidence := all.find? (·.name == s)

end Confidence

structure Verdict where
  claim : Claim
  status : Status
  confidence : Confidence
  evidence : List Hit
  notes : String
  deriving DecidableEq, Repr

namespace Verdict

def found (claim : Claim) (confidence : Confidence) (evidence : List Hit) (notes : String) :
    Verdict :=
  ⟨claim, .found, confidence, evidence, notes⟩

def notFound (claim : Claim) (confidence : Confidence) (notes : String) : Verdict :=
  ⟨claim, .notFound, confidence, [], notes⟩

def notValidated (claim : Claim) : Verdict :=
  ⟨claim, .notValidated, .low, [],
    "Automated validation not supported for " ++ claim.category.label⟩

def isFound (v : Verdict) : Bool := v.status == .found

end Verdict
end DocClaims
