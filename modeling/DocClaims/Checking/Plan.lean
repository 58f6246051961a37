import DocClaims.Search.Chain
import DocClaims.Verdict

/-!
# Search plans

How a claim is searched for: the text that shows it, the classes of files that
are searched one after the other, and what may be concluded from hits or from
their absence.
-/

namespace DocClaims

structure SearchPlan where
  pattern : String
  classes : List FileClass
  presence : Confidence
  absence : Confidence
  evidence : Nat
  absenceNotes : String
  deriving DecidableEq, Repr

/-- A query and what came of it. -/
structure Search where
  query : Query
  outcome : SearchOutcome
  deriving DecidableEq, Repr

/-- A verdict and the searches made for it, in order. -/
structure Check where
  verdict : Verdict
  searches : List Search
  deriving DecidableEq, Repr

def Check.ofVerdict (v : Verdict) : Check := ⟨v, []⟩

namespace SearchPlan

def ofMethod (name : String) : SearchPlan :=
  ⟨"function " ++ name, [.source], .medium, .medium, 5, "No method definition found"⟩

def ofEvent (name : String) : SearchPlan :=
  ⟨name, [.markup, .source], .high, .high, 5, "Event not declared or dispatched"⟩

def ofTable (name : String) : SearchPlan :=
  ⟨name, [.any], .high, .medium, 3, "Table not referenced"⟩

def ofAclResource (name : String) : SearchPlan :=
  ⟨name, [.markup], .high, .medium, 3, "ACL resource not declared"⟩

/-- A type that is not declared where it should be. -/
def ofType (marker absenceNotes : String) : SearchPlan :=
  ⟨marker, [.source], .medium, .high, 3, absenceNotes⟩

/-- Searches one class after the other until there are hits. -/
def searchesIn (chain : SearchChain) (root : Text.Bytes) (pattern : String) :
    List FileClass → Except NoReturn (List Search)
  | [] => .ok []
  | c :: classes => do
      let query : Query := ⟨pattern, root, c⟩
      let outcome ← chain.search query
      if outcome.hits.isEmpty then
        return ⟨query, outcome⟩ :: (← searchesIn chain root pattern classes)
      else return [⟨query, outcome⟩]

/-- What the searches show. Without an answer the absence of hits means little. -/
def verdict (plan : SearchPlan) (claim : Claim) (searches : List Search) : Verdict :=
  match searches.find? fun s => !s.outcome.hits.isEmpty with
  | some s =>
      .found claim plan.presence (s.outcome.hits.take plan.evidence)
        ("Found " ++ toString s.outcome.hits.length ++ " occurrences")
  | none =>
      match searches.findSome? (·.outcome.reason?) with
      | some reason =>
          .notFound claim .low (plan.absenceNotes ++ "; search unavailable: " ++ reason)
      | none => .notFound claim plan.absence plan.absenceNotes

def carryOut (plan : SearchPlan) (chain : SearchChain) (root : Text.Bytes) (claim : Claim) :
    Except NoReturn Check := do
  let searches ← searchesIn chain root plan.pattern plan.classes
  return ⟨plan.verdict claim searches, searches⟩

end SearchPlan
end DocClaims
