import DocClaims.Config.Basic
import DocClaims.Search.Searcher

/-!
# Search chains

A query goes to the searchers of a chain in order, until one answers. An answer
without hits is an answer too.
-/

namespace DocClaims

/-- The failures before the answer, in order, and the answer if there is one. -/
structure SearchOutcome where
  failures : List SearchFailure
  answer : Option (List Hit)
  deriving DecidableEq, Repr

namespace SearchOutcome

def hits (o : SearchOutcome) : List Hit := o.answer.getD []

def isAnswered (o : SearchOutcome) : Bool := o.answer.isSome

/-- Why nothing was searched, if nothing was. -/
def reason? (o : SearchOutcome) : Option String :=
  if o.isAnswered then none
  else if o.failures.isEmpty then some "no search backends configured"
  else some (String.intercalate "; " (o.failures.map SearchFailure.message))

def asked (o : SearchOutcome) : Nat := o.failures.length + (if o.isAnswered then 1 else 0)

end SearchOutcome

structure SearchChain where
  searchers : List Searcher

/-- Asks one after the other, in whatever way that is done, until one answers; `failures` are
those before, in reverse. -/
def consultFrom {α : Type} {m : Type → Type} [Monad m] (ask : α → Query → m Answer) (q : Query)
    (failures : List SearchFailure) : List α → m SearchOutcome
  | [] => pure ⟨failures.reverse, none⟩
  | x :: xs => do
      match ← ask x q with
      | .ok hits => return ⟨failures.reverse, some hits⟩
      | .error failure => consultFrom ask q (failure :: failures) xs

namespace SearchChain

def search (chain : SearchChain) (q : Query) : Except NoReturn SearchOutcome :=
  consultFrom Searcher.ask q [] chain.searchers

def names (chain : SearchChain) : List String := chain.searchers.map Searcher.name

def asked (chain : SearchChain) (o : SearchOutcome) : List Searcher := chain.searchers.take o.asked

structure UnknownBackend where
  name : String
  deriving DecidableEq, Repr

def UnknownBackend.message (u : UnknownBackend) : String := Backend.unknownMessage u.name

def backendNamed (name : String) : Except UnknownBackend Backend :=
  match Backend.ofName? name with
  | some b => .ok b
  | none => .error ⟨name⟩

/-- The chain of the configured backends, or of those in `overrides` if there are
any. -/
def ofSettings (s : Surroundings) (settings : SearchSettings) (overrides : List String) :
    Except UnknownBackend SearchChain := do
  let backends ← (if overrides.isEmpty then settings.backends else overrides).mapM backendNamed
  let extensions : Extensions := ⟨settings.sourceExtensions, settings.markupExtensions⟩
  let limit := settings.timeoutSecs * nanosecondsInSecond
  return ⟨backends.map (Backend.searcher s extensions limit)⟩

end SearchChain
end DocClaims
