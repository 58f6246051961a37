import DocClaims.Search.Backend
import DocClaims.Search.Grep
import DocClaims.Search.Program
import DocClaims.Search.Ripgrep
import DocClaims.Search.Walk

/-!
# Searchers

A searcher answers queries under a name. Each backend makes one from what a
search can reach: the files, the installed programs and the clock.
-/

namespace DocClaims

structure Searcher where
  name : String
  ask : Query → Except NoReturn Answer
  invocation? : Query → Option Invocation

structure Surroundings where
  files : FileTree
  program? : String → Option Program
  clock : Clock

namespace Backend

def invocation? (extensions : Extensions) (q : Query) : Backend → Option Invocation
  | ripgrep => some ⟨Ripgrep.program, Ripgrep.arguments (extensions.globs q.fileClass) q⟩
  | grep => some ⟨Grep.program, Grep.arguments (extensions.globs q.fileClass) q⟩
  | walk => none

def parse (root : Text.Bytes) (output : Text.Bytes) : Backend → Except String (List Hit)
  | ripgrep => (Ripgrep.parse root output).mapError Ripgrep.Fault.message
  | grep => (Grep.parse root output).mapError Grep.Fault.message
  | walk => .ok []

def ask (s : Surroundings) (extensions : Extensions) (limit : Nat) (b : Backend) (q : Query) :
    Except NoReturn Answer :=
  match b.invocation? extensions q with
  | none => Walk.search s.files s.clock extensions limit q
  | some invocation =>
      match s.program? invocation.program with
      | none => .ok (.error (.notInstalled b.name))
      | some p => do
          let output ← (p.start invocation).finish b.name limit
          return output.bind (·.answer b.name (b.parse q.root))

/-- The searcher that has `limit` nanoseconds for a query. -/
def searcher (s : Surroundings) (extensions : Extensions) (limit : Nat) (b : Backend) : Searcher :=
  ⟨b.name, b.ask s extensions limit, fun q => b.invocation? extensions q⟩

end Backend
end DocClaims
