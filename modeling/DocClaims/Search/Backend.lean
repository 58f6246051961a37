import DocClaims.Text.LetterCase

/-!
# Search backends

Three ways to search a tree for a text: two external tools, and a walk that
needs none.
-/

namespace DocClaims

inductive Backend
  | ripgrep
  | grep
  | walk
  deriving DecidableEq, Repr

namespace Backend

def name : Backend → String
  | ripgrep => "ripgrep"
  | grep => "grep"
  | walk => "walk"

/-- Names are read without regard to letter case. -/
def ofName? (s : String) : Option Backend :=
  match Text.lower s with
  | "ripgrep" | "rg" => some ripgrep
  | "grep" => some grep
  | "walk" => some walk
  | _ => none

def unknownMessage (s : String) : String :=
  "unknown backend '" ++ Text.lower s ++ "' (expected ripgrep, grep or walk)"

end Backend
end DocClaims
