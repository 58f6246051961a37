import DocClaims.Data.Datum
import DocClaims.Number.Decimal
import DocClaims.Text.Quoted

/-!
# Writing data as JSON

Nested values stand on lines of their own, indented by two spaces for each
level.
-/

namespace DocClaims
namespace Json

def escapeLetters : List (Nat × Char) :=
  [(8, 'b'), (9, 't'), (10, 'n'), (12, 'f'), (13, 'r'), (34, '"'), (92, '\\')]

def escape (c : Char) : List Char :=
  match escapeLetters.lookup c.toNat with
  | some letter => ['\\', letter]
  | none =>
      if c.toNat < 32 then
        ['\\', 'u', '0', '0', Text.hexDigit (c.toNat / 16), Text.hexDigit (c.toNat % 16)]
      else [c]

def quotedText (s : String) : List Char := ['"'] ++ s.toList.flatMap escape ++ ['"']

def newline (level : Nat) : List Char := '\n' :: List.replicate (2 * level) ' '

mutual

def value (level : Nat) : Datum → List Char
  | .null => "null".toList
  | .flag b => (if b then "true" else "false").toList
  | .integer n => (toString n).toList
  | .real negative x =>
      (if negative then ['-'] else []) ++ (Number.Decimal.shortest x).scientific.toList
  | .text s => quotedText s
  | .list [] => ['[', ']']
  | .list (d :: ds) =>
      '[' :: newline (level + 1) ++ value (level + 1) d ++ laterItems (level + 1) ds ++
        newline level ++ [']']
  | .table [] => ['\x7b', '\x7d']
  | .table (e :: es) =>
      '\x7b' :: newline (level + 1) ++ entry (level + 1) e ++ laterEntries (level + 1) es ++
        newline level ++ ['\x7d']

def laterItems (level : Nat) : List Datum → List Char
  | [] => []
  | d :: ds => ',' :: newline level ++ value level d ++ laterItems level ds

def entry (level : Nat) : String × Datum → List Char
  | (key, d) => quotedText key ++ [':', ' '] ++ value level d

def laterEntries (level : Nat) : List (String × Datum) → List Char
  | [] => []
  | e :: es => ',' :: newline level ++ entry level e ++ laterEntries level es

end

def write (d : Datum) : String := String.ofList (value 0 d)

end Json
end DocClaims
