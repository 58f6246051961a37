import DocClaims.Number.Decimal
import DocClaims.Yaml.Style

/-!
# Writing data as YAML

Tables and lists are written in block form with two spaces for each level; a
list that is the value of a key stands at the column of the key. Lines are never
folded.
-/

namespace DocClaims
namespace Yaml

def spaces (n : Nat) : List Char := List.replicate n ' '

/-- The text of a scalar of several lines: behind a break, `indent` spaces come
first. -/
def indented (indent : Nat) (write : Char → List Char) (fresh : Bool) (cs : List Char) :
    List Char :=
  (cs.zip (fresh :: cs.map isBreak)).flatMap fun (c, fresh) =>
    if isBreak c then [c] else (if fresh then spaces indent else []) ++ write c

def doubleQuote (c : Char) : List Char := if c == '\'' then ['\'', '\''] else [c]

def singleQuoted (indent : Nat) (cs : List Char) : List Char :=
  ['\''] ++ indented indent doubleQuote false cs ++
    (if cs.getLast?.any isBreak then spaces indent else []) ++ ['\'']

def upperHexDigit (n : Nat) : Char := if n < 10 then Char.ofNat (48 + n) else Char.ofNat (55 + n)

def upperHex : Nat → Nat → List Char
  | 0, _ => []
  | places + 1, n => upperHex places (n / 16) ++ [upperHexDigit (n % 16)]

def escapeLetters : List (Nat × Char) :=
  [(0, '0'), (7, 'a'), (8, 'b'), (9, 't'), (10, 'n'), (11, 'v'), (12, 'f'), (13, 'r'), (27, 'e'),
    (34, '"'), (92, '\\'), (0x85, 'N'), (0xA0, '_'), (0x2028, 'L'), (0x2029, 'P')]

def escape (c : Char) : List Char :=
  let n := c.toNat
  if !isPrintable c || isBreak c || c == '"' || c == '\\' then
    match escapeLetters.lookup n with
    | some letter => ['\\', letter]
    | none =>
        if n < 0x100 then '\\' :: 'x' :: upperHex 2 n
        else if n < 0x10000 then '\\' :: 'u' :: upperHex 4 n
        else '\\' :: 'U' :: upperHex 8 n
  else [c]

def doubleQuoted (cs : List Char) : List Char := ['"'] ++ cs.flatMap escape ++ ['"']

/-- Whether the final breaks of a block are dropped, kept as they are, or
counted as one. -/
def chomping (cs : List Char) : List Char :=
  match cs.reverse with
  | [] => ['-']
  | last :: others =>
      if !isBreak last then ['-']
      else if others.isEmpty || others.head?.any isBreak then ['+']
      else []

def literalBlock (indent : Nat) (cs : List Char) : List Char :=
  ['|'] ++ (if cs.head?.any (fun c => isSpace c || isBreak c) then ['2'] else []) ++ chomping cs ++
    ['\n'] ++ indented indent (fun c => [c]) true cs

/-- A scalar behind a key or a dash, up to the end of its last line. -/
def scalarLine (indent : Nat) (s : String) : List Char :=
  let cs := s.toList
  match Style.ofText s with
  | .plain => cs ++ ['\n']
  | .single => singleQuoted indent cs ++ ['\n']
  | .double => doubleQuoted cs ++ ['\n']
  | _ => literalBlock indent cs ++ (if cs.getLast?.any isBreak then [] else ['\n'])

def atom? : Datum → Option String
  | .null => some "null"
  | .flag b => some (if b then "true" else "false")
  | .integer n => some (toString n)
  | .real negative x =>
      some ((if negative then "-" else "") ++ (Number.Decimal.shortest x).scientific)
  | .list [] => some "[]"
  | .table [] => some "\x7b\x7d"
  | _ => none

mutual

/-- What follows the colon of a key whose column is `indent`. -/
def afterKey (indent : Nat) : Datum → List Char
  | .text s => ' ' :: scalarLine (indent + 2) s
  | .list (d :: ds) => '\n' :: (item indent d ++ items indent ds)
  | .table (e :: es) =>
      '\n' :: (spaces (indent + 2) ++ entry (indent + 2) e ++ entries (indent + 2) es)
  | d => (' ' :: ((atom? d).getD "").toList) ++ ['\n']

/-- A list item whose dash is at column `indent`. -/
def item (indent : Nat) (d : Datum) : List Char :=
  spaces indent ++ ('-' :: ' ' :: afterDash indent d)

def afterDash (indent : Nat) : Datum → List Char
  | .text s => scalarLine (indent + 2) s
  | .list (d :: ds) => '-' :: ' ' :: (afterDash (indent + 2) d ++ items (indent + 2) ds)
  | .table (e :: es) => entry (indent + 2) e ++ entries (indent + 2) es
  | d => ((atom? d).getD "").toList ++ ['\n']

def items (indent : Nat) : List Datum → List Char
  | [] => []
  | d :: ds => item indent d ++ items indent ds

/-- A key with its value; the line is already indented. -/
def entry (indent : Nat) : String × Datum → List Char
  | (key, d) => key.toList ++ ':' :: afterKey indent d

def entries (indent : Nat) : List (String × Datum) → List Char
  | [] => []
  | e :: es => spaces indent ++ entry indent e ++ entries indent es

end

def write : Datum → String
  | .table (e :: es) => String.ofList (entries 0 (e :: es))
  | .list (d :: ds) => String.ofList (items 0 (d :: ds))
  | .text s => String.ofList (scalarLine 2 s)
  | d => (atom? d).getD "" ++ "\n"

end Yaml
end DocClaims
