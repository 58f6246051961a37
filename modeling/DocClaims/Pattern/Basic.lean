import DocClaims.Text.Blank
import DocClaims.Text.WordChar

/-!
# Lexical patterns

Patterns over characters: literals, single characters and greedy runs of a
character class, sequences, ordered choices, word boundaries, and one group
that marks the value of a match. Each pattern has a written form.
-/

namespace DocClaims

inductive CharSet.Item
  | range (first last : Char)
  | one (c : Char)

inductive CharSet
  | blank
  | oneOf (items : List CharSet.Item)
  | noneOf (items : List CharSet.Item)

namespace CharSet

def Item.has (c : Char) : Item → Bool
  | .range first last => first ≤ c && c ≤ last
  | .one d => c == d

def has (c : Char) : CharSet → Bool
  | .blank => Text.isBlank c
  | .oneOf items => items.any (·.has c)
  | .noneOf items => !items.any (·.has c)

def escaped (c : Char) : String :=
  if ['\\', '(', ')', '.'].contains c then String.ofList ['\\', c] else c.toString

def Item.written : Item → String
  | .range first last => first.toString ++ "-" ++ last.toString
  | .one c => if c == '\\' then "\\\\" else c.toString

def written : CharSet → String
  | .blank => "\\s"
  | .oneOf items => "[" ++ String.join (items.map Item.written) ++ "]"
  | .noneOf items => "[^" ++ String.join (items.map Item.written) ++ "]"

end CharSet

inductive Pattern
  | literal (s : String)
  | one (set : CharSet)
  /-- A run of at least `least` members of `set`, as long as the rest allows. -/
  | run (least : Nat) (set : CharSet)
  | seq (p q : Pattern)
  /-- Either alternative, the first one preferred. -/
  | either (p q : Pattern)
  /-- The pattern if the rest allows it, else nothing. -/
  | optional (p : Pattern)
  | group (p : Pattern)
  | boundary

namespace Pattern

instance : Append Pattern := ⟨seq⟩

/-- The written form; `nested` tells that other patterns stand beside this one. -/
def writtenIn (nested : Bool) : Pattern → String
  | literal s => String.join (s.toList.map CharSet.escaped)
  | one set => set.written
  | run least set => set.written ++ (if least == 0 then "*" else "+")
  | seq p q => writtenIn true p ++ writtenIn true q
  | either p q =>
      let body := writtenIn false p ++ "|" ++ writtenIn false q
      if nested then "(?:" ++ body ++ ")" else body
  | optional p => "(?:" ++ writtenIn false p ++ ")?"
  | group p => "(" ++ writtenIn false p ++ ")"
  | boundary => "\\b"

def written (p : Pattern) : String := writtenIn false p

end Pattern
end DocClaims
