/-!
# Lines and occurrences

A text is a sequence of lines ended by a line feed, or by a carriage return and
a line feed; the last line needs no end.
-/

namespace DocClaims
namespace Text

/-- A line, held in reverse, without the carriage return before its line feed. -/
def dropReturn : List Char → List Char
  | '\r' :: line => line
  | line => line

/-- The lines of what follows, when `line` (in reverse) has been read of the
first of them. -/
def linesFrom (line : List Char) : List Char → List (List Char)
  | [] => if line.isEmpty then [] else [line.reverse]
  | c :: rest =>
      if c == '\n' then (dropReturn line).reverse :: linesFrom [] rest
      else linesFrom (c :: line) rest

def lines (cs : List Char) : List (List Char) := linesFrom [] cs

def occursIn (pattern : List Char) : List Char → Bool
  | [] => pattern.isEmpty
  | c :: rest => pattern.isPrefixOf (c :: rest) || occursIn pattern rest

theorem occursIn_iff {pattern cs : List Char} : occursIn pattern cs ↔ pattern <:+: cs := by
  induction cs with
  | nil => rw [occursIn, List.isEmpty_iff, List.infix_nil]
  | cons c rest ih =>
      rw [occursIn, Bool.or_eq_true, List.isPrefixOf_iff_prefix, ih, List.infix_cons_iff]

def contains (s pattern : String) : Bool := occursIn pattern.toList s.toList

theorem contains_iff {s pattern : String} : contains s pattern ↔ pattern.toList <:+: s.toList :=
  occursIn_iff

end Text
end DocClaims
