import DocClaims.Number.Literal
import DocClaims.Yaml.Fault
import DocClaims.Yaml.Style

/-!
# Reading scalars

The text of a scalar in each of the styles. A scalar may go over several lines:
a single break between two lines counts as a space, further breaks count as
themselves. A carriage return before a line feed counts as part of it.
-/

namespace DocClaims
namespace Yaml

/-- What is left of a text, and where it begins. -/
structure Cursor where
  place : Place
  rest : List Char

namespace Cursor

def forward (c : Cursor) (n : Nat) : Cursor := ⟨c.place.forward n, c.rest.drop n⟩

/-- The leading characters of a kind, none of them a break, and what follows. -/
def span (c : Cursor) (kind : Char → Bool) : List Char × Cursor :=
  let taken := c.rest.takeWhile kind
  (taken, c.forward taken.length)

/-- Behind the characters of a kind, none of them a break. -/
def skip (c : Cursor) (kind : Char → Bool) : Cursor := (c.span kind).2

def skipBreak (c : Cursor) : Cursor :=
  match c.rest with
  | '\r' :: '\n' :: rest => ⟨c.place.silent.newLine, rest⟩
  | b :: rest => if isBreak b then ⟨c.place.newLine, rest⟩ else c
  | [] => c

end Cursor

def isSilent (c : Char) (rest : List Char) : Bool := c == '\r' && rest.head? == some '\n'

def breakText (c : Char) : Char := if c.toNat == 0x2028 || c.toNat == 0x2029 then c else '\n'

/-- Three dashes or dots that end or begin a document. -/
def atDocumentMark (cs : List Char) : Bool :=
  ("---".toList.isPrefixOf cs || "...".toList.isPrefixOf cs) && endsWord (cs.drop 3)

/-! ### Between the words of a scalar -/

/-- Blanks and breaks that have been passed, latest first. Blanks count only as
long as there is no break. -/
structure Gap where
  blanks : List Char
  breaks : List Char
  broken : Bool
  /-- The first break was written behind a backslash and does not count. -/
  escaped : Bool

namespace Gap

def none : Gap := ⟨[], [], false, false⟩

def behindEscape : Gap := ⟨[], [], true, true⟩

def isEmpty (g : Gap) : Bool := g.blanks.isEmpty && !g.broken

def blank (g : Gap) (c : Char) : Gap := if g.broken then g else { g with blanks := c :: g.blanks }

def newLine (g : Gap) (c : Char) : Gap :=
  { g with blanks := [], breaks := breakText c :: g.breaks, broken := true }

/-- A first line feed alone is a space; with more breaks it is dropped. -/
def folded : List Char → List Char
  | ['\n'] => [' ']
  | '\n' :: more => more
  | breaks => breaks

def text (g : Gap) : List Char :=
  if !g.broken then g.blanks.reverse
  else if g.escaped then g.breaks.reverse
  else folded g.breaks.reverse

end Gap

/-! ### Without quotes -/

/-- The text of a plain scalar, and whether a break came behind it. -/
structure PlainText where
  text : List Char
  broken : Bool
  after : Cursor

def isFlowIndicator (c : Char) : Bool :=
  c == ',' || c == '[' || c == ']' || c == '\x7b' || c == '\x7d'

/-- The scalar ends at `c` because of the gap before it. -/
def endsBehindGap (flow : Bool) (indent : Nat) (place : Place) (c : Char) (rest : List Char) :
    Bool :=
  (!flow && place.column < indent) || (place.column == 0 && atDocumentMark (c :: rest)) || c == '#'

/-- The scalar ends at `c` because of what `c` means. -/
def endsAt (flow : Bool) (c : Char) (rest : List Char) : Bool :=
  (c == ':' && endsWord rest) || (flow && isFlowIndicator c)

/-- Reads on in a scalar whose text so far is `out`, in reverse. Inside brackets
(`flow`) more characters end it; outside, its lines stand at column `indent` or
behind. -/
def plainFrom (flow : Bool) (indent : Nat) (start : Place) (out : List Char) (gap : Gap)
    (place : Place) : List Char → Except Fault PlainText
  | [] => .ok ⟨out.reverse, gap.broken, ⟨place, []⟩⟩
  | c :: rest =>
      if isSilent c rest then plainFrom flow indent start out gap place.silent rest
      else if isBreak c then plainFrom flow indent start out (gap.newLine c) place.newLine rest
      else if isGap c then
        if gap.broken && place.column < indent && c == '\t' then
          .error (.interrupted .tabBelowIndentation place .plainScalar start)
        else plainFrom flow indent start out (gap.blank c) place.next rest
      else if !gap.isEmpty && endsBehindGap flow indent place c rest then
        .ok ⟨out.reverse, gap.broken, ⟨place, c :: rest⟩⟩
      else if flow && c == ':' && rest.head?.any (fun d => isFlowIndicator d || d == '?') then
        .error (.interrupted .unexpectedColon place .plainScalar start)
      else if endsAt flow c rest then .ok ⟨out.reverse, gap.broken, ⟨place, c :: rest⟩⟩
      else plainFrom flow indent start (c :: (gap.text.reverse ++ out)) .none place.next rest

/-! ### Between quotes -/

/-- Reads on between single quotes; `quote` tells that a quote has just been
read. -/
def singleFrom (start : Place) (out : List Char) (gap : Gap) (quote : Bool) (place : Place) :
    List Char → Except Fault (List Char × Cursor)
  | [] =>
      if quote then .ok (out.reverse, ⟨place, []⟩)
      else .error (.interrupted .unfinished place .quotedScalar start)
  | c :: rest =>
      if quote then
        if c == '\'' then singleFrom start (c :: out) .none false place.next rest
        else .ok (out.reverse, ⟨place, c :: rest⟩)
      else if isSilent c rest then singleFrom start out gap false place.silent rest
      else if isBreak c then singleFrom start out (gap.newLine c) false place.newLine rest
      else if isGap c then singleFrom start out (gap.blank c) false place.next rest
      else if place.column == 0 && atDocumentMark (c :: rest) then
        .error (.interrupted .documentMark place .quotedScalar start)
      else if c == '\'' then singleFrom start (gap.text.reverse ++ out) .none true place.next rest
      else singleFrom start (c :: (gap.text.reverse ++ out)) .none false place.next rest

/-- Letters behind a backslash, and the characters they stand for. -/
def escapedChars : List (Char × Nat) :=
  [('0', 0), ('a', 7), ('b', 8), ('t', 9), ('\t', 9), ('n', 10), ('v', 11), ('f', 12), ('r', 13),
    ('e', 27), (' ', 32), ('"', 34), ('/', 47), ('\\', 92), ('N', 0x85), ('_', 0xA0), ('L', 0x2028),
    ('P', 0x2029)]

/-- How many hexadecimal digits follow a letter behind a backslash. -/
def hexPlaces : Char → Nat
  | 'x' => 2
  | 'u' => 4
  | 'U' => 8
  | _ => 0

inductive EscapeState
  | none
  | backslash (place : Place)
  /-- So many digits are still to come; the first stood at this place. -/
  | hex (places value : Nat) (place : Place)

def isCodePoint (n : Nat) : Bool := n < 0xD800 || (0xDFFF < n && n < 0x110000)

def doubleFrom (start : Place) (out : List Char) (gap : Gap) (state : EscapeState)
    (place : Place) : List Char → Except Fault (List Char × Cursor)
  | [] =>
      match state with
      | .none => .error (.interrupted .unfinished place .quotedScalar start)
      | .backslash p => .error (.interrupted .unknownEscape p .escape start)
      | .hex _ _ p => .error (.interrupted .badHex p .escape start)
  | c :: rest =>
      match state with
      | .hex places value p =>
          if 16 ≤ Number.digitValue c then .error (.interrupted .badHex p .escape start)
          else
            let value := value * 16 + Number.digitValue c
            if 1 < places then
              doubleFrom start out .none (.hex (places - 1) value p) place.next rest
            else if isCodePoint value then
              doubleFrom start (Char.ofNat value :: out) .none .none place.next rest
            else .error (.interrupted .badCodePoint p .escape start)
      | .backslash p =>
          if isSilent c rest then doubleFrom start out gap state place.silent rest
          else if isBreak c then doubleFrom start out .behindEscape .none place.newLine rest
          else
            match escapedChars.lookup c with
            | some n => doubleFrom start (Char.ofNat n :: out) .none .none place.next rest
            | none =>
                if hexPlaces c == 0 then .error (.interrupted .unknownEscape p .escape start)
                else doubleFrom start out .none (.hex (hexPlaces c) 0 place.next) place.next rest
      | .none =>
          if isSilent c rest then doubleFrom start out gap .none place.silent rest
          else if isBreak c then doubleFrom start out (gap.newLine c) .none place.newLine rest
          else if isGap c then doubleFrom start out (gap.blank c) .none place.next rest
          else if place.column == 0 && atDocumentMark (c :: rest) then
            .error (.interrupted .documentMark place .quotedScalar start)
          else if c == '"' then .ok ((gap.text.reverse ++ out).reverse, ⟨place.next, rest⟩)
          else if c == '\\' then
            doubleFrom start (gap.text.reverse ++ out) .none (.backslash place) place.next rest
          else doubleFrom start (c :: (gap.text.reverse ++ out)) .none .none place.next rest

/-! ### On lines of its own -/

inductive Chomping
  | strip
  | clip
  | keep
  deriving DecidableEq, Repr

/-- A block scalar that has been read in part. -/
structure Block where
  /-- The column of its lines; zero as long as no line has shown it. -/
  indent : Nat
  /-- The widest of the lines of spaces before the first line. -/
  widest : Nat
  /-- The text in reverse, up to the last line. -/
  out : List Char
  lastBreak : List Char
  /-- The breaks of blank lines behind it, in reverse. -/
  blankLines : List Char
  blankStart : Bool

namespace Block

/-- The breaks before a line that begins with `c` join the text. -/
def startLine (b : Block) (folded : Bool) (c : Char) : Block :=
  let breaks :=
    if folded && b.lastBreak == ['\n'] && !b.blankStart && !isGap c then
      if b.blankLines.isEmpty then [' '] else b.blankLines
    else b.blankLines ++ b.lastBreak
  { b with out := breaks ++ b.out, lastBreak := [], blankLines := [], blankStart := isGap c }

def text (b : Block) : Chomping → List Char
  | .strip => b.out.reverse
  | .clip => (b.lastBreak ++ b.out).reverse
  | .keep => (b.blankLines ++ (b.lastBreak ++ b.out)).reverse

/-- The column of the lines, known at the latest when one of them begins. -/
def column (b : Block) (least widest : Nat) : Nat :=
  if b.indent == 0 then max widest least else b.indent

end Block

/-- Reads on in a block scalar whose lines stand at column `least` or behind;
`inLine` tells that a line has begun. -/
def blockFrom (folded : Bool) (least : Nat) (start : Place) (b : Block) (inLine : Bool)
    (place : Place) : List Char → Except Fault (Block × Cursor)
  | [] => .ok (b, ⟨place, []⟩)
  | c :: rest =>
      if isSilent c rest then blockFrom folded least start b inLine place.silent rest
      else if inLine then
        if isBreak c then
          let b := { b with lastBreak := [breakText c] }
          blockFrom folded least start b false place.newLine rest
        else blockFrom folded least start { b with out := c :: b.out } true place.next rest
      else
        let early := b.indent == 0 || place.column < b.indent
        if c == ' ' && early then blockFrom folded least start b false place.next rest
        else
          let widest := max b.widest place.column
          if c == '\t' && early then
            .error (.interrupted .tabInIndentation place .blockScalar start)
          else if isBreak c then
            blockFrom folded least start
              { b with widest := widest, blankLines := breakText c :: b.blankLines } false
              place.newLine rest
          else if place.column == b.column least widest then
            let b := { b with indent := b.column least widest }.startLine folded c
            blockFrom folded least start { b with out := c :: b.out } true place.next rest
          else .ok (b, ⟨place, c :: rest⟩)

end Yaml
end DocClaims
