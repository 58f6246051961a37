import DocClaims.Pattern.Basic

/-!
# Searching for a pattern

A match at a place takes the first way to match, in the order in which runs
shrink and alternatives are listed. A search reports the leftmost match, then
goes on behind it.
-/

namespace DocClaims
namespace Pattern

/-- A place in a text: the character before it, what follows, and its offset. -/
structure Cursor where
  before : Option Char
  rest : List Char
  offset : Nat

def Cursor.start (text : List Char) : Cursor := ⟨none, text, 0⟩

/-- The place behind the next character `c`, before `rest`. -/
def Cursor.past (cur : Cursor) (c : Char) (rest : List Char) : Cursor :=
  ⟨some c, rest, cur.offset + 1⟩

structure Span where
  start : Cursor
  finish : Cursor

def Span.text (span : Span) : List Char :=
  span.start.rest.take (span.finish.offset - span.start.offset)

/-- One side is a word character and the other is none. -/
def Cursor.atBoundary (cur : Cursor) : Bool :=
  (cur.before.map Text.isWordChar).getD false != (cur.rest.head?.map Text.isWordChar).getD false

section

variable {γ : Type}

def literalThen : List Char → Cursor → (Cursor → Option γ) → Option γ
  | [], cur, next => next cur
  | d :: ds, cur, next =>
      match cur.rest with
      | c :: rest => if c == d then literalThen ds (cur.past c rest) next else none
      | [] => none

/-- Takes as many members of `set` as `next` allows, and no fewer than `least`. -/
def runThen (set : CharSet) (least : Nat) (before : Option Char) (offset : Nat)
    (next : Cursor → Option γ) : List Char → Option γ
  | [] => if least == 0 then next ⟨before, [], offset⟩ else none
  | c :: rest =>
      let here := if least == 0 then next ⟨before, c :: rest, offset⟩ else none
      if set.has c then
        match runThen set (least - 1) (some c) (offset + 1) next rest with
        | some found => some found
        | none => here
      else here

/-- Matches the pattern at `cur` and hands the place behind it, with the value
marked so far, to `next`; takes another way when `next` refuses. -/
def matchThen : Pattern → Cursor → Option Span → (Cursor → Option Span → Option γ) → Option γ
  | literal s, cur, value, next => literalThen s.toList cur (next · value)
  | one set, cur, value, next =>
      match cur.rest with
      | c :: rest => if set.has c then next (cur.past c rest) value else none
      | [] => none
  | run least set, cur, value, next =>
      runThen set least cur.before cur.offset (next · value) cur.rest
  | seq p q, cur, value, next =>
      matchThen p cur value fun cur value => matchThen q cur value next
  | either p q, cur, value, next =>
      match matchThen p cur value next with
      | some found => some found
      | none => matchThen q cur value next
  | optional p, cur, value, next =>
      match matchThen p cur value next with
      | some found => some found
      | none => next cur value
  | group p, cur, value, next =>
      matchThen p cur value fun finish _ => next finish (some ⟨cur, finish⟩)
  | boundary, cur, value, next => if cur.atBoundary then next cur value else none

end

/-- A match: its value, which is the whole match unless a group marks it, and
the place behind it. -/
structure Match where
  value : List Char
  finish : Cursor

def matchAt (p : Pattern) (cur : Cursor) : Option Match :=
  p.matchThen cur none fun finish value => some ⟨(value.getD ⟨cur, finish⟩).text, finish⟩

/-- The values of the matches from `cur` on, left to right and not overlapping. -/
def valuesFrom (p : Pattern) (cur : Cursor) : List (List Char) :=
  match p.matchAt cur with
  | some m =>
      if m.finish.rest.length < cur.rest.length then m.value :: valuesFrom p m.finish
      else
        match _h : cur.rest with
        | [] => []
        | c :: rest => valuesFrom p (cur.past c rest)
  | none =>
      match _h : cur.rest with
      | [] => []
      | c :: rest => valuesFrom p (cur.past c rest)
termination_by cur.rest.length
decreasing_by all_goals simp_all [Cursor.past]

def values (p : Pattern) (text : List Char) : List (List Char) := p.valuesFrom (Cursor.start text)

end Pattern
end DocClaims
