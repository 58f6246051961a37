import DocClaims.Glob.Basic

/-!
# Reading globs

Outside of classes a backslash takes the meaning from the character behind it.
Groups in braces may be nested; an empty option of a group counts for nothing.
-/

namespace DocClaims
namespace Glob

inductive Problem
  | unclosedClass
  | invalidRange (first last : Char)
  | unopenedGroup
  | unclosedGroup
  | danglingEscape
  deriving DecidableEq, Repr

structure Fault where
  glob : String
  problem : Problem
  deriving DecidableEq, Repr

def Problem.message : Problem → String
  | unclosedClass => "unclosed character class; missing ']'"
  | invalidRange first last =>
      "invalid range; '" ++ first.toString ++ "' > '" ++ last.toString ++ "'"
  | unopenedGroup =>
      "unopened alternate group; missing '\x7b' (maybe escape '\x7d' with '[\x7d]'?)"
  | unclosedGroup =>
      "unclosed alternate group; missing '\x7d' (maybe escape '\x7b' with '[\x7b]'?)"
  | danglingEscape => "dangling '\\'"

def Fault.message (f : Fault) : String :=
  "error parsing glob '" ++ f.glob ++ "': " ++ f.problem.message

/-! ### Classes -/

def bytesOf (c : Char) : Text.Bytes := Text.encode (String.singleton c)

/-- The bytes in a range of characters: those of either end, and those between
the last byte of the one and the first byte of the other. -/
def byteRanges (first last : Char) : List (UInt8 × UInt8) :=
  let single := fun (b : UInt8) => (b, b)
  if first == last then (bytesOf first).map single
  else
    match (bytesOf first).reverse, bytesOf last with
    | b :: before, b' :: after => (before.reverse.map single) ++ (b, b') :: after.map single
    | _, _ => []

/-- Reads ranges up to the closing bracket behind those of `ranges`, which are in
reverse; `inRange` says that a hyphen was read behind the last of them. -/
def readRanges (ranges : List (Char × Char)) (inRange : Bool) :
    List Char → Except Problem (List (Char × Char) × List Char)
  | [] => .error .unclosedClass
  | c :: rest =>
      match ranges with
      | [] => readRanges [(c, c)] false rest
      | (first, last) :: others =>
          if c == ']' then
            .ok ((if inRange then ('-', '-') :: ranges else ranges).reverse, rest)
          else if inRange then
            if c < first then .error (.invalidRange first c)
            else readRanges ((first, c) :: others) false rest
          else if c == '-' then readRanges ((first, last) :: others) true rest
          else readRanges ((c, c) :: ranges) false rest

/-- Reads a class behind its opening bracket. -/
def readClass (cs : List Char) : Except Problem (Piece × List Char) := do
  let negated := cs.head? == some '!' || cs.head? == some '^'
  let (ranges, rest) ← readRanges [] false (if negated then cs.tail else cs)
  let bytes := ranges.flatMap fun (first, last) => byteRanges first last
  return (if negated then .noneOf bytes else .oneOf bytes, rest)

/-! ### Pieces -/

/-- A group that is still open: the pieces before it and the options before the
current one, both in reverse. -/
structure Group where
  before : List Piece
  options : List (List Piece)

/-- What was read so far: the pieces of the current option in reverse, the open
groups, the innermost first, and the last character. -/
structure Progress where
  pieces : List Piece
  groups : List Group
  last : Option Char

namespace Progress

def start : Progress := ⟨[], [], none⟩

def add (p : Progress) (pieces : List Piece) (c : Char) : Progress :=
  { p with pieces := pieces.reverse ++ p.pieces, last := some c }

def addLiteral (p : Progress) (c : Char) : Progress := p.add ((bytesOf c).map .byte) c

def openGroup (p : Progress) : Progress := ⟨[], ⟨p.pieces, []⟩ :: p.groups, some '\x7b'⟩

def isVoid (pieces : List Piece) : Bool :=
  pieces.all fun
    | .choice [] => true
    | _ => false

def closeGroup (p : Progress) : Except Problem Progress :=
  match p.groups with
  | [] => .error .unopenedGroup
  | g :: groups =>
      let options := ((p.pieces.reverse :: g.options).filter (!isVoid ·)).reverse
      .ok ⟨.choice options :: g.before, groups, some '\x7d'⟩

def nextOption (p : Progress) : Progress :=
  match p.groups with
  | [] => p.addLiteral ','
  | g :: groups => ⟨[], { g with options := p.pieces.reverse :: g.options } :: groups, some ','⟩

/-- A double star at the beginning of an option, before `rest`. -/
def leadingStars (p : Progress) (rest : List Char) : Progress × List Char :=
  match rest with
  | [] => (p.add [.leading] '*', rest)
  | c :: after =>
      if c == '/' then (p.add [.leading] c, after) else (p.add [.anyBytes, .anyBytes] '*', rest)

def stretch (p : Progress) (piece : Piece) (c : Char) : Progress :=
  match p.pieces with
  | .leading :: _ => { p with last := some c }
  | .trailing :: _ => { p with last := some c }
  | pieces => ⟨piece :: pieces.tail, p.groups, some c⟩

/-- What stands before the double star allows it to stand for directories. -/
def standsApart (p : Progress) : Bool :=
  p.last == some '/' ||
    (!p.groups.isEmpty && (p.last == some ',' || p.last == some '\x7b'))

def stars (p : Progress) (rest : List Char) : Progress × List Char :=
  if p.pieces.isEmpty then p.leadingStars rest
  else if !p.standsApart then (p.add [.anyBytes, .anyBytes] '*', rest)
  else
    match rest with
    | [] => (p.stretch .trailing '*', rest)
    | c :: after =>
        if c == '/' then (p.stretch .inner c, after)
        else if !p.groups.isEmpty && (c == ',' || c == '\x7d') then (p.stretch .trailing '*', rest)
        else (p.add [.anyBytes, .anyBytes] '*', rest)

end Progress

/-- Reads the characters behind those of `p`; `fuel` bounds the number of steps. -/
def readFrom : Nat → Progress → List Char → Except Problem Progress
  | 0, p, _ => .ok p
  | _ + 1, p, [] => .ok p
  | fuel + 1, p, c :: rest =>
      match c, rest with
      | '?', _ => readFrom fuel (p.add [.anyByte] c) rest
      | '*', '*' :: after =>
          let (p, after) := p.stars after
          readFrom fuel p after
      | '*', _ => readFrom fuel (p.add [.anyBytes] c) rest
      | '[', _ => do
          let (piece, after) ← readClass rest
          readFrom fuel (p.add [piece] ']') after
      | '\x7b', _ => readFrom fuel p.openGroup rest
      | '\x7d', _ => do readFrom fuel (← p.closeGroup) rest
      | ',', _ => readFrom fuel p.nextOption rest
      | '\\', [] => .error .danglingEscape
      | '\\', d :: after => readFrom fuel (p.addLiteral d) after
      | _, _ => readFrom fuel (p.addLiteral c) rest

def read (glob : String) : Except Fault (List Piece) :=
  let cs := glob.toList
  match readFrom cs.length .start cs with
  | .error problem => .error ⟨glob, problem⟩
  | .ok p =>
      if !p.groups.isEmpty then .error ⟨glob, .unclosedGroup⟩
      else
        match p.pieces with
        | [.leading] => .ok [.anyBytes]
        | pieces => .ok pieces.reverse

end Glob
end DocClaims
