import DocClaims.Text.Utf8

/-!
# Globs

A glob is a list of pieces that a path must consist of, byte by byte. A star
stands for any bytes, slashes included; a double star stands for directories.
-/

namespace DocClaims
namespace Glob

inductive Piece
  | byte (b : UInt8)
  | anyByte
  | anyBytes
  /-- Directories at the beginning, each with a slash behind it, or nothing. -/
  | leading
  /-- A slash, with directories between it and another slash or not. -/
  | inner
  | trailing
  | oneOf (ranges : List (UInt8 × UInt8))
  | noneOf (ranges : List (UInt8 × UInt8))
  /-- One of the options; nothing if there are none. -/
  | choice (options : List (List Piece))

def slash : UInt8 := 47

def byteThen (test : UInt8 → Bool) (next : Text.Bytes → Bool) : Text.Bytes → Bool
  | [] => false
  | b :: rest => test b && next rest

/-- Any bytes, and behind them what `next` accepts. -/
def anyThen (next : Text.Bytes → Bool) : Text.Bytes → Bool
  | [] => next []
  | b :: rest => next (b :: rest) || anyThen next rest

def slashThen (next : Text.Bytes → Bool) : Text.Bytes → Bool := byteThen (· == slash) next

/-- Nothing, or directories with a slash behind each. -/
def directoriesThen (next : Text.Bytes → Bool) (s : Text.Bytes) : Bool :=
  next s || anyThen (slashThen next) s

def inRanges (ranges : List (UInt8 × UInt8)) (b : UInt8) : Bool :=
  ranges.any fun (first, last) => first ≤ b && b ≤ last

mutual

/-- The bytes begin with the piece, and `next` accepts what follows. -/
def Piece.acceptsThen : Piece → (Text.Bytes → Bool) → Text.Bytes → Bool
  | .byte b, next => byteThen (· == b) next
  | .anyByte, next => byteThen (fun _ => true) next
  | .anyBytes, next => anyThen next
  | .leading, next => directoriesThen next
  | .inner, next => slashThen (directoriesThen next)
  | .trailing, next => slashThen (anyThen next)
  | .oneOf ranges, next => byteThen (inRanges ranges) next
  | .noneOf ranges, next => byteThen (!inRanges ranges ·) next
  | .choice [], next => next
  | .choice (option :: options), next => someAcceptsThen (option :: options) next

def acceptsThen : List Piece → (Text.Bytes → Bool) → Text.Bytes → Bool
  | [], next => next
  | p :: pieces, next => p.acceptsThen (acceptsThen pieces next)

def someAcceptsThen : List (List Piece) → (Text.Bytes → Bool) → Text.Bytes → Bool
  | [], _ => fun _ => false
  | option :: options, next => fun s => acceptsThen option next s || someAcceptsThen options next s

end

def accepts (pieces : List Piece) (path : String) : Bool :=
  acceptsThen pieces List.isEmpty (Text.encode path)

end Glob
end DocClaims
