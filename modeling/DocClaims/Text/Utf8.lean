/-!
# Reading bytes as UTF-8

A byte sequence falls into well-formed characters and ill-formed pieces, where
an ill-formed piece is as long as some character could have begun. Lenient
reading shows each such piece as one replacement character; strict reading
refuses it.
-/

namespace DocClaims
namespace Text

abbrev Bytes := List UInt8

/-- One character, or an ill-formed piece, and the number of its bytes. -/
structure Piece where
  char? : Option Char
  size : Nat

def isContinuation (b : UInt8) : Bool := 0x80 ≤ b && b ≤ 0xBF

def isSecond (lead b : UInt8) : Bool :=
  if lead == 0xE0 then 0xA0 ≤ b && b ≤ 0xBF
  else if lead == 0xED then 0x80 ≤ b && b ≤ 0x9F
  else if lead == 0xF0 then 0x90 ≤ b && b ≤ 0xBF
  else if lead == 0xF4 then 0x80 ≤ b && b ≤ 0x8F
  else isContinuation b

def low6 (b : UInt8) : Nat := b.toNat % 64

def twoByte (lead : UInt8) : Bytes → Piece
  | b :: _ =>
      if isContinuation b then ⟨some (Char.ofNat (lead.toNat % 32 * 64 + low6 b)), 2⟩
      else ⟨none, 1⟩
  | [] => ⟨none, 1⟩

def threeByte (lead : UInt8) : Bytes → Piece
  | b :: rest =>
      if isSecond lead b then
        match rest with
        | c :: _ =>
            if isContinuation c then
              ⟨some (Char.ofNat (lead.toNat % 16 * 4096 + low6 b * 64 + low6 c)), 3⟩
            else ⟨none, 2⟩
        | [] => ⟨none, 2⟩
      else ⟨none, 1⟩
  | [] => ⟨none, 1⟩

def fourByte (lead : UInt8) : Bytes → Piece
  | b :: rest =>
      if isSecond lead b then
        match rest with
        | c :: rest =>
            if isContinuation c then
              match rest with
              | d :: _ =>
                  if isContinuation d then
                    ⟨some (Char.ofNat
                      (lead.toNat % 8 * 262144 + low6 b * 4096 + low6 c * 64 + low6 d)), 4⟩
                  else ⟨none, 3⟩
              | [] => ⟨none, 3⟩
            else ⟨none, 2⟩
        | [] => ⟨none, 2⟩
      else ⟨none, 1⟩
  | [] => ⟨none, 1⟩

/-- The piece that begins with the byte `lead`, before the bytes `rest`. -/
def piece (lead : UInt8) (rest : Bytes) : Piece :=
  if lead < 0x80 then ⟨some (Char.ofNat lead.toNat), 1⟩
  else if 0xC2 ≤ lead && lead ≤ 0xDF then twoByte lead rest
  else if 0xE0 ≤ lead && lead ≤ 0xEF then threeByte lead rest
  else if 0xF0 ≤ lead && lead ≤ 0xF4 then fourByte lead rest
  else ⟨none, 1⟩

/-- The pieces of bytes of which the first `skip` belong to a piece before, after those of `read`
(latest first). -/
def piecesFrom (read : List (Option Char)) (skip : Nat) : Bytes → List (Option Char)
  | [] => read.reverse
  | lead :: rest =>
      match skip with
      | skip + 1 => piecesFrom read skip rest
      | 0 =>
          let p := piece lead rest
          piecesFrom (p.char? :: read) (p.size - 1) rest

def pieces (bytes : Bytes) : List (Option Char) := piecesFrom [] 0 bytes

def replacement : Char := Char.ofNat 0xFFFD

/-- Every ill-formed piece becomes one replacement character. -/
def decodeLossy (bytes : Bytes) : List Char := (pieces bytes).map (·.getD replacement)

def lossy (bytes : Bytes) : String := String.ofList (decodeLossy bytes)

def decode? (bytes : Bytes) : Option (List Char) := (pieces bytes).mapM id

def encode (s : String) : Bytes := s.toList.flatMap String.utf8EncodeChar

/-- Where bytes are wanted, as for paths and names, a text stands for its own. -/
instance : Coe String Bytes := ⟨encode⟩

end Text
end DocClaims
