import DocClaims.Data.Mismatch
import DocClaims.Number.Decimal
import DocClaims.Text.Utf8

/-!
# JSON lexemes

The words, numbers and strings of a JSON text, which is read byte by byte. A
fault lies behind the byte that shows it.
-/

namespace DocClaims
namespace Json

inductive Problem
  | endInList
  | endInTable
  | endInString
  | endInValue
  | noColon
  | noListEnd
  | noTableEnd
  | noWord
  | noValue
  | badEscape
  | badNumber
  | numberTooLarge
  | badCodePoint
  | controlCharacter
  | keyNotString
  | loneSurrogate
  | brokenSurrogate
  | trailingComma
  | trailingText
  | tooDeep
  deriving DecidableEq, Repr

def Problem.text : Problem → String
  | endInList => "EOF while parsing a list"
  | endInTable => "EOF while parsing an object"
  | endInString => "EOF while parsing a string"
  | endInValue => "EOF while parsing a value"
  | noColon => "expected \x60:\x60"
  | noListEnd => "expected \x60,\x60 or \x60]\x60"
  | noTableEnd => "expected \x60,\x60 or \x60\x7d\x60"
  | noWord => "expected ident"
  | noValue => "expected value"
  | badEscape => "invalid escape"
  | badNumber => "invalid number"
  | numberTooLarge => "number out of range"
  | badCodePoint => "invalid unicode code point"
  | controlCharacter => "control character (\\u0000-\\u001F) found while parsing a string"
  | keyNotString => "key must be a string"
  | loneSurrogate => "lone leading surrogate in hex escape"
  | brokenSurrogate => "unexpected end of hex escape"
  | trailingComma => "trailing comma"
  | trailingText => "trailing characters"
  | tooDeep => "recursion limit exceeded"

inductive ReadError
  | malformed (problem : Problem) (position : Nat)
  | mismatch (m : Mismatch) (position : Nat)
  deriving DecidableEq, Repr

/-- The line and the column behind a number of bytes; lines count from one. -/
def lineAndColumn (bytes : Text.Bytes) (position : Nat) : Nat × Nat :=
  let before := bytes.take position
  (before.count 10 + 1, (before.reverse.takeWhile (· != 10)).length)

def ReadError.message (bytes : Text.Bytes) (e : ReadError) : String :=
  let (text, position) := match e with
    | malformed problem position => (problem.text, position)
    | mismatch m position => (m.message, position)
  let (line, column) := lineAndColumn bytes position
  text ++ " at line " ++ toString line ++ " column " ++ toString column

/-- What is left of a text, and how many bytes come before. -/
structure Cursor where
  position : Nat
  rest : Text.Bytes

abbrev Reader (α : Type) := Cursor → Except ReadError (α × Cursor)

namespace Cursor

def start (bytes : Text.Bytes) : Cursor := ⟨0, bytes⟩

def forward (c : Cursor) (n : Nat) : Cursor := ⟨c.position + n, c.rest.drop n⟩

def next (c : Cursor) : Cursor := c.forward 1

def head? (c : Cursor) : Option Char := c.rest.head?.map fun b => Char.ofNat b.toNat

def isAt (c : Cursor) (a : Char) : Bool := c.head? == some a

def isBlank (b : UInt8) : Bool := b == 32 || b == 10 || b == 9 || b == 13

def skipBlanks (c : Cursor) : Cursor := c.forward (c.rest.takeWhile isBlank).length

def fault {α : Type} (c : Cursor) (problem : Problem) : Except ReadError α :=
  .error (.malformed problem c.position)

/-- A fault that the next byte shows, if there is one. -/
def faultNext {α : Type} (c : Cursor) (problem : Problem) : Except ReadError α :=
  .error (.malformed problem (if c.rest.isEmpty then c.position else c.position + 1))

end Cursor

/-! ### Words -/

/-- Reads the rest of a word, letter by letter. -/
def word : List Char → Reader Unit
  | [], c => .ok ((), c)
  | a :: letters, c =>
      match c.head? with
      | none => c.fault .endInValue
      | some b => if a == b then word letters c.next else c.next.fault .noWord

/-! ### Numbers -/

/-- A number as it is read: whole, or rounded to a double. -/
inductive Numeral
  | whole (n : Int)
  | real (negative : Bool) (x : Number.Double)

namespace Numeral

def found : Numeral → Found
  | whole n => .integer n
  | real negative x =>
      .real ((if negative then "-" else "") ++ (Number.Decimal.shortest x).scientific)

def toDatum : Numeral → Datum
  | whole n => .integer n
  | real negative x => .real negative x

end Numeral

def isDigit (c : Char) : Bool := '0' ≤ c && c ≤ '9'

def digitOf (c : Char) : Nat := c.toNat - 48

def powerLimit : Int := 308

/-- Scales by powers of ten, rounding after each; `fuel` bounds their number.
There is no result when it would be too large. -/
def scaled (x : Number.Double) (exponent : Int) : Nat → Option Number.Double
  | 0 => some x
  | fuel + 1 =>
      if exponent.natAbs ≤ powerLimit then
        let power := Number.Double.ofNat (Nat.pow 10 exponent.natAbs)
        if 0 ≤ exponent then
          let y := x.mul power
          if y.overflows then none else some y
        else some (x.div power)
      else if x.significand == 0 then some x
      else if 0 ≤ exponent then none
      else scaled (x.div (.ofNat (Nat.pow 10 powerLimit.toNat))) (exponent + powerLimit) fuel

def realOf (negative : Bool) (significand : Nat) (exponent : Int) : Reader Numeral := fun c =>
  match scaled (.ofNat significand) exponent 8 with
  | some x => .ok (.real negative x, c)
  | none => c.fault .numberTooLarge

def exponentLimit : Nat := Nat.pow 2 31

/-- The digits of an exponent; `none` when it is too large. -/
def exponentDigits (e : Nat) : Nat → Cursor → Option Nat × Cursor
  | 0, c => (some e, c)
  | fuel + 1, c =>
      match c.head? with
      | some d =>
          if isDigit d then
            let e := e * 10 + digitOf d
            if exponentLimit ≤ e then (none, c.next) else exponentDigits e fuel c.next
          else (some e, c)
      | none => (some e, c)

def skipDigits (c : Cursor) : Cursor :=
  c.forward (c.rest.takeWhile fun b => isDigit (Char.ofNat b.toNat)).length

/-- The exponent behind a number that ends at the letter. -/
def exponent (negative : Bool) (significand : Nat) (before : Int) : Reader Numeral := fun c =>
  let c := c.next
  let down := c.isAt '-'
  let c := if c.isAt '+' || down then c.next else c
  match c.head? with
  | none => c.fault .endInValue
  | some d =>
      if !isDigit d then c.next.fault .badNumber
      else
        match exponentDigits (digitOf d) c.rest.length c.next with
        | (some e, c) =>
            realOf negative significand (if down then before - e else before + e) c
        | (none, c) =>
            if significand != 0 && !down then c.fault .numberTooLarge
            else .ok (.real negative (.ofNat 0), skipDigits c)

def afterDigits (negative : Bool) (significand : Nat) (e : Int) : Reader Numeral := fun c =>
  if c.isAt 'e' || c.isAt 'E' then exponent negative significand e c
  else realOf negative significand e c

def wordLimit : Nat := Nat.pow 2 64

/-- Reads places behind the point; `fuel` bounds their number. Digits that no
longer fit in 64 bits are dropped. -/
def places (negative : Bool) (before : Int) : Nat → Nat → Int → Reader Numeral
  | 0, significand, e, c => afterDigits negative significand (before + e) c
  | fuel + 1, significand, e, c =>
      match c.head? with
      | some d =>
          if isDigit d then
            let n := significand * 10 + digitOf d
            if wordLimit ≤ n then afterDigits negative significand (before + e) (skipDigits c)
            else places negative before fuel n (e - 1) c.next
          else if e == 0 then c.faultNext .badNumber
          else afterDigits negative significand (before + e) c
      | none =>
          if e == 0 then c.faultNext .endInValue
          else afterDigits negative significand (before + e) c

/-- What follows the digits before the point, of which `dropped` did not fit. -/
def afterWhole (negative : Bool) (significand dropped : Nat) : Reader Numeral := fun c =>
  if c.isAt '.' then places negative dropped c.rest.length significand 0 c.next
  else if c.isAt 'e' || c.isAt 'E' then exponent negative significand dropped c
  else if 0 < dropped then realOf negative significand dropped c
  else if !negative then .ok (.whole significand, c)
  else if significand == 0 || Nat.pow 2 63 < significand then
    .ok (.real true (.ofNat significand), c)
  else .ok (.whole (-(significand : Int)), c)

/-- Reads digits as long as they fit in 64 bits; `fuel` bounds their number. -/
def wholeDigits (negative : Bool) : Nat → Nat → Reader Numeral
  | 0, significand, c => afterWhole negative significand 0 c
  | fuel + 1, significand, c =>
      match c.head? with
      | some d =>
          if isDigit d then
            let n := significand * 10 + digitOf d
            if wordLimit ≤ n then
              let c' := skipDigits c
              afterWhole negative significand (c'.position - c.position) c'
            else wholeDigits negative fuel n c.next
          else afterWhole negative significand 0 c
      | none => afterWhole negative significand 0 c

def numeral (negative : Bool) : Reader Numeral := fun c =>
  match c.head? with
  | none => c.fault .endInValue
  | some d =>
      if d == '0' then
        if c.next.head?.any isDigit then c.next.faultNext .badNumber
        else afterWhole negative 0 0 c.next
      else if isDigit d then wholeDigits negative c.rest.length (digitOf d) c.next
      else c.next.fault .badNumber

def beginsNumber (c : Cursor) : Bool := c.isAt '-' || c.head?.any isDigit

def signedNumeral : Reader Numeral := fun c =>
  if c.isAt '-' then numeral true c.next else numeral false c

/-! ### Strings -/

def escapedBytes : List (Char × UInt8) :=
  [('"', 34), ('\\', 92), ('/', 47), ('b', 8), ('f', 12), ('n', 10), ('r', 13), ('t', 9)]

def hexValue (b : UInt8) : Nat :=
  let n := b.toNat
  if 48 ≤ n && n ≤ 57 then n - 48
  else if 97 ≤ n && n ≤ 102 then n - 87
  else if 65 ≤ n && n ≤ 70 then n - 55
  else 16

def fourHex : Reader Nat := fun c =>
  match c.rest with
  | p :: q :: r :: s :: _ =>
      let digits := [p, q, r, s].map hexValue
      if digits.any (16 ≤ ·) then (c.forward 4).fault .badEscape
      else .ok (digits.foldl (fun n d => n * 16 + d) 0, c.forward 4)
  | _ => (c.forward c.rest.length).fault .endInString

def require (a : Char) : Reader Unit := fun c =>
  match c.head? with
  | none => c.fault .endInString
  | some b => if a == b then .ok ((), c.next) else c.next.fault .brokenSurrogate

def codePoint : Reader Char := fun c => do
  let (high, c) ← fourHex c
  if 0xDC00 ≤ high && high ≤ 0xDFFF then c.fault .loneSurrogate
  else if high < 0xD800 || 0xDBFF < high then return (Char.ofNat high, c)
  else
    let (_, c) ← require '\\' c
    let (_, c) ← require 'u' c
    let (low, c) ← fourHex c
    if low < 0xDC00 || 0xDFFF < low then c.fault .loneSurrogate
    else return (Char.ofNat ((high - 0xD800) * 1024 + (low - 0xDC00) + 0x10000), c)

/-- The bytes of an escape behind the backslash. -/
def escaped : Reader Text.Bytes := fun c =>
  match c.head? with
  | none => c.fault .endInString
  | some a =>
      match escapedBytes.lookup a with
      | some b => .ok ([b], c.next)
      | none =>
          if a == 'u' then do
            let (ch, c) ← codePoint c.next
            return (Text.encode (String.singleton ch), c)
          else c.next.fault .badEscape

/-- Ends a stretch of a string that stands for itself. -/
def endsStretch (b : UInt8) : Bool := b == 34 || b == 92 || b < 32

/-- Reads the bytes of a string behind those of `out`, which are in reverse;
`fuel` bounds the number of its escapes. -/
def stringBytes : Nat → Text.Bytes → Reader Text.Bytes
  | 0, _, c => c.fault .endInString
  | fuel + 1, out, c =>
      let plain := c.rest.takeWhile (!endsStretch ·)
      let out := plain.reverse ++ out
      let c := c.forward plain.length
      match c.rest with
      | [] => c.fault .endInString
      | b :: _ =>
          if b == 34 then .ok (out.reverse, c.next)
          else if b == 92 then do
            let (more, c) ← escaped c.next
            stringBytes fuel (more.reverse ++ out) c
          else c.next.fault .controlCharacter

def string : Reader String := fun c => do
  let (bytes, c) ← stringBytes (c.rest.length + 1) [] c
  match Text.decode? bytes with
  | some cs => return (String.ofList cs, c)
  | none => c.fault .badCodePoint

end Json
end DocClaims
