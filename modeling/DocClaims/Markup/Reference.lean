import DocClaims.Markup.ReferenceNames
import DocClaims.Text.WordChar

/-!
# Character references

What the characters behind an ampersand stand for: a decimal or hexadecimal
code point, or the longest name that the text begins with. Code points that are
no characters become the replacement character, and the control codes from 128
to 159 are read as Windows-1252.
-/

namespace DocClaims
namespace Markup

/-- The characters for the code points from 128 to 159. -/
def windows1252 : List Nat :=
  [0x20AC, 0x81, 0x201A, 0x192, 0x201E, 0x2026, 0x2020, 0x2021, 0x2C6, 0x2030, 0x160, 0x2039,
    0x152, 0x8D, 0x17D, 0x8F, 0x90, 0x2018, 0x2019, 0x201C, 0x201D, 0x2022, 0x2013, 0x2014,
    0x2DC, 0x2122, 0x161, 0x203A, 0x153, 0x9D, 0x17E, 0x178]

def charOfCode (n : Nat) : Char :=
  if n == 0 || n > 0x10FFFF || (0xD800 ≤ n && n ≤ 0xDFFF) then Char.ofNat 0xFFFD
  else if 0x80 ≤ n && n ≤ 0x9F then Char.ofNat (windows1252.getD (n - 0x80) n)
  else Char.ofNat n

def digitValue? (c : Char) : Option Nat :=
  if Text.isAsciiDigit c then some (c.toNat - 48)
  else if 'a' ≤ c && c ≤ 'f' then some (c.toNat - 87)
  else if 'A' ≤ c && c ≤ 'F' then some (c.toNat - 55)
  else none

def isDigitOf (base : Nat) (c : Char) : Bool := (digitValue? c).any fun v => v < base

def numberOf (base : Nat) (digits : List Char) : Nat :=
  digits.foldl (fun n c => n * base + (digitValue? c).getD 0) 0

/-- What a reference stands for, and the text behind it. -/
structure Reference where
  chars : List Char
  rest : List Char

def numericReference (base : Nat) (cs : List Char) : Option Reference :=
  let digits := cs.takeWhile (isDigitOf base)
  if digits.isEmpty then none
  else
    let rest := cs.drop digits.length
    some ⟨[charOfCode (numberOf base digits)], if rest.head? == some ';' then rest.drop 1 else rest⟩

/-- The longest name in the list with which `cs` begins. -/
def longestName (cs : List Char) (names : List NamedReference) : Option NamedReference :=
  names.foldl
    (fun best named =>
      if named.1.toList.isPrefixOf cs then
        match best with
        | some old => if old.1.length < named.1.length then some named else best
        | none => some named
      else best)
    none

def commonLength : List Char → List Char → Nat
  | c :: cs, d :: ds => if c == d then commonLength cs ds + 1 else 0
  | _, _ => 0

/-- How many characters of `cs` some name begins with. -/
def nameReach (cs : List Char) (names : List NamedReference) : Nat :=
  names.foldl (fun reach named => max reach (commonLength cs named.1.toList)) 0

/-- The text is read again after a name was sought in its first `seen`
characters and the one behind them. If that one is a carriage return, it takes no
line feed with it, and is lost when nothing stands before it. -/
def readAgain (seen : Nat) (cs : List Char) : List Char :=
  match cs.drop seen with
  | '\r' :: rest => if seen == 0 then rest else cs.take seen ++ '\n' :: rest
  | _ => cs

theorem length_readAgain_le (seen : Nat) (cs : List Char) :
    (readAgain seen cs).length ≤ cs.length := by
  unfold readAgain
  split
  · rename_i rest h
    have hlen := congrArg List.length h
    simp only [List.length_drop, List.length_cons] at hlen
    split
    · omega
    · simp only [List.length_append, List.length_take, List.length_cons]
      omega
  · exact Nat.le_refl _

/-- The reference by name that `cs` begins with; an ampersand when there is none. -/
def namedReference (cs : List Char) : Reference :=
  let names := namedReferences (cs.headD ' ')
  let reach := nameReach cs names
  match longestName cs names with
  | some (name, codes) =>
      ⟨codes.map Char.ofNat, readAgain (reach - name.length) (cs.drop name.length)⟩
  | none =>
      let isNameChar := fun c => Text.isAsciiLetter c || Text.isAsciiDigit c
      ⟨['&'], readAgain (reach + ((cs.drop reach).takeWhile isNameChar).length) cs⟩

/-- What the text behind an ampersand stands for. -/
def reference (cs : List Char) : Reference :=
  match cs with
  | '#' :: 'x' :: digits => (numericReference 16 digits).getD ⟨['&'], cs⟩
  | '#' :: 'X' :: digits => (numericReference 16 digits).getD ⟨['&'], cs⟩
  | '#' :: digits => (numericReference 10 digits).getD ⟨['&'], cs⟩
  | _ => namedReference cs

theorem length_numericReference_le {base : Nat} {cs : List Char} {r : Reference}
    (h : numericReference base cs = some r) : r.rest.length ≤ cs.length := by
  simp only [numericReference] at h
  split at h
  · cases h
  · cases h
    simp only
    split <;> simp only [List.length_drop] <;> omega

theorem length_reference_le (cs : List Char) : (reference cs).rest.length ≤ cs.length := by
  have numeric : ∀ base digits, digits.length ≤ cs.length →
      ((numericReference base digits).getD ⟨['&'], cs⟩).rest.length ≤ cs.length := by
    intro base digits hd
    cases h : numericReference base digits with
    | none => exact Nat.le_refl _
    | some r => exact Nat.le_trans (length_numericReference_le h) hd
  unfold reference
  split
  · exact numeric _ _ (by simp only [List.length_cons]; omega)
  · exact numeric _ _ (by simp only [List.length_cons]; omega)
  · exact numeric _ _ (by simp only [List.length_cons]; omega)
  · unfold namedReference
    simp only
    split
    · refine Nat.le_trans (length_readAgain_le _ _) ?_
      simp only [List.length_drop]
      omega
    · exact length_readAgain_le _ _

end Markup
end DocClaims
