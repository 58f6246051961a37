import DocClaims.Text.WordRanges

/-!
# Word characters

The characters that make up words: alphabetic characters, marks, decimal
digits, connector punctuation and join controls. A word boundary lies between
a word character and anything else.
-/

namespace DocClaims
namespace Text

def inRanges (n : Nat) (ranges : List (Nat × Nat)) : Bool :=
  ranges.any fun r => r.1 ≤ n && n ≤ r.2

def isAsciiLower (c : Char) : Bool := 'a' ≤ c && c ≤ 'z'

def isAsciiUpper (c : Char) : Bool := 'A' ≤ c && c ≤ 'Z'

def isAsciiLetter (c : Char) : Bool := isAsciiLower c || isAsciiUpper c

def isAsciiDigit (c : Char) : Bool := '0' ≤ c && c ≤ '9'

def isAsciiWordChar (c : Char) : Bool := isAsciiLetter c || isAsciiDigit c || c == '_'

def isWordChar (c : Char) : Bool :=
  if c.toNat < 128 then isAsciiWordChar c else inRanges c.toNat wordRanges

end Text
end DocClaims
