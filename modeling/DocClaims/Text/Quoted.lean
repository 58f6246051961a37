import DocClaims.Text.EscapedRanges
import DocClaims.Text.WordChar

/-!
# Quoted texts in messages

A message quotes a text between double quotes, with controls and other
characters that would not show written as escapes.
-/

namespace DocClaims
namespace Text

def hexDigit (n : Nat) : Char := if n < 10 then Char.ofNat (48 + n) else Char.ofNat (87 + n)

def hexDigits (n : Nat) : List Char := if n < 16 then [hexDigit n] else
  hexDigits (n / 16) ++ [hexDigit (n % 16)]
termination_by n
decreasing_by omega

def isEscaped (c : Char) : Bool :=
  c.toNat < 32 || (127 ≤ c.toNat && inRanges c.toNat escapedRanges)

def quoteChar (c : Char) : List Char :=
  if c == '"' then ['\\', '"']
  else if c == '\\' then ['\\', '\\']
  else if c == '\t' then ['\\', 't']
  else if c == '\n' then ['\\', 'n']
  else if c == '\r' then ['\\', 'r']
  else if c.toNat == 0 then ['\\', '0']
  else if isEscaped c then
    ['\\', 'u', Char.ofNat 0x7B] ++ hexDigits c.toNat ++ [Char.ofNat 0x7D]
  else [c]

def quoted (s : String) : String :=
  String.ofList ('"' :: s.toList.flatMap quoteChar ++ ['"'])

end Text
end DocClaims
