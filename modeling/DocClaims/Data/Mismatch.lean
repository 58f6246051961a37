import DocClaims.Data.Shape
import DocClaims.Text.Quoted

/-!
# Mismatches between data and shapes

How data may fail to have the shape that is expected of them, and what a message
says about it.
-/

namespace DocClaims

inductive Found
  | unit
  | null
  | flag (b : Bool)
  | integer (n : Int)
  /-- A whole number that only fits in 128 bits. -/
  | wide (n : Int)
  | real (digits : String)
  | text (s : String)
  | list
  | table
  deriving DecidableEq, Repr

def Found.description : Found → String
  | unit => "unit value"
  | null => "null"
  | flag b => "boolean \x60" ++ (if b then "true" else "false") ++ "\x60"
  | integer n => "integer \x60" ++ toString n ++ "\x60"
  | wide n => "integer \x60" ++ toString n ++ "\x60 as " ++ (if n < 0 then "i128" else "u128")
  | real digits => "floating point \x60" ++ digits ++ "\x60"
  | text s => "string " ++ Text.quoted s
  | list => "sequence"
  | table => "map"

inductive Mismatch
  | invalidType (found : Found) (expected : String)
  | invalidValue (found : Found) (expected : String)
  | invalidLength (length : Nat) (expected : String)
  | unknownVariant (name : String) (variants : List String)
  | missingField (name : String)
  | duplicateField (name : String)
  deriving DecidableEq, Repr

namespace Mismatch

def oneOf : List String → String
  | [] => "there are no variants"
  | [a] => "expected \x60" ++ a ++ "\x60"
  | [a, b] => "expected \x60" ++ a ++ "\x60 or \x60" ++ b ++ "\x60"
  | variants => "expected one of " ++ String.intercalate ", " (variants.map ("\x60" ++ · ++ "\x60"))

def message : Mismatch → String
  | invalidType found expected =>
      "invalid type: " ++ found.description ++ ", expected " ++ expected
  | invalidValue found expected =>
      "invalid value: " ++ found.description ++ ", expected " ++ expected
  | invalidLength length expected =>
      "invalid length " ++ toString length ++ ", expected " ++ expected
  | unknownVariant name variants => "unknown variant \x60" ++ name ++ "\x60, " ++ oneOf variants
  | missingField name => "missing field \x60" ++ name ++ "\x60"
  | duplicateField name => "duplicate field \x60" ++ name ++ "\x60"

end Mismatch
end DocClaims
