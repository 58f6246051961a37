import DocClaims.Number.Double

/-!
# Data

The values that files hold, free of any file format.
-/

namespace DocClaims

inductive Datum
  | null
  | flag (b : Bool)
  | integer (n : Int)
  | real (negative : Bool) (x : Number.Double)
  | text (s : String)
  | list (items : List Datum)
  | table (entries : List (String × Datum))

namespace Datum

def count (n : Nat) : Datum := integer n

def texts (values : List String) : Datum := list (values.map text)

def optionalText : Option String → Datum
  | some s => text s
  | none => null

def toText? : Datum → Option String
  | text s => some s
  | _ => none

def toFlag? : Datum → Option Bool
  | flag b => some b
  | _ => none

def toCount? : Datum → Option Nat
  | integer n => n.toNat?
  | _ => none

def toList? : Datum → Option (List Datum)
  | list items => some items
  | _ => none

def toTexts? (d : Datum) : Option (List String) := d.toList?.bind fun items => items.mapM toText?

def toOptionalText? : Datum → Option (Option String)
  | text s => some (some s)
  | null => some none
  | _ => none

def toTable? : Datum → Option (List (String × Datum))
  | table entries => some entries
  | _ => none

def get? (key : String) : Datum → Option Datum
  | table entries => entries.lookup key
  | _ => none

end Datum
end DocClaims
