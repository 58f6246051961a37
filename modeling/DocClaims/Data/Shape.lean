import DocClaims.Data.Datum

/-!
# Shapes of data

What a file is expected to hold at a place. A reader is given a shape: it
refuses data of another shape where it meets them, and fills in what a record
may leave out.
-/

namespace DocClaims

mutual

inductive Shape
  | text
  | path
  /-- A whole number below `2 ^ 64`, called `kind` in messages. -/
  | count (kind : String)
  | flag
  | choice (variants : List String)
  | optional (shape : Shape)
  | list (item : Shape)
  | keyed (keys : List String) (value : Shape)
  | record (name : String) (fields : Fields)

/-- The fields of a record; `absent` is the value of a field that is left out,
if it may be. -/
inductive Fields
  | none
  | field (key : String) (shape : Shape) (absent : Option Datum) (others : Fields)

end

namespace Fields

def length : Fields → Nat
  | none => 0
  | field _ _ _ others => others.length + 1

end Fields

namespace Shape

def countLimit : Nat := Nat.pow 2 64

def expected : Shape → String
  | text => "a string"
  | path => "path string"
  | count kind => kind
  | flag => "a boolean"
  | choice _ => "variant identifier"
  | optional _ => "option"
  | list _ => "a sequence"
  | keyed _ _ => "a map"
  | record name _ => "struct " ++ name

end Shape
end DocClaims
