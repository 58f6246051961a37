import DocClaims.Json.Reader

/-!
# JSON values of any shape

A value can be read first and fitted to a shape later. What does not fit is then
reported without a place. The entries of its tables are ordered by key, and of
entries with the same key the last one counts.
-/

namespace DocClaims
namespace Json

/-! ### Reading -/

/-- Drops entries whose key the next entry has too. -/
def lastOfEach : List (String × Datum) → List (String × Datum)
  | (key, d) :: (other, e) :: rest =>
      if key == other then lastOfEach ((other, e) :: rest)
      else (key, d) :: lastOfEach ((other, e) :: rest)
  | l => l

def byKey (es : List (String × Datum)) : List (String × Datum) :=
  lastOfEach (es.mergeSort fun a b => decide (a.1 ≤ b.1))

def leaf (k : Kind) : Reader Datum := fun c =>
  match k with
  | .number => do
      let (n, c) ← signedNumeral c
      return (n.toDatum, c)
  | .text => do
      let (s, c) ← string c.next
      return (.text s, c)
  | k => do
      let (f, c) ← found k c
      return (match f with | .flag b => .flag b | _ => .null, c)

/-- Lists and tables within one another. -/
def depthLimit : Nat := 127

/-- Reads a value with at most `depth` lists and tables within one another. -/
def anything : Nat → Reader Datum
  | 0 => fun c => do
      let (k, c) ← opening c
      if k == .list || k == .table then c.faultNext .tooDeep else leaf k c
  | depth + 1 => fun c => do
      let (k, c) ← opening c
      match k with
      | .list =>
          let (ds, c) ← items (anything depth) (c.rest.length + 1) [] c.next
          return (.list ds, c)
      | .table =>
          let key : Reader String := fun c => string c.next
          let (es, c) ← entries key (anything depth) (c.rest.length + 1) [] c.next
          return (.table (byKey es), c)
      | k => leaf k c

/-! ### Fitting -/

def foundIn : Datum → Found
  | .null => .null
  | .flag b => .flag b
  | .integer n => .integer n
  | .real negative x => (Numeral.real negative x).found
  | .text s => .text s
  | .list _ => .list
  | .table _ => .table

abbrev Fit := Datum → Except Mismatch Datum

def fitText : Fit := fun d => acceptText Shape.text.expected (foundIn d)

def fitCount (kind : String) : Fit := fun d => acceptCount kind (foundIn d)

def fitOptional (inner : Fit) : Fit
  | .null => .ok .null
  | d => inner d

def fitEntries (fields : List (Field Fit)) :
    List (String × Datum) → Except Mismatch (List (String × Datum))
  | [] => .ok []
  | (key, d) :: rest =>
      match fields.find? (·.key == key) with
      | none => fitEntries fields rest
      | some field => do
          let d ← field.value d
          return (key, d) :: (← fitEntries fields rest)

/-- Fits items to the fields that have their places, the first of them at `index`. -/
def fitInOrder (expected : String) (index : Nat) :
    List (Field Fit) → List Datum → Except Mismatch (List (String × Datum))
  | [], [] => .ok []
  | [], _ :: rest => .error (.invalidLength (index + rest.length + 1) "fewer elements in array")
  | field :: fields, [] =>
      match field.atEnd with
      | some d => do return (field.key, d) :: (← fitInOrder expected (index + 1) fields [])
      | none => .error (.invalidLength index expected)
  | field :: fields, d :: rest => do
      let d ← field.value d
      return (field.key, d) :: (← fitInOrder expected (index + 1) fields rest)

def fitRecord (name : String) (fields : List (Field Fit)) : Fit
  | .table es => do return .table (← complete (← fitEntries fields es) fields)
  | .list ds => do return .table (← fitInOrder (elements name fields.length) 0 fields ds)
  | d => refuse (Shape.record name .none).expected (foundIn d)

end Json
end DocClaims
