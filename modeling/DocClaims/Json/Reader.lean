import DocClaims.Data.Shape
import DocClaims.Json.Lexeme

/-!
# Reading data from JSON

A text is read by the shape that is expected of it. A record is a table of its
fields, or a list of them in their order.
-/

namespace DocClaims
namespace Json

inductive Kind
  | null
  | yes
  | no
  | number
  | text
  | list
  | table
  deriving DecidableEq, Repr

namespace Kind

def closing : Kind → Char
  | list => ']'
  | _ => '\x7d'

def unfinished : Kind → Problem
  | list => .endInList
  | _ => .endInTable

def unseparated : Kind → Problem
  | list => .noListEnd
  | _ => .noTableEnd

end Kind

def Cursor.kind? (c : Cursor) : Option Kind :=
  if beginsNumber c then some .number
  else c.head?.bind fun a =>
    [('n', Kind.null), ('t', .yes), ('f', .no), ('"', .text), ('[', .list),
      ('\x7b', .table)].lookup a

def Cursor.mismatch {α : Type} (c : Cursor) (m : Mismatch) : Except ReadError α :=
  .error (.mismatch m c.position)

def opening : Reader Kind := fun c =>
  let c := c.skipBlanks
  if c.rest.isEmpty then c.fault .endInValue
  else
    match c.kind? with
    | some k => .ok (k, c)
    | none => c.faultNext .noValue

def found : Kind → Reader Found
  | .null, c => do
      let (_, c) ← word "null".toList c
      return (.null, c)
  | .yes, c => do
      let (_, c) ← word "true".toList c
      return (.flag true, c)
  | .no, c => do
      let (_, c) ← word "false".toList c
      return (.flag false, c)
  | .number, c => do
      let (n, c) ← signedNumeral c
      return (n.found, c)
  | .text, c => do
      let (s, c) ← string c.next
      return (.text s, c)
  | .list, c => .ok (.list, c)
  | .table, c => .ok (.table, c)

/-! ### Items and entries -/

def nextItem (isFirst : Bool) : Reader Bool := fun c =>
  let c := c.skipBlanks
  match c.head? with
  | none => c.fault .endInList
  | some ']' => .ok (false, c)
  | some a =>
      if isFirst then .ok (true, c)
      else if a != ',' then c.faultNext .noListEnd
      else
        let c := c.next.skipBlanks
        if c.rest.isEmpty then c.fault .endInValue
        else if c.isAt ']' then c.faultNext .trailingComma
        else .ok (true, c)

def nextKey (isFirst : Bool) : Reader Bool := fun c =>
  let c := c.skipBlanks
  match c.head? with
  | none => c.fault .endInTable
  | some '\x7d' => .ok (false, c)
  | some a =>
      if isFirst then if a == '"' then .ok (true, c) else c.faultNext .keyNotString
      else if a != ',' then c.faultNext .noTableEnd
      else
        let c := c.next.skipBlanks
        if c.rest.isEmpty then c.fault .endInValue
        else if c.isAt '"' then .ok (true, c)
        else if c.isAt '\x7d' then c.faultNext .trailingComma
        else c.faultNext .keyNotString

def colon : Reader Unit := fun c =>
  let c := c.skipBlanks
  match c.head? with
  | none => c.fault .endInTable
  | some a => if a == ':' then .ok ((), c.next) else c.faultNext .noColon

def endList : Reader Unit := fun c =>
  let c := c.skipBlanks
  match c.head? with
  | none => c.fault .endInList
  | some ']' => .ok ((), c.next)
  | some ',' =>
      let c := c.next.skipBlanks
      c.faultNext (if c.isAt ']' then .trailingComma else .trailingText)
  | some _ => c.faultNext .trailingText

/-- Reads items up to the end of the list; `fuel` bounds their number. -/
def items (item : Reader Datum) : Nat → List Datum → Reader (List Datum)
  | 0, _, c => c.fault .endInList
  | fuel + 1, before, c => do
      let (more, c) ← nextItem before.isEmpty c
      if more then
        let (d, c) ← item c
        items item fuel (d :: before) c
      else return (before.reverse, c.next)

/-- Reads entries up to the end of the table; `fuel` bounds their number. -/
def entries (key : Reader String) (value : Reader Datum) :
    Nat → List (String × Datum) → Reader (List (String × Datum))
  | 0, _, c => c.fault .endInTable
  | fuel + 1, before, c => do
      let (more, c) ← nextKey before.isEmpty c
      if more then
        let (name, c) ← key c
        let (_, c) ← colon c
        let (d, c) ← value c
        entries key value fuel ((name, d) :: before) c
      else return (before.reverse, c.next)

/-! ### Passing over values -/

/-- Passes over a number; digits must follow a point or an exponent's letter. -/
def passNumber : Reader Unit := fun c => do
  let c := if c.isAt '-' then c.next else c
  let c ←
    match c.head? with
    | none => c.fault .badNumber
    | some d =>
        if d == '0' then
          if c.next.head?.any isDigit then c.next.faultNext .badNumber else pure c.next
        else if isDigit d then pure (skipDigits c)
        else c.next.fault .badNumber
  let c ←
    if c.isAt '.' then
      if c.next.head?.any isDigit then pure (skipDigits c.next) else c.next.faultNext .badNumber
    else pure c
  if c.isAt 'e' || c.isAt 'E' then
    let c := c.next
    let c := if c.isAt '+' || c.isAt '-' then c.next else c
    if c.head?.any isDigit then return ((), skipDigits c)
    else if c.rest.isEmpty then c.fault .badNumber
    else c.next.fault .badNumber
  else return ((), c)

/-- Passes over a string behind its opening quote, which may be no valid text;
`fuel` bounds the number of its escapes. -/
def passString : Nat → Reader Unit
  | 0, c => c.fault .endInString
  | fuel + 1, c =>
      let c := c.forward (c.rest.takeWhile (!endsStretch ·)).length
      match c.head? with
      | none => c.fault .endInString
      | some '"' => .ok ((), c.next)
      | some '\\' =>
          let c := c.next
          match c.head? with
          | none => c.fault .endInString
          | some 'u' => do
              let (_, c) ← fourHex c.next
              passString fuel c
          | some a =>
              if (escapedBytes.lookup a).isSome then passString fuel c.next
              else c.next.fault .badEscape
      | some _ => c.fault .controlCharacter

def passText : Reader Unit := fun c => passString (c.rest.length + 1) c

def passLeaf (k : Kind) : Reader Unit := fun c => do
  match k with
  | .number => passNumber c
  | .text => passText c.next
  | k =>
      let (_, c) ← found k c
      return ((), c)

/-- Passes over the key and the colon before an entry's value; there are none in
a list. -/
def passKey (k : Kind) : Reader Unit := fun c =>
  if k == .list then .ok ((), c)
  else
    let c := c.skipBlanks
    match c.head? with
    | none => c.fault .endInTable
    | some a => do
        if a == '"' then
          let (_, c) ← passText c.next
          colon c
        else c.faultNext .keyNotString

/-- What may come next: a value, the first part of a list or table, or another
part. -/
inductive Expecting
  | value
  | first
  | more
  deriving DecidableEq, Repr

/-- Passes over a value; `around` are the kinds of the values that are still
open, the innermost first, and `fuel` bounds the number of steps. -/
def pass : Nat → Expecting → List Kind → Reader Unit
  | 0, _, _, c => c.fault .endInValue
  | fuel + 1, .value, around, c => do
      let (k, c) ← opening c
      if k == .list || k == .table then pass fuel .first (k :: around) c.next
      else
        let (_, c) ← passLeaf k c
        pass fuel .more around c
  | _ + 1, _, [], c => .ok ((), c)
  | fuel + 1, expecting, k :: around, c =>
      let c := c.skipBlanks
      match c.head? with
      | none => c.fault k.unfinished
      | some a => do
          if a == k.closing then pass fuel .more around c.next
          else if expecting == .first then
            let (_, c) ← passKey k c
            pass fuel .value (k :: around) c
          else if a == ',' then
            let (_, c) ← passKey k c.next
            pass fuel .value (k :: around) c
          else c.faultNext k.unseparated

def passValue : Reader Unit := fun c => pass (2 * c.rest.length + 2) .value [] c

/-! ### Values -/

/-- Reads a value that holds no others and that `accept` gives a meaning. -/
def scalar (accept : Found → Except Mismatch Datum) : Reader Datum := fun c => do
  let (k, c) ← opening c
  let (f, c) ← found k c
  match accept f with
  | .ok d => .ok (d, c)
  | .error m => c.mismatch m

def acceptText (expected : String) : Found → Except Mismatch Datum
  | .text s => .ok (.text s)
  | f => .error (.invalidType f expected)

def acceptFlag (expected : String) : Found → Except Mismatch Datum
  | .flag b => .ok (.flag b)
  | f => .error (.invalidType f expected)

def acceptCount (expected : String) : Found → Except Mismatch Datum
  | .integer n =>
      if 0 ≤ n then .ok (.integer n) else .error (.invalidValue (.integer n) expected)
  | f => .error (.invalidType f expected)

def refuse (expected : String) (f : Found) : Except Mismatch Datum :=
  .error (.invalidType f expected)

def optional (inner : Reader Datum) : Reader Datum := fun c =>
  if c.skipBlanks.isAt 'n' then scalar (fun _ => .ok .null) c else inner c

def variantName (variants : List String) : Reader String := fun c => do
  let (d, c) ← scalar (acceptText (Shape.choice variants).expected) c
  let name := d.toText?.getD ""
  if variants.contains name then return (name, c)
  else c.mismatch (.unknownVariant name variants)

/-- Reads a variant: its name, or a table with its name as the only key and null
under it. -/
def choice (variants : List String) : Reader Datum := fun c => do
  let (k, c) ← opening c
  match k with
  | .text =>
      let (name, c) ← variantName variants c
      return (.text name, c)
  | .table =>
      let (name, c) ← variantName variants c.next
      let (_, c) ← colon c
      let (_, c) ← scalar (fun f => if f == .null then .ok .null else refuse "unit" f) c
      let c := c.skipBlanks
      match c.head? with
      | none => c.fault .endInTable
      | some a => if a == '\x7d' then return (.text name, c.next) else c.fault .noValue
  | _ => c.faultNext .noValue

def list (item : Reader Datum) : Reader Datum := fun c => do
  let (k, c) ← opening c
  if k == .list then
    let (ds, c) ← items item (c.rest.length + 1) [] c.next
    return (.list ds, c)
  else scalar (refuse (Shape.list .text).expected) c

def keyed (keys : List String) (value : Reader Datum) : Reader Datum := fun c => do
  let (k, c) ← opening c
  if k == .table then
    let (es, c) ← entries (variantName keys) value (c.rest.length + 1) [] c.next
    return (.table es, c)
  else scalar (refuse (Shape.keyed [] .text).expected) c

/-! ### Records -/

/-- A field, whose value is read in the way of `value`. In a table `absent` stands
for it when it is left out, and in a list `atEnd` does. -/
structure Field (α : Type) where
  key : String
  absent : Option Datum
  atEnd : Option Datum
  value : α

abbrev FieldReader := Field (Reader Datum)

/-- Where a table is left when its reading fails. -/
def leaveTable (c : Cursor) : Cursor :=
  let c := c.skipBlanks
  if c.isAt '\x7d' then c.next else c

/-- Reads fields up to the end of the table; `fuel` bounds their number. -/
def fieldsIn (readers : List FieldReader) :
    Nat → Bool → List (String × Datum) → Reader (List (String × Datum))
  | 0, _, _, c => c.fault .endInTable
  | fuel + 1, isFirst, before, c => do
      let (more, c) ← nextKey isFirst c
      if !more then return (before, c.next)
      else
        let (key, c) ← string c.next
        match readers.find? (·.key == key) with
        | none =>
            let (_, c) ← colon c
            let (_, c) ← passValue c
            fieldsIn readers fuel false before c
        | some reader =>
            if (before.lookup key).isSome then (leaveTable c).mismatch (.duplicateField key)
            else
              let (_, c) ← colon c
              let (d, c) ← reader.value c
              fieldsIn readers fuel false ((key, d) :: before) c

/-- The fields in their own order, with what stands for those left out. -/
def complete {α : Type} (before : List (String × Datum)) :
    List (Field α) → Except Mismatch (List (String × Datum))
  | [] => .ok []
  | field :: others =>
      match (before.lookup field.key).or field.absent with
      | some d => do return (field.key, d) :: (← complete before others)
      | none => .error (.missingField field.key)

/-- Reads the fields that stand in a list, the first of them at `index`. -/
def fieldsInOrder (expected : String) (index : Nat) :
    List FieldReader → Reader (List (String × Datum))
  | [], c => .ok ([], c)
  | reader :: others, c => do
      let (more, c) ← nextItem (index == 0) c
      let (d, c) ←
        if more then reader.value c
        else
          match reader.atEnd with
          | some d => .ok (d, c)
          | none => c.next.mismatch (.invalidLength index expected)
      let (ds, c) ← fieldsInOrder expected (index + 1) others c
      return ((reader.key, d) :: ds, c)

def elements (name : String) (count : Nat) : String :=
  "struct " ++ name ++ " with " ++ toString count ++
    (if count == 1 then " element" else " elements")

def record (name : String) (readers : List FieldReader) : Reader Datum := fun c => do
  let (k, c) ← opening c
  match k with
  | .table =>
      let (before, c) ← fieldsIn readers (c.rest.length + 1) true [] c.next
      match complete before readers with
      | .ok ds => return (.table ds, c)
      | .error m => c.mismatch m
  | .list =>
      let (ds, c) ← fieldsInOrder (elements name readers.length) 0 readers c.next
      let (_, c) ← endList c
      return (.table ds, c)
  | _ => scalar (refuse (Shape.record name .none).expected) c

/-! ### Shapes -/

def absentAtEnd (shape : Shape) (absent : Option Datum) : Option Datum :=
  match shape with
  | .optional _ => none
  | _ => absent

mutual

def reader : Shape → Reader Datum
  | .text => scalar (acceptText Shape.text.expected)
  | .path => scalar (acceptText Shape.path.expected)
  | .count kind => scalar (acceptCount kind)
  | .flag => scalar (acceptFlag Shape.flag.expected)
  | .choice variants => choice variants
  | .optional shape => optional (reader shape)
  | .list item => list (reader item)
  | .keyed keys value => keyed keys (reader value)
  | .record name fields => record name (fieldReaders fields)

def fieldReaders : Fields → List FieldReader
  | .none => []
  | .field key shape absent others =>
      ⟨key, absent, absentAtEnd shape absent, reader shape⟩ :: fieldReaders others

end

def readWith {α : Type} (value : Reader α) (bytes : Text.Bytes) : Except ReadError α := do
  let (a, c) ← value (.start bytes)
  let c := c.skipBlanks
  if c.rest.isEmpty then return a else c.faultNext .trailingText

/-- The data of a text, if they have the shape. -/
def read (shape : Shape) (s : String) : Except ReadError Datum :=
  readWith (reader shape) (Text.encode s)

end Json
end DocClaims
