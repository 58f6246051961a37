import DocClaims.Data.Mismatch
import DocClaims.Number.Decimal
import DocClaims.Yaml.Document

/-!
# Reading data from YAML

A document is read by the shape that is expected of it. The first place where it
has another shape is reported, with the keys and positions that lead there.
-/

namespace DocClaims
namespace Yaml

/-- The way from the top of a document to a place in it. -/
inductive Route
  | top
  | item (parent : Route) (index : Nat)
  | key (parent : Route) (name : String)
  | target (parent : Route)
  | unnamed (parent : Route)
  deriving DecidableEq, Repr

def Route.text : Route → String
  | top => "."
  | item parent index => parent.text ++ "[" ++ toString index ++ "]"
  | key top name => name
  | key parent name => parent.text ++ "." ++ name
  | target parent => parent.text
  | unnamed top => "?"
  | unnamed parent => parent.text ++ ".?"

inductive ReadError
  | mismatch (m : Mismatch) (place : Option (Place × Route))
  | endOfText
  | tooManyReferences
  | faulty (fault : DocumentFault)
  | severalDocuments
  deriving DecidableEq, Repr

namespace ReadError

def message : ReadError → String
  | mismatch m none => m.message
  | mismatch m (some (place, route)) =>
      (if route.text == "." then "" else route.text ++ ": ") ++ m.message ++ place.suffix
  | endOfText => "EOF while parsing a value"
  | tooManyReferences => "repetition limit exceeded"
  | faulty fault => fault.message
  | severalDocuments =>
      "deserializing from YAML containing more than one document is not supported"

/-- Names the place of a mismatch that has none yet. -/
def locate (place : Place) (route : Route) : ReadError → ReadError
  | mismatch m none => mismatch m (some (place, route))
  | e => e

end ReadError

/-- The contents that are left, and how many references have been followed. -/
structure Reading where
  rest : List PlacedContent
  followed : Nat

/-- Reads the node that comes next, to which the route leads. -/
abbrev NodeReader (α : Type) := Route → Reading → Except ReadError (α × Reading)

/-- Errors in reading a part are located at its start, if nowhere else. -/
def located {α : Type} (place : Place) (route : Route)
    (outcome : Except ReadError (α × Reading)) : Except ReadError (α × Reading) :=
  outcome.mapError (·.locate place route)

def refuse {α : Type} (m : Mismatch) : Except ReadError (α × Reading) := .error (.mismatch m none)

namespace Document

def ended (doc : Document) : ReadError :=
  match doc.fault with
  | some fault => .faulty fault
  | none => .endOfText

/-- References that may be followed in all. -/
def referenceLimit (doc : Document) : Nat := 100 * doc.contents.length

def visit {α : Type} (doc : Document) (reader : NodeReader α) : NodeReader α := fun route r =>
  match r.rest with
  | ⟨.reference number, _⟩ :: after =>
      if doc.referenceLimit ≤ r.followed then .error .tooManyReferences
      else
        match doc.targets.lookup number with
        | none => .error .endOfText
        | some position => do
            let (a, r) ← reader (.target route) ⟨doc.contents.drop position, r.followed + 1⟩
            return (a, ⟨after, r.followed⟩)
  | _ => reader route r

/-! ### Scalars -/

structure Scalar where
  tag : Option String
  style : Style
  text : String

def boolTag : String := "tag:yaml.org,2002:bool"
def intTag : String := "tag:yaml.org,2002:int"
def floatTag : String := "tag:yaml.org,2002:float"
def nullTag : String := "tag:yaml.org,2002:null"

def realText (negative : Bool) (x : Number.Double) : String :=
  (if negative then "-" else "") ++ (Number.Decimal.shortest x).pointed

def plainFound (s : String) : Plain → Found
  | .null => .unit
  | .flag b => .flag b
  | .integer n => .integer n
  | .wide n => .wide n
  | .real negative x => .real (realText negative x)
  | .infinite negative => .real (if negative then "-inf" else "inf")
  | .notANumber => .real "NaN"
  | .text => .text s

def taggedMismatch (s : Scalar) (tag expected : String) : Mismatch :=
  let typed := fun (p : Option Plain) (wanted : String) =>
    match p with
    | some p => .invalidType (plainFound s.text p) expected
    | none => .invalidValue (.text s.text) wanted
  if tag == boolTag then typed ((Plain.flag? s.text).map .flag) "a boolean"
  else if tag == intTag then typed (Plain.integer? s.text.toList) "an integer"
  else if tag == floatTag then typed (Plain.real? s.text) "a float"
  else if tag == nullTag then typed (if Plain.isNullWord s.text then some .null else none) "null"
  else if tag.toList.head? == some '!' && s.style == .plain then
    .invalidType (plainFound s.text (Plain.read s.text)) expected
  else .invalidType (.text s.text) expected

/-- A scalar stands where something else is expected. -/
def scalarMismatch (s : Scalar) (expected : String) : Mismatch :=
  match s.tag with
  | some tag => taggedMismatch s tag expected
  | none =>
      let found :=
        if s.style == .plain then plainFound s.text (Plain.read s.text) else .text s.text
      .invalidType found expected

def unexpected {α : Type} (content : Content) (expected : String) :
    Except ReadError (α × Reading) :=
  match content with
  | .scalar tag style text => refuse (scalarMismatch ⟨tag, style, text⟩ expected)
  | .listStart _ => refuse (.invalidType .list expected)
  | .tableStart _ => refuse (.invalidType .table expected)
  | _ => .error .endOfText

/-- Reads a scalar that `accept` gives a meaning. -/
def scalar (doc : Document) (expected : String) (accept : Scalar → Option Datum) :
    NodeReader Datum :=
  doc.visit fun route r =>
    match r.rest with
    | [] => .error doc.ended
    | ⟨content, place⟩ :: rest =>
        located place route <|
          match content with
          | .scalar tag style text =>
              match accept ⟨tag, style, text⟩ with
              | some d => .ok (d, { r with rest := rest })
              | none => unexpected content expected
          | _ => unexpected content expected

def mayMean (tag : String) (s : Scalar) : Bool :=
  s.style == .plain || (s.style == .literal && s.tag == some tag)

def acceptText (s : Scalar) : Option Datum := some (.text s.text)

def acceptFlag (s : Scalar) : Option Datum :=
  if mayMean boolTag s then (Plain.flag? s.text).map .flag else none

def acceptCount (s : Scalar) : Option Datum :=
  if mayMean intTag s then (Plain.unsigned? Shape.countLimit s.text.toList).map .count else none

/-! ### Choices -/

def variantTag? (tag : Option String) : Option String :=
  tag.bind fun t =>
    match t.toList with
    | '!' :: rest => some (if rest.isEmpty then t else String.ofList rest)
    | _ => none

def emptyContent (content : Content) : Except ReadError Unit :=
  match content with
  | .scalar _ style text =>
      if style == .plain && (text.isEmpty || Plain.isNullWord text) then .ok ()
      else .error (.mismatch (.invalidValue (.text text) "null") none)
  | .listStart _ => .error (.mismatch (.invalidType .list "unit") none)
  | .tableStart _ => .error (.mismatch (.invalidType .table "unit") none)
  | _ => .error .endOfText

def tagOf : Content → Option String
  | .scalar tag _ _ => tag
  | .listStart tag => tag
  | .tableStart tag => tag
  | _ => none

/-- Reads the name of a variant, written as a scalar or as a tag. -/
def choice (doc : Document) (variants : List String) : NodeReader Datum :=
  doc.visit fun route r =>
    match r.rest with
    | [] => .error doc.ended
    | ⟨content, place⟩ :: rest =>
        match variantTag? (tagOf content) with
        | some name =>
            if variants.contains name then
              located place route ((emptyContent content).map fun _ =>
                (.text name, { r with rest := rest }))
            else refuse (.unknownVariant name variants)
        | none =>
            located place route <|
              match content with
              | .scalar _ _ text =>
                  if variants.contains text then .ok (.text text, { r with rest := rest })
                  else refuse (.unknownVariant text variants)
              | _ => unexpected content "a YAML tag starting with '!'"

/-! ### Options, lists and tables -/

def isNothing (s : Scalar) : Except ReadError Bool :=
  if s.style != .plain then .ok false
  else
    match s.tag with
    | some tag =>
        if tag != nullTag then .ok false
        else if Plain.isNullWord s.text then .ok true
        else .error (.mismatch (.invalidValue (.text s.text) "null") none)
    | none => .ok (s.text.isEmpty || Plain.isNullWord s.text)

def optional (doc : Document) (inner : NodeReader Datum) : NodeReader Datum :=
  doc.visit fun route r =>
    match r.rest with
    | [] => .error doc.ended
    | ⟨.scalar tag style text, _⟩ :: rest => do
        if ← isNothing ⟨tag, style, text⟩ then return (.null, { r with rest := rest })
        else inner route r
    | ⟨.void, _⟩ :: rest => .ok (.null, { r with rest := rest })
    | _ => inner route r

def isBlankContent : Content → Bool
  | .void => true
  | .scalar _ style text => style == .plain && text.isEmpty
  | _ => false

/-- Reads items up to the end of the list; `fuel` bounds their number. -/
def items (doc : Document) (item : NodeReader Datum) (route : Route) :
    Nat → List Datum → Reading → Except ReadError (List Datum × Reading)
  | 0, _, _ => .error doc.ended
  | fuel + 1, found, r =>
      match r.rest with
      | [] => .error doc.ended
      | ⟨.listEnd, _⟩ :: rest => .ok (found.reverse, { r with rest := rest })
      | _ => do
          let (d, r) ← item (.item route found.length) r
          items doc item route fuel (d :: found) r

def list (doc : Document) (item : NodeReader Datum) : NodeReader Datum :=
  doc.visit fun route r =>
    match r.rest with
    | [] => .error doc.ended
    | ⟨content, place⟩ :: rest =>
        located place route <|
          match content with
          | .listStart _ => do
              let (ds, r) ← items doc item route rest.length [] { r with rest := rest }
              return (.list ds, r)
          | _ =>
              if isBlankContent content then .ok (.list [], { r with rest := rest })
              else unexpected content (Shape.list .text).expected

def valueRoute (route : Route) (r : Reading) : Route :=
  match r.rest with
  | ⟨.scalar _ _ text, _⟩ :: _ => .key route text
  | _ => .unnamed route

/-- Reads entries up to the end of the table; `fuel` bounds their number. -/
def entries (doc : Document) (keys : List String) (value : NodeReader Datum) (route : Route) :
    Nat → List (String × Datum) → Reading → Except ReadError (List (String × Datum) × Reading)
  | 0, _, _ => .error doc.ended
  | fuel + 1, found, r =>
      match r.rest with
      | [] => .error doc.ended
      | ⟨.tableEnd, _⟩ :: rest => .ok (found.reverse, { r with rest := rest })
      | _ => do
          let (key, r') ← choice doc keys route r
          let (d, r') ← value (valueRoute route r) r'
          entries doc keys value route fuel ((key.toText?.getD "", d) :: found) r'

def keyed (doc : Document) (keys : List String) (value : NodeReader Datum) : NodeReader Datum :=
  doc.visit fun route r =>
    match r.rest with
    | [] => .error doc.ended
    | ⟨content, place⟩ :: rest =>
        located place route <|
          match content with
          | .tableStart _ => do
              let (es, r) ← entries doc keys value route rest.length [] { r with rest := rest }
              return (.table es, r)
          | _ =>
              if isBlankContent content then .ok (.table [], { r with rest := rest })
              else unexpected content (Shape.keyed [] .text).expected

/-! ### Records -/

/-- Passes over a node, `depth` levels deep in it. -/
def pass (doc : Document) : Nat → Reading → Except ReadError (Unit × Reading)
  | _, ⟨[], _⟩ => .error doc.ended
  | depth, ⟨⟨content, _⟩ :: rest, followed⟩ =>
      match content with
      | .listStart _ | .tableStart _ => pass doc (depth + 1) ⟨rest, followed⟩
      | .listEnd | .tableEnd =>
          if depth ≤ 1 then .ok ((), ⟨rest, followed⟩) else pass doc (depth - 1) ⟨rest, followed⟩
      | _ => if depth == 0 then .ok ((), ⟨rest, followed⟩) else pass doc depth ⟨rest, followed⟩
termination_by _ r => r.rest.length

structure FieldReader where
  key : String
  absent : Option Datum
  value : NodeReader Datum

/-- Reads fields up to the end of the record; `fuel` bounds their number. -/
def fieldsIn (doc : Document) (readers : List FieldReader) (route : Route) :
    Nat → List (String × Datum) → Reading → Except ReadError (List (String × Datum) × Reading)
  | 0, _, _ => .error doc.ended
  | fuel + 1, found, r =>
      match r.rest with
      | [] => .error doc.ended
      | ⟨.tableEnd, _⟩ :: rest => .ok (found, { r with rest := rest })
      | _ => do
          let (key, r') ← scalar doc "field identifier" acceptText route r
          let key := key.toText?.getD ""
          match readers.find? (·.key == key) with
          | none =>
              let (_, r') ← pass doc 0 r'
              fieldsIn doc readers route fuel found r'
          | some reader =>
              if (found.lookup key).isSome then refuse (.duplicateField key)
              else
                let (d, r') ← reader.value (valueRoute route r) r'
                fieldsIn doc readers route fuel ((key, d) :: found) r'

/-- The fields in their own order, with what stands for those left out. -/
def complete (found : List (String × Datum)) : List FieldReader →
    Except ReadError (List (String × Datum))
  | [] => .ok []
  | reader :: others =>
      match (found.lookup reader.key).or reader.absent with
      | some d => do return (reader.key, d) :: (← complete found others)
      | none => .error (.mismatch (.missingField reader.key) none)

def record (doc : Document) (name : String) (readers : List FieldReader) : NodeReader Datum :=
  doc.visit fun route r =>
    match r.rest with
    | [] => .error doc.ended
    | ⟨content, place⟩ :: rest =>
        located place route <|
          match content with
          | .tableStart _ => do
              let (found, r) ← fieldsIn doc readers route rest.length [] { r with rest := rest }
              return (.table (← complete found readers), r)
          | _ =>
              if isBlankContent content then do
                return (.table (← complete [] readers), { r with rest := rest })
              else unexpected content (Shape.record name .none).expected

mutual

def reader (doc : Document) : Shape → NodeReader Datum
  | .text => scalar doc Shape.text.expected acceptText
  | .path => scalar doc Shape.path.expected acceptText
  | .count kind => scalar doc kind acceptCount
  | .flag => scalar doc Shape.flag.expected acceptFlag
  | .choice variants => choice doc variants
  | .optional shape => optional doc (reader doc shape)
  | .list item => list doc (reader doc item)
  | .keyed keys value => keyed doc keys (reader doc value)
  | .record name fields => record doc name (fieldReaders doc fields)

def fieldReaders (doc : Document) : Fields → List FieldReader
  | .none => []
  | .field key shape absent others =>
      ⟨key, absent, reader doc shape⟩ :: fieldReaders doc others

end

/-- The data of the document, if they have the shape. -/
def read (doc : Document) (shape : Shape) : Except ReadError Datum := do
  let (d, _) ← reader doc shape .top ⟨doc.contents, 0⟩
  match doc.fault with
  | some fault => throw (.faulty fault)
  | none => if doc.more then throw .severalDocuments else return d

end Document

/-- The data of a text, if they have the shape. -/
def read (shape : Shape) (s : String) : Except ReadError Datum := (Document.ofText s).read shape

end Yaml
end DocClaims
