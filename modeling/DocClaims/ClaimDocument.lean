import DocClaims.ClaimSet
import DocClaims.Files.Tree
import DocClaims.Yaml.Reader
import DocClaims.Yaml.Writer

/-!
# Claim documents

The file that carries claims from extraction to validation: sorted lists by
category, and a block that later tools fill in. A document read from a file may
leave categories out and repeat values; building its claim set mends both.
-/

namespace DocClaims

structure Review where
  validated : Bool
  date : Option String
  validator : Option String
  deriving DecidableEq, Repr

namespace Review

def pending : Review := ⟨false, none, none⟩

def toDatum (r : Review) : Datum :=
  .table [("validated", .flag r.validated), ("validation_date", .optionalText r.date),
    ("validator", .optionalText r.validator)]

def shape : Shape :=
  .record "ValidationStatusBlock"
    (.field "validated" .flag (some (.flag false))
      (.field "validation_date" (.optional .text) (some .null)
        (.field "validator" (.optional .text) (some .null) .none)))

def ofDatum? (d : Datum) : Option Review := do
  some ⟨← (← d.get? "validated").toFlag?, ← (← d.get? "validation_date").toOptionalText?,
    ← (← d.get? "validator").toOptionalText?⟩

end Review

structure ClaimDocument where
  sourceDocument : String
  extractedAt : String
  claims : PerCategory (Option (List String))
  review : Review
  deriving DecidableEq, Repr

namespace ClaimDocument

def ofSet (set : ClaimSet) : ClaimDocument :=
  ⟨set.sourceDocument, set.extractedAt, set.values.map fun t => some t.toList, .pending⟩

/-- The lists that are present, in canonical order. -/
def lists (doc : ClaimDocument) : List (Category × List String) :=
  doc.claims.toList.filterMap fun (c, values) => values.map (c, ·)

def toSet (doc : ClaimDocument) : ClaimSet :=
  .ofClaims doc.sourceDocument doc.extractedAt
    (doc.lists.flatMap fun (c, values) => values.map (Claim.mk c))

def toDatum (doc : ClaimDocument) : Datum :=
  .table [("source_document", .text doc.sourceDocument), ("extracted_at", .text doc.extractedAt),
    ("claims", .table (doc.lists.map fun (c, values) => (c.key, .texts values))),
    ("validation_status", doc.review.toDatum)]

def shape : Shape :=
  .record "ClaimDocument"
    (.field "source_document" .text none
      (.field "extracted_at" .text none
        (.field "claims" (.keyed (Category.all.map Category.key) (.list .text)) (some (.table []))
          (.field "validation_status" Review.shape (some Review.pending.toDatum) .none))))

/-- A list under a key; of lists under the same key the last one counts. -/
def withList (t : PerCategory (Option (List String))) :
    String × Datum → Option (PerCategory (Option (List String)))
  | (key, d) => do some (t.set (← Category.ofKey? key) (some (← d.toTexts?)))

def ofDatum? (d : Datum) : Option ClaimDocument := do
  let claims ← (← (← d.get? "claims").toTable?).foldlM withList (PerCategory.replicate none)
  some ⟨← (← d.get? "source_document").toText?, ← (← d.get? "extracted_at").toText?, claims,
    ← Review.ofDatum? (← d.get? "validation_status")⟩

def write (doc : ClaimDocument) : String := Yaml.write doc.toDatum

inductive ReadError
  | unreadable (path : Text.Bytes) (error : FileError)
  | malformed (path : Text.Bytes) (error : Yaml.ReadError)

def ReadError.message : ReadError → String
  | unreadable path error => "reading " ++ Text.lossy path ++ ": " ++ error.message
  | malformed path error => "parsing " ++ Text.lossy path ++ ": " ++ error.message

def blank : ClaimDocument := ⟨"", "", .replicate none, .pending⟩

def parse (s : String) : Except Yaml.ReadError ClaimDocument := do
  return (ofDatum? (← Yaml.read shape s)).getD blank

def load (files : FileTree) (path : Text.Bytes) : Except ReadError ClaimDocument := do
  let text ← (files.readText path).mapError (.unreadable path)
  (parse text).mapError (.malformed path)

end ClaimDocument
end DocClaims
