import DocClaims.Scanner
import DocClaims.Search.Backend
import DocClaims.Yaml.Reader

/-!
# Configuration

Every setting has a default, so an empty text is a configuration. What is read
is checked once for values that no run could use.
-/

namespace DocClaims

structure ValidationSettings where
  sourceRoot : Option String
  /-- Directories below the source root that may hold the modules, in order. -/
  vendorPaths : List String
  markerModule : String
  jobs : Nat
  deriving DecidableEq, Repr

structure SearchSettings where
  /-- Names of backends, in order of preference. -/
  backends : List String
  timeoutSecs : Nat
  sourceExtensions : List String
  markupExtensions : List String
  deriving DecidableEq, Repr

structure Config where
  version : String
  verbatimTags : List String
  validation : ValidationSettings
  search : SearchSettings
  deriving DecidableEq, Repr

namespace ValidationSettings

def standard : ValidationSettings :=
  ⟨none, ["vendor/magento", "vendor/mage-os", "."], "module-customer", 0⟩

def toDatum (v : ValidationSettings) : Datum :=
  .table [("source_root", .optionalText v.sourceRoot), ("vendor_paths", .texts v.vendorPaths),
    ("marker_module", .text v.markerModule), ("jobs", .count v.jobs)]

def shape : Shape :=
  .record "ValidationConfig"
    (.field "source_root" (.optional .path) (some .null)
      (.field "vendor_paths" (.list .text) (some (.texts standard.vendorPaths))
        (.field "marker_module" .text (some (.text standard.markerModule))
          (.field "jobs" (.count "usize") (some (.count standard.jobs)) .none))))

def ofDatum? (d : Datum) : Option ValidationSettings := do
  some ⟨← (← d.get? "source_root").toOptionalText?, ← (← d.get? "vendor_paths").toTexts?,
    ← (← d.get? "marker_module").toText?, ← (← d.get? "jobs").toCount?⟩

end ValidationSettings

namespace SearchSettings

def standard : SearchSettings := ⟨["ripgrep", "grep"], 10, ["php"], ["xml"]⟩

def toDatum (s : SearchSettings) : Datum :=
  .table [("backends", .texts s.backends), ("timeout_secs", .count s.timeoutSecs),
    ("source_extensions", .texts s.sourceExtensions),
    ("markup_extensions", .texts s.markupExtensions)]

def shape : Shape :=
  .record "SearchConfig"
    (.field "backends" (.list .text) (some (.texts standard.backends))
      (.field "timeout_secs" (.count "u64") (some (.count standard.timeoutSecs))
        (.field "source_extensions" (.list .text) (some (.texts standard.sourceExtensions))
          (.field "markup_extensions" (.list .text) (some (.texts standard.markupExtensions))
            .none))))

def ofDatum? (d : Datum) : Option SearchSettings := do
  some ⟨← (← d.get? "backends").toTexts?, ← (← d.get? "timeout_secs").toCount?,
    ← (← d.get? "source_extensions").toTexts?, ← (← d.get? "markup_extensions").toTexts?⟩

end SearchSettings

namespace Config

def standard : Config := ⟨"", Scanner.defaultVerbatimTags, .standard, .standard⟩

def extractionDatum (tags : List String) : Datum := .table [("verbatim_tags", .texts tags)]

def toDatum (c : Config) : Datum :=
  .table [("version", .text c.version), ("extraction", extractionDatum c.verbatimTags),
    ("validation", c.validation.toDatum), ("search", c.search.toDatum)]

def extractionShape : Shape :=
  .record "ExtractionConfig"
    (.field "verbatim_tags" (.list .text) (some (.texts Scanner.defaultVerbatimTags)) .none)

def shape : Shape :=
  .record "Config"
    (.field "version" .text (some (.text standard.version))
      (.field "extraction" extractionShape (some (extractionDatum Scanner.defaultVerbatimTags))
        (.field "validation" ValidationSettings.shape (some ValidationSettings.standard.toDatum)
          (.field "search" SearchSettings.shape (some SearchSettings.standard.toDatum) .none))))

def ofDatum? (d : Datum) : Option Config := do
  some ⟨← (← d.get? "version").toText?,
    ← (← (← d.get? "extraction").get? "verbatim_tags").toTexts?,
    ← ValidationSettings.ofDatum? (← d.get? "validation"),
    ← SearchSettings.ofDatum? (← d.get? "search")⟩

/-- Reads a configuration; a blank text is the standard one. -/
def parse (s : String) : Except Yaml.ReadError Config :=
  if Text.allBlank s then .ok standard
  else do return ((ofDatum? (← Yaml.read shape s)).getD standard)

end Config

inductive ConfigProblem
  | noVerbatimTags
  | noVendorPaths
  | noMarkerModule
  | noBackends
  | unknownBackend (name : String)
  | zeroTimeout
  | noExtensions
  | badExtension (extension : String)
  deriving DecidableEq, Repr

def ConfigProblem.message : ConfigProblem → String
  | noVerbatimTags => "extraction.verbatim_tags must not be empty"
  | noVendorPaths => "validation.vendor_paths must not be empty"
  | noMarkerModule => "validation.marker_module must not be empty"
  | noBackends => "search.backends must name at least one backend"
  | unknownBackend name => "invalid search backend: " ++ Backend.unknownMessage name
  | zeroTimeout => "search.timeout_secs must be greater than zero"
  | noExtensions => "search.source_extensions and search.markup_extensions must not be empty"
  | badExtension extension =>
      "invalid file extension " ++ Text.quoted extension ++
        ", use a bare extension like \"php\""

namespace Config

def isBadExtension (extension : String) : Bool :=
  extension.isEmpty || extension.toList.any fun c => c == '/' || c == '*' || c == '.'

def problem? (c : Config) : Option ConfigProblem :=
  if c.verbatimTags.isEmpty then some .noVerbatimTags
  else if c.validation.vendorPaths.isEmpty then some .noVendorPaths
  else if Text.allBlank c.validation.markerModule then some .noMarkerModule
  else if c.search.backends.isEmpty then some .noBackends
  else
    match c.search.backends.find? fun name => (Backend.ofName? name).isNone with
    | some name => some (.unknownBackend name)
    | none =>
        if c.search.timeoutSecs == 0 then some .zeroTimeout
        else if c.search.sourceExtensions.isEmpty || c.search.markupExtensions.isEmpty then
          some .noExtensions
        else
          ((c.search.sourceExtensions ++ c.search.markupExtensions).find? isBadExtension).map
            .badExtension

end Config
end DocClaims
