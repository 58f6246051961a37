import DocClaims.Json.Reader
import DocClaims.Json.Writer
import DocClaims.Report.Basic
import DocClaims.Text.LetterCase
import DocClaims.Yaml.Reader
import DocClaims.Yaml.Writer

/-!
# Report files

A report is written as YAML or as JSON.
-/

namespace DocClaims

inductive Format
  | yaml
  | json
  deriving DecidableEq, Repr

namespace Format

/-- Names are read without regard to letter case. -/
def ofName? (s : String) : Option Format :=
  match Text.lower s with
  | "yaml" | "yml" => some yaml
  | "json" => some json
  | _ => none

def extension : Format → String
  | yaml => "yaml"
  | json => "json"

def write : Format → Datum → String
  | yaml, d => Yaml.write d
  | json, d => Json.write d

end Format

def Report.render (r : Report) (format : Format) : String := format.write r.toDatum

namespace Report

def blank : Report := ⟨"", "", "", .zero, .replicate none⟩

def parseYaml (s : String) : Except Yaml.ReadError Report := do
  return (ofDatum? (← Yaml.read shape s)).getD blank

def parseJson (s : String) : Except Json.ReadError Report := do
  return (ofDatum? (← Json.read shape s)).getD blank

end Report
end DocClaims
