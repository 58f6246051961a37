import DocClaims.Claim
import DocClaims.Pattern.Search
import DocClaims.Text.Lines

/-!
# Classification rules

Each rule looks for one pattern and decides which of the values found are
claims, and of which category. Rules do not know of each other: one stretch of
text may give claims of several.
-/

namespace DocClaims

def rootNamespace : String := "Magento"

def qualifiedMarker : String := "Magento\\"

inductive Rule
  | qualifiedName
  | method
  | event
  | table
  | aclResource
  | configPath
  | filePath
  deriving DecidableEq, Repr

namespace Rule

open Pattern CharSet

/-- The rules, in the order in which they are applied. -/
def all : List Rule := [qualifiedName, method, event, table, aclResource, configPath, filePath]

def name : Rule → String
  | qualifiedName => "qualified_name"
  | method => "method"
  | event => "event"
  | table => "table"
  | aclResource => "acl_resource"
  | configPath => "config_path"
  | filePath => "file_path"

def ofName? (s : String) : Option Rule := all.find? (·.name == s)

def lowerSet : CharSet := oneOf [.range 'a' 'z']

def lowerUnderSet : CharSet := oneOf [.range 'a' 'z', .one '_']

def letterSet : CharSet := oneOf [.range 'A' 'Z', .range 'a' 'z']

def tableName (stem : String) : Pattern := literal stem ++ run 1 lowerUnderSet

def pattern : Rule → Pattern
  | qualifiedName =>
      literal "Magento\\" ++
        (run 1 (oneOf [.range 'A' 'Z', .range 'a' 'z', .range '0' '9', .one '\\']) ++
          run 1 (oneOf [.range 'A' 'Z', .range 'a' 'z', .range '0' '9']))
  | method =>
      group (one lowerSet ++
          run 0 (oneOf [.range 'a' 'z', .range 'A' 'Z', .range '0' '9', .one '_'])) ++
        (run 0 blank ++ (literal "(" ++ (run 0 (noneOf [.one ')']) ++ (literal ")" ++
          optional (run 0 blank ++ (literal ":" ++ (run 0 blank ++
            run 1 (oneOf [.range 'A' 'Z', .range 'a' 'z', .one '\\']))))))))
  | event =>
      boundary ++ (group (run 1 lowerSet ++ (literal "_" ++ run 1 lowerUnderSet)) ++ boundary)
  | table =>
      boundary ++ (group (either (tableName "customer_") (either (tableName "eav_")
        (either (tableName "sales_") (tableName "quote_")))) ++ boundary)
  | aclResource =>
      literal "Magento_" ++ (run 1 letterSet ++ (literal "::" ++ run 1 lowerUnderSet))
  | configPath =>
      boundary ++ (group (run 1 lowerSet ++ (literal "/" ++ (run 1 lowerUnderSet ++
        optional (literal "/" ++ run 1 lowerUnderSet)))) ++ boundary)
  | filePath =>
      either (literal "etc") (either (literal "Model") (either (literal "Block")
        (either (literal "Controller") (either (literal "Helper") (either (literal "Observer")
          (literal "Plugin")))))) ++
        (literal "/" ++
          (run 1 (oneOf [.range 'A' 'Z', .range 'a' 'z', .range '0' '9', .one '_', .one '/']) ++
            (literal "." ++ either (literal "xml") (literal "php"))))

def lastSegment (value : String) : List Char :=
  (value.toList.reverse.takeWhile (· != '\\')).reverse

def methodKeywords : List String := ["function", "public", "private", "protected"]

def eventDenylist : List String := ["the_core", "full_page", "per_website", "primary_key"]

/-- An event is named with at least one of these. -/
def eventKeywords : List String :=
  ["save", "delete", "load", "login", "logout", "customer", "before", "after"]

def accept : Rule → String → Option Category
  | qualifiedName, value =>
      if "Interface".toList.isSuffixOf (lastSegment value) then some .interfaces
      else some .classes
  | method, value =>
      if value.utf8ByteSize ≤ 2 || methodKeywords.contains value then none else some .methods
  | event, value =>
      if !Text.contains value "_" || eventDenylist.contains value then none
      else if !eventKeywords.any (Text.contains value) then none
      else some .events
  | table, _ => some .tables
  | aclResource, _ => some .aclResources
  | configPath, value =>
      if !Text.contains value "/" || "http".toList.isPrefixOf value.toList then none
      else some .configPaths
  | filePath, _ => some .filePaths

/-- The claims found in a text, in the order in which they are found. -/
def claims (rule : Rule) (text : String) : List Claim :=
  (rule.pattern.values text.toList).filterMap fun found =>
    let value := String.ofList found
    (rule.accept value).map (Claim.mk · value)

end Rule

def classify (text : String) : List Claim := Rule.all.flatMap (·.claims text)

end DocClaims
