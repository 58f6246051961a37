/-!
# Claims

A claim is a name that a page of documentation mentions, filed under one of
eight categories. Categories have a canonical order, the one in which they are
declared.
-/

namespace DocClaims

inductive Category
  | classes
  | interfaces
  | methods
  | events
  | tables
  | aclResources
  | configPaths
  | filePaths
  deriving DecidableEq, Repr

namespace Category

def all : List Category :=
  [classes, interfaces, methods, events, tables, aclResources, configPaths, filePaths]

def key : Category → String
  | classes => "php_classes"
  | interfaces => "php_interfaces"
  | methods => "methods"
  | events => "events"
  | tables => "database_tables"
  | aclResources => "acl_resources"
  | configPaths => "config_paths"
  | filePaths => "file_paths"

def ofKey? (s : String) : Option Category := all.find? (·.key == s)

def label : Category → String
  | classes => "Classes"
  | interfaces => "Interfaces"
  | methods => "Methods"
  | events => "Events"
  | tables => "Tables"
  | aclResources => "ACL Resources"
  | configPaths => "Config Paths"
  | filePaths => "File Paths"

/-- Claims of the category are checked against a source tree. -/
def isValidated : Category → Bool
  | configPaths | filePaths => false
  | _ => true

def index : Category → Nat
  | classes => 0
  | interfaces => 1
  | methods => 2
  | events => 3
  | tables => 4
  | aclResources => 5
  | configPaths => 6
  | filePaths => 7

end Category

structure Claim where
  category : Category
  value : String
  deriving DecidableEq, Repr

def Claim.display (claim : Claim) : String := claim.category.key ++ ": " ++ claim.value

end DocClaims
