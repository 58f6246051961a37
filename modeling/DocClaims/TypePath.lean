import DocClaims.Rule
import DocClaims.Text.LetterCase
import DocClaims.Text.Split

/-!
# Expected paths of types

A qualified type name determines the file in which the type should be declared:
its first segment names the module, the others the path within it.
-/

namespace DocClaims

/-- A hyphen goes before an uppercase letter that begins a word: one behind a
lowercase letter or a digit, or one behind an uppercase letter and before a
lowercase one. -/
def beginsWord (before c : Char) (rest : List Char) : Bool :=
  Text.isUpper c && (Text.isLower before || Text.isAsciiDigit before ||
    (Text.isUpper before && rest.head?.any Text.isLower))

def kebabFrom (before : Char) : List Char → List Char
  | [] => []
  | c :: rest =>
      (if beginsWord before c rest then ['-'] else []) ++ Text.lowerChar c ++ kebabFrom c rest

/-- The words of a name in lowercase, joined by hyphens. -/
def kebabCase (segment : String) : String :=
  match segment.toList with
  | [] => ""
  | c :: rest => String.ofList (Text.lowerChar c ++ kebabFrom c rest)

/-- Where a type should be declared, relative to the module directory. -/
structure TypePath where
  relative : String
  shortName : String
  deriving DecidableEq, Repr

namespace TypePath

def marker (p : TypePath) : String := "class " ++ p.shortName

/-- The segments of a qualified name behind the root namespace. -/
def segments (name : String) : List String :=
  let cs := name.toList
  let inner := if qualifiedMarker.toList.isPrefixOf cs then cs.drop qualifiedMarker.length else cs
  ((Text.split '\\' inner).filter (!·.isEmpty)).map String.ofList

def ofSegments? : List String → Option TypePath
  | moduleName :: s :: rest =>
      some
        ⟨"module-" ++ kebabCase moduleName ++ "/" ++ String.intercalate "/" (s :: rest) ++ ".php",
          (s :: rest).getLast (by simp)⟩
  | _ => none

def ofName? (name : String) : Option TypePath := ofSegments? (segments name)

end TypePath
end DocClaims
