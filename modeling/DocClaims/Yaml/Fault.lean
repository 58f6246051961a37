/-!
# Faults of YAML texts

What can be wrong with a text before its meaning is asked for. A fault names a
problem and its place, and mostly what was being read and where that began.
-/

namespace DocClaims
namespace Yaml

/-- A place in a text; characters, lines and columns count from zero. -/
structure Place where
  index : Nat
  line : Nat
  column : Nat
  deriving DecidableEq, Repr

namespace Place

def origin : Place := ⟨0, 0, 0⟩

def forward (p : Place) (n : Nat) : Place := ⟨p.index + n, p.line, p.column + n⟩

def next (p : Place) : Place := p.forward 1

def silent (p : Place) : Place := ⟨p.index + 1, p.line, p.column⟩

def newLine (p : Place) : Place := ⟨p.index + 1, p.line + 1, 0⟩

def isStart (p : Place) : Bool := p.line == 0 && p.column == 0

/-- The place in words, unless it is the start of the text. -/
def suffix (p : Place) : String :=
  if p.isStart then ""
  else " at line " ++ toString (p.line + 1) ++ " column " ++ toString (p.column + 1)

end Place

inductive Problem
  | keyWithoutColon
  | noToken
  | entryNotAllowed
  | keyNotAllowed
  | valueNotAllowed
  | unknownDirective
  | textBehind
  | noDirectiveName
  | badDirectiveName
  | badVersion
  | longVersion
  | noVersion
  | noBlank
  | noBlankOrBreak
  | badAnchor
  | noAngle
  | noBang
  | noTagUri
  | noOctet
  | badFirstOctet
  | badLaterOctet
  | zeroIndentation
  | tabInIndentation
  | documentMark
  | unfinished
  | unknownEscape
  | badHex
  | badCodePoint
  | unexpectedColon
  | tabBelowIndentation
  | noDocumentStart
  | undefinedTagHandle
  | noNode
  | noDash
  | noKey
  | noListEnd
  | noTableEnd
  | duplicateVersion
  | incompatibleVersion
  | duplicateTagHandle
  deriving DecidableEq, Repr

def Problem.text : Problem → String
  | keyWithoutColon => "could not find expected ':'"
  | noToken => "found character that cannot start any token"
  | entryNotAllowed => "block sequence entries are not allowed in this context"
  | keyNotAllowed => "mapping keys are not allowed in this context"
  | valueNotAllowed => "mapping values are not allowed in this context"
  | unknownDirective => "found unknown directive name"
  | textBehind => "did not find expected comment or line break"
  | noDirectiveName => "could not find expected directive name"
  | badDirectiveName => "found unexpected non-alphabetical character"
  | badVersion => "did not find expected digit or '.' character"
  | longVersion => "found extremely long version number"
  | noVersion => "did not find expected version number"
  | noBlank => "did not find expected whitespace"
  | noBlankOrBreak => "did not find expected whitespace or line break"
  | badAnchor => "did not find expected alphabetic or numeric character"
  | noAngle => "did not find the expected '>'"
  | noBang => "did not find expected '!'"
  | noTagUri => "did not find expected tag URI"
  | noOctet => "did not find URI escaped octet"
  | badFirstOctet => "found an incorrect leading UTF-8 octet"
  | badLaterOctet => "found an incorrect trailing UTF-8 octet"
  | zeroIndentation => "found an indentation indicator equal to 0"
  | tabInIndentation => "found a tab character where an indentation space is expected"
  | documentMark => "found unexpected document indicator"
  | unfinished => "found unexpected end of stream"
  | unknownEscape => "found unknown escape character"
  | badHex => "did not find expected hexdecimal number"
  | badCodePoint => "found invalid Unicode character escape code"
  | unexpectedColon => "found unexpected ':'"
  | tabBelowIndentation => "found a tab character that violates indentation"
  | noDocumentStart => "did not find expected <document start>"
  | undefinedTagHandle => "found undefined tag handle"
  | noNode => "did not find expected node content"
  | noDash => "did not find expected '-' indicator"
  | noKey => "did not find expected key"
  | noListEnd => "did not find expected ',' or ']'"
  | noTableEnd => "did not find expected ',' or '\x7d'"
  | duplicateVersion => "found duplicate %YAML directive"
  | incompatibleVersion => "found incompatible YAML document"
  | duplicateTagHandle => "found duplicate %TAG directive"

inductive Activity
  | simpleKey
  | nextToken
  | directive
  | versionDirective
  | tagDirective
  | tagHandle
  | tagExpansion
  | anchor
  | reference
  | tag
  | tagUri
  | blockScalar
  | quotedScalar
  | escape
  | plainScalar
  | node
  | blockNode
  | flowNode
  | blockList
  | blockTable
  | flowList
  | flowTable
  deriving DecidableEq, Repr

def Activity.text : Activity → String
  | simpleKey => "while scanning a simple key"
  | nextToken => "while scanning for the next token"
  | directive => "while scanning a directive"
  | versionDirective => "while scanning a %YAML directive"
  | tagDirective => "while scanning a %TAG directive"
  | tagHandle => "while parsing a tag directive"
  | tagExpansion => "while parsing a %TAG directive"
  | anchor => "while scanning an anchor"
  | reference => "while scanning an alias"
  | tag => "while scanning a tag"
  | tagUri => "while parsing a tag"
  | blockScalar => "while scanning a block scalar"
  | quotedScalar => "while scanning a quoted scalar"
  | escape => "while parsing a quoted scalar"
  | plainScalar => "while scanning a plain scalar"
  | node => "while parsing a node"
  | blockNode => "while parsing a block node"
  | flowNode => "while parsing a flow node"
  | blockList => "while parsing a block collection"
  | blockTable => "while parsing a block mapping"
  | flowList => "while parsing a flow sequence"
  | flowTable => "while parsing a flow mapping"

inductive Fault
  /-- A control character; the position counts bytes. -/
  | controlCharacter (position : Nat)
  | misplaced (problem : Problem) (place : Place)
  | interrupted (problem : Problem) (place : Place) (activity : Activity) (start : Place)
  deriving DecidableEq, Repr

/-- The start of the activity is named unless it is the start of the text or the
place of the problem. -/
def Fault.message : Fault → String
  | controlCharacter position =>
      "control characters are not allowed" ++
        (if position == 0 then "" else " at position " ++ toString position)
  | misplaced problem place => problem.text ++ place.suffix
  | interrupted problem place activity start =>
      problem.text ++ place.suffix ++ ", " ++ activity.text ++
        (if start.line == place.line && start.column == place.column then "" else start.suffix)

end Yaml
end DocClaims
