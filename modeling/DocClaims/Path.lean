import DocClaims.Text.Split
import DocClaims.Text.Utf8

/-!
# Paths

A path is a sequence of bytes, whose segments are separated by slashes. Empty segments and
single dots say nothing, except for a dot that begins a relative path. Paths are
compared by their components, not by their bytes, and shown as texts.
-/

namespace DocClaims

inductive Component
  | root
  | here
  | up
  | name (s : Text.Bytes)
  deriving DecidableEq, Repr

def Component.name? : Component → Option Text.Bytes
  | .name s => some s
  | _ => none

namespace Path

open Text (Bytes)

def slash : UInt8 := 47

def dot : UInt8 := 46

def isAbsolute (p : Bytes) : Bool := p.head? == some slash

def segments (p : Bytes) : List Bytes := Text.split slash p

/-- The component of a segment that is not the first of its path. -/
def component? (s : Bytes) : Option Component :=
  if s == [] || s == [dot] then none else if s == [dot, dot] then some .up else some (.name s)

/-- How the components of a path begin, before those of its segments. -/
def start (p : Bytes) : List Component :=
  if isAbsolute p then [.root] else if (segments p).head? == some [dot] then [.here] else []

def components (p : Bytes) : List Component := start p ++ (segments p).filterMap component?

def join (p q : Bytes) : Bytes :=
  if isAbsolute q then q
  else if p == [] || p.getLast? == some slash then p ++ q
  else p ++ slash :: q

/-- The names among the components, as texts separated by slashes. -/
def plain (components : List Component) : String :=
  String.intercalate "/" ((components.filterMap Component.name?).map Text.lossy)

/-- What is left of `q` below `p`, or all of `q` when it is not below `p`. -/
def relativize (p q : Bytes) : String :=
  let below := components p
  let inner := components q
  plain (if below.isPrefixOf inner then inner.drop below.length else inner)

/-- The segments in reverse, without those at the end that say nothing. -/
def dropSilent (absolute : Bool) : List Bytes → List Bytes
  | [] => []
  | s :: rest =>
      if s == [] || (s == [dot] && (absolute || !rest.isEmpty)) then dropSilent absolute rest
      else s :: rest

/-- The path without its last component, if it has one that is not the root. -/
def parent? (p : Bytes) : Option Bytes :=
  let absolute := isAbsolute p
  match dropSilent absolute (segments p).reverse with
  | [] => none
  | _ :: others =>
      match dropSilent absolute others with
      | [] => some (if absolute then [slash] else [])
      | l => some ([slash].intercalate l.reverse)

def fileName? (p : Bytes) : Option Bytes := (components p).getLast?.bind Component.name?

/-- A file name up to its last dot; a dot that begins the name is part of it. -/
def stem (name : Bytes) : Bytes :=
  match (name.reverse.dropWhile (· != dot)).drop 1 with
  | [] => name
  | before => before.reverse

end Path
end DocClaims
