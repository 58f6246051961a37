import DocClaims.Text.Utf8

/-!
# Files, directories and links

A directory holds named nodes. Looking a node up by its names follows no links.
-/

namespace DocClaims

open Text (Bytes)

inductive FileNode
  | file (bytes : Bytes)
  | directory (entries : List (Bytes × FileNode))
  | link (target : Bytes)
  /-- A device or the like: it gives the same bytes whenever it is read, and what is written to
  it is not kept. -/
  | special (bytes : Bytes)

namespace FileNode

def emptyDirectory : FileNode := directory []

def isFile : FileNode → Bool
  | file _ => true
  | _ => false

def isDirectory : FileNode → Bool
  | directory _ => true
  | _ => false

def child? (name : Bytes) : FileNode → Option FileNode
  | directory entries => entries.lookup name
  | _ => none

/-- The node below this one under the names, outermost first. -/
def at? (node : FileNode) : List Bytes → Option FileNode
  | [] => some node
  | name :: names => (node.child? name).bind (at? · names)

def withEntry (name : Bytes) (node : FileNode) : List (Bytes × FileNode) →
    List (Bytes × FileNode)
  | [] => [(name, node)]
  | (other, n) :: rest =>
      if other == name then (name, node) :: rest else (other, n) :: withEntry name node rest

def entries : FileNode → List (Bytes × FileNode)
  | directory entries => entries
  | _ => []

/-- Puts a node under the names; what is not a directory on the way becomes one. -/
def put (node : FileNode) (new : FileNode) : List Bytes → FileNode
  | [] => new
  | name :: names =>
      let inner := ((node.child? name).getD emptyDirectory).put new names
      directory (withEntry name inner node.entries)

def remove (node : FileNode) : List Bytes → FileNode
  | [] => node
  | [name] => directory (node.entries.filter (·.1 != name))
  | name :: names =>
      match node.child? name with
      | some inner => directory (withEntry name (inner.remove names) node.entries)
      | none => node

end FileNode
end DocClaims
