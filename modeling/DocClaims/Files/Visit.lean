import DocClaims.Files.Tree

/-!
# Visiting a file tree

All that lies below a directory, depth first and ordered by the bytes of names. Links are not
followed, except for one that leads to the directory itself. A directory that cannot be listed
is visited as if it were empty, and entries of which nothing is told are left out.
-/

namespace DocClaims

open Text (Bytes)

/-- A node and the names that lead to it, outermost first. -/
structure Visit where
  names : List Bytes
  node : FileNode

/-- The path of what lies below `root` under the names, which are joined to it one by one. -/
def Path.below (root : Bytes) (names : List Bytes) : Bytes := names.foldl Path.join root

namespace FileTree

def inOrder {α : Type} (named : List (Bytes × α)) : List (Bytes × α) :=
  named.mergeSort fun a b => decide (a.1 ≤ b.1)

/-- The names in the directory that the path leads to can be read. -/
def lists (t : FileTree) (p : Bytes) : Bool :=
  match t.resolve true p with
  | .ok place => (t.limits.refusal? .list place).isNone
  | .error _ => false

def sees (t : FileTree) (place : List Bytes) : Bool := (t.limits.refusal? .see place).isNone

mutual

/-- The node and all below it, for the directory that `root` leads to and that stands at `base`;
`names` lead from there to the node, innermost first. -/
def visitsFrom (t : FileTree) (root : Bytes) (base names : List Bytes) : FileNode → List Visit
  | .directory entries =>
      ⟨names.reverse, .directory entries⟩ ::
        if t.lists (Path.below root names.reverse) then
          (inOrder (entryVisits t root base names entries)).flatMap (·.2)
        else []
  | .file bytes => [⟨names.reverse, .file bytes⟩]
  | .link target => [⟨names.reverse, .link target⟩]
  | .special bytes => [⟨names.reverse, .special bytes⟩]

def entryVisits (t : FileTree) (root : Bytes) (base names : List Bytes) :
    List (Bytes × FileNode) → List (Bytes × List Visit)
  | [] => []
  | (name, node) :: rest =>
      (name, if t.sees (name :: names ++ base) then visitsFrom t root base (name :: names) node
        else []) ::
        entryVisits t root base names rest

end

/-- All that is visited from a path on; nothing if it leads nowhere. -/
def visits (t : FileTree) (p : Bytes) : List Visit :=
  match t.find false p with
  | .ok (_, .link target) =>
      match t.find true p with
      | .ok (place, n) =>
          ⟨[], .link target⟩ :: (if n.isDirectory then (t.visitsFrom p place [] n).tail else [])
      | .error _ => []
  | .ok (place, n) => t.visitsFrom p place [] n
  | .error _ => []

end FileTree
end DocClaims
