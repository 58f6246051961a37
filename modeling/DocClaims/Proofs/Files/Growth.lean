import DocClaims.Proofs.Files.Ways

/-!
# Trees that grow

A tree is kept in another one if all that stands in it stands there, too, at the same places: its
files with the same bytes, its directories, which may have more entries, and its links; and if
what may be done with these may be done there. Whatever a path leads to in the first tree, it
leads to in the second, and what a search comes to in the first, it comes to in the second.
-/

namespace DocClaims

open Text (Bytes)

namespace FileTree

variable {t t' : FileTree} {base names more : List Bytes} {p root bytes : Bytes}
  {node found : FileNode}

/-- What stands in the first tree stands in the second. -/
structure KeptIn (t t' : FileTree) : Prop where
  here_eq : t'.here = t.here
  standing? : ∀ place standing, t.standing? place = some standing →
    t'.standing? place = some standing
  allows : ∀ deed place, (t.nodeAt? place).isSome → t.limits.refusal? deed place = none →
    t'.limits.refusal? deed place = none

namespace KeptIn

variable (h : t.KeptIn t')
include h

theorem shapedIn : t.ShapedIn t' where
  here_eq := h.here_eq
  standing? := fun place standing hstanding => .inl (h.standing? place standing hstanding)
  allows := h.allows

theorem exists_nodeAt? {place : List Bytes} (hnode : t.nodeAt? place = some node) :
    ∃ node', t'.nodeAt? place = some node' ∧ node'.standing = node.standing :=
  Option.map_eq_some_iff.1 (h.standing? _ _ (standing?_eq_some hnode))

theorem read (hread : t.read p = .ok bytes) : t'.read p = .ok bytes := by
  rw [read_eq_ok_iff] at hread ⊢
  obtain ⟨place, node, hfind, hallowed, hbytes⟩ := hread
  obtain ⟨hplace, hnode⟩ := find_eq_ok_iff.1 hfind
  obtain ⟨node', hnode', hstanding⟩ := h.exists_nodeAt? hnode
  refine ⟨place, node', find_eq_ok_iff.2 ⟨h.shapedIn.resolve hplace, hnode'⟩,
    h.allows _ _ (by rw [hnode]; rfl) hallowed, ?_⟩
  rw [← hbytes]
  cases node with
  | file bytes => rw [FileNode.standing_eq_file_iff.1 hstanding]
  | special bytes => rw [FileNode.standing_eq_special_iff.1 hstanding]
  | directory | link => cases hbytes

theorem holdsFile (hfile : t.HoldsFile root names bytes) : t'.HoldsFile root names bytes := by
  have hkept {place : List Bytes} (hnode : t.nodeAt? place = some (.file bytes)) :
      t'.nodeAt? place = some (.file bytes) := by
    rw [← standing?_eq_file_iff] at hnode ⊢
    exact h.standing? _ _ hnode
  cases hfile with
  | itself hitself =>
      obtain ⟨place, hplace, hfile⟩ := node_eq_ok_iff.1 hitself
      exact .itself (node_eq_ok_iff.2 ⟨place, h.shapedIn.resolve hplace, hkept hfile⟩)
  | below hnode hnames hfile =>
      obtain ⟨place, hplace, hentry⟩ := node_eq_ok_iff.1 hnode
      have hinner := t.nodeAt?_append names place
      rw [hentry, Option.bind_some, hfile] at hinner
      have hinner' := hkept hinner
      rw [nodeAt?_append, Option.bind_eq_some_iff] at hinner'
      obtain ⟨node', hentry', hfile'⟩ := hinner'
      exact .below (node_eq_ok_iff.2 ⟨place, h.shapedIn.resolve hplace, hentry'⟩) hnames hfile'

theorem lists (hlists : t.lists p = true) : t'.lists p = true := by
  rw [FileTree.lists] at hlists ⊢
  cases hplace : t.resolve true p with
  | error e =>
      rw [hplace] at hlists
      cases hlists
  | ok place =>
      rw [hplace, Option.isNone_iff_eq_none] at hlists
      rw [h.shapedIn.resolve hplace, Option.isNone_iff_eq_none]
      exact h.allows _ _ (isSome_nodeAt?_of_resolve hplace) hlists

theorem sees {place : List Bytes} (hnode : (t.nodeAt? place).isSome)
    (hsees : t.sees place = true) : t'.sees place = true := by
  rw [FileTree.sees, Option.isNone_iff_eq_none] at hsees ⊢
  exact h.allows _ _ hnode hsees

theorem reachesFrom (hnode : t.nodeAt? (names ++ base) = some node)
    (hfound : node.at? more = some found) (hreached : t.ReachesFrom root base names more) :
    t'.ReachesFrom root base names more := by
  induction more generalizing names node with
  | nil => trivial
  | cons name more ih =>
      obtain ⟨child, hchild, hbelow⟩ := Option.bind_eq_some_iff.1 hfound
      obtain ⟨⟨hlists, hsees⟩, hreached⟩ := hreached
      have hentry : t.nodeAt? (name :: names ++ base) = some child := by
        have hone := t.nodeAt?_append [name] (names ++ base)
        rw [List.reverse_singleton, List.singleton_append, hnode] at hone
        simpa [FileNode.at?, hchild] using hone
      exact ⟨⟨h.lists hlists, h.sees (by rw [hentry]; rfl) hsees⟩, ih hentry hbelow hreached⟩

theorem reaches (hheld : t.Holds root names found) (hnot : ∀ target, found ≠ .link target)
    (hreached : t.Reaches root names) : t'.Reaches root names := by
  obtain ⟨place, hplace, hinner⟩ := hheld.exists_nodeAt? hnot
  rw [nodeAt?_append, Option.bind_eq_some_iff] at hinner
  obtain ⟨node, hnode, hfound⟩ := hinner
  intro place' hplace'
  obtain rfl := Except.ok.inj ((h.shapedIn.resolve hplace).symm.trans hplace')
  exact h.reachesFrom hnode hfound (hreached place hplace)

end KeptIn
end FileTree
end DocClaims
