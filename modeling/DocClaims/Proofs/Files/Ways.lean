import DocClaims.Proofs.Files.Visits

/-!
# Ways below a directory

A path that is joined to a directory leads on from there. Where its segments are names and no
link is met, it leads to the place that has these names below the directory, so that what is read
there is held by the directory. Through a segment of dots, or a link, it may leave the directory.
-/

namespace DocClaims

open Text (Bytes)

namespace FileNode

/-- Going from the node by the names, one meets no link. -/
def Unlinked : FileNode → List Bytes → Prop
  | _, [] => True
  | node, name :: names =>
      ∀ child, node.child? name = some child →
        (∀ target, child ≠ link target) ∧ child.Unlinked names

/-- No link is on the way to a node that is none. -/
theorem unlinked_of_at? {node found : FileNode} {names : List Bytes}
    (h : node.at? names = some found) (hnot : ∀ target, found ≠ link target) :
    node.Unlinked names := by
  induction names generalizing node with
  | nil => trivial
  | cons name names ih =>
      obtain ⟨child, hchild, hbelow⟩ := Option.bind_eq_some_iff.1 h
      intro other hother
      obtain rfl : child = other := Option.some.inj (hchild.symm.trans hother)
      refine ⟨?_, ih hbelow⟩
      rintro target rfl
      cases names with
      | nil => exact hnot target (Option.some.inj hbelow).symm
      | cons => cases hbelow

end FileNode

namespace Path

variable {root name rel : Bytes} {names : List Bytes}

theorem join_of_relative (h : isAbsolute rel = false) :
    join root rel =
      (if root = [] ∨ root.getLast? = some slash then root else root ++ [slash]) ++ rel := by
  rw [join, h, if_neg (by decide)]
  simp only [Bool.or_eq_true, beq_iff_eq]
  split
  · rfl
  · rw [List.append_assoc, List.singleton_append]

/-- A name and what follows it can be joined to a path one by one. -/
theorem join_join (hname : IsPlainName name) (hrel : isAbsolute rel = false) :
    join (join root name) rel = join root (name ++ slash :: rel) := by
  have hone := isAbsolute_of_isPlainName hname
  have hopen : ¬(join root name = [] ∨ (join root name).getLast? = some slash) := by
    rw [join_of_relative hone]
    rintro (hnil | hlast)
    · exact hname.1.1 (List.append_eq_nil_iff.1 hnil).2
    · rw [List.getLast?_append_of_ne_nil _ hname.1.1] at hlast
      exact hname.2 (List.mem_of_getLast? hlast)
  rw [join_of_relative hrel, if_neg hopen, join_of_relative hone,
    join_of_relative (isAbsolute_append hname _)]
  simp only [List.append_assoc, List.singleton_append]

/-- Names that are joined to a path one by one make the path that they make together. -/
theorem below_eq_join (h : ∀ name ∈ names, IsPlainName name) (hne : names ≠ []) :
    below root names = join root ([slash].intercalate names) := by
  induction names generalizing root with
  | nil => exact absurd rfl hne
  | cons name rest ih =>
      obtain ⟨hname, hrest⟩ := List.forall_mem_cons.1 h
      cases rest with
      | nil => rw [List.intercalate_singleton, below, List.foldl_cons, List.foldl_nil]
      | cons other rest =>
          have hbelow : below root (name :: other :: rest) =
              below (join root name) (other :: rest) := rfl
          rw [hbelow, ih hrest (List.cons_ne_nil _ _), join_join hname (isAbsolute_names hrest),
            List.intercalate_cons_cons, List.append_assoc, List.singleton_append]

/-- What is left of a path below its root are the names, as far as they can be read. -/
theorem relativize_below (h : ∀ name ∈ names, IsPlainName name) (root : Bytes) :
    relativize root (below root names) = String.intercalate "/" (names.map Text.lossy) := by
  rw [← plain_names]
  apply relativize_of_components
  by_cases hne : names = []
  · rw [hne]
    exact (List.append_nil _).symm
  · rw [below_eq_join h hne, components_join_names h]

end Path

namespace FileTree

variable {t : FileTree} {follow : Bool} {links : Nat} {place found names segments : List Bytes}
  {name root rel p bytes : Bytes} {node inner : FileNode}

/-- A path that is joined to another one leads on from where that one leads. -/
theorem exists_way_of_join (hrel : Path.isAbsolute rel = false)
    (hroot : t.resolve true root = .ok place)
    (h : t.resolve true (Path.join root rel) = .ok found) :
    ∃ left, t.Way true found left place (Path.segments rel) := by
  have hne := ne_nil_of_resolve hroot
  obtain ⟨front, back, hsegments, hback, hjoin⟩ := Path.exists_segments_join hrel hne
  have hstart : t.startOf (Path.join root rel) = t.startOf root := by
    rw [startOf, Path.isAbsolute_join hrel hne, startOf]
  have hway := way_of_resolve hroot
  have hway' := way_of_resolve h
  rw [hstart, hjoin] at hway'
  obtain ⟨mid, left, hmid, hlast⟩ := hway.exists_of_append hsegments
  obtain ⟨mid', left', hmid', hbelow⟩ := hway'.exists_of_append rfl
  obtain rfl : mid = mid' := hmid.eq hmid'
  obtain rfl := hlast.eq_of_silent fun s hs => .inl (hback s hs)
  exact ⟨left', hbelow⟩

/-! ### Ways by names -/

theorem child?_of_nodeAt? {child : FileNode} (hnode : t.nodeAt? place = some node)
    (hchild : t.nodeAt? (name :: place) = some child) : node.child? name = some child := by
  have hbelow := t.nodeAt?_append [name] place
  rw [List.reverse_singleton, List.singleton_append, hchild, hnode] at hbelow
  simpa [FileNode.at?] using hbelow.symm

/-- A way by names without links leads to the place that has these names. -/
theorem Way.eq_of_names (h : t.Way true found links place names)
    (hnode : t.nodeAt? place = some node) (hnames : ∀ s ∈ names, Path.IsName s)
    (hlinks : node.Unlinked names) : found = names.reverse ++ place := by
  induction h generalizing node with
  | finish => rfl
  | unfollowed _ _ _ hfollow => cases hfollow
  | silent _ hsilent => exact absurd hsilent (hnames _ List.mem_cons_self).not_isSilent
  | up => exact absurd rfl (hnames _ List.mem_cons_self).2.2
  | link _ _ hchild =>
      obtain ⟨hlink, -⟩ := hlinks _ (child?_of_nodeAt? hnode hchild)
      exact absurd rfl (hlink _)
  | entry _ _ hchild _ _ ih =>
      obtain ⟨-, hbelow⟩ := hlinks _ (child?_of_nodeAt? hnode hchild)
      obtain ⟨-, hnames⟩ := List.forall_mem_cons.1 hnames
      rw [ih hchild hnames hbelow, List.reverse_cons, List.append_assoc, List.singleton_append]

/-- No link is on the way by the names below the path. -/
def Unlinked (t : FileTree) (root : Bytes) (names : List Bytes) : Prop :=
  ∀ node, t.node true root = .ok node → node.Unlinked names

/-- Below a directory, a path of names without links reads what that directory holds. -/
theorem holds_of_read (hroot : t.isDirectory root = true) (hrel : Path.isAbsolute rel = false)
    (hnames : ∀ s ∈ Path.segments rel, Path.IsName s)
    (hlinks : t.Unlinked root (Path.segments rel))
    (h : t.read (Path.join root rel) = .ok bytes) :
    ∃ found, t.Holds root (Path.segments rel) found ∧ found.bytes? = some bytes := by
  obtain ⟨node, hnode⟩ : ∃ node, t.node true root = .ok node := by
    rw [isDirectory] at hroot
    cases hnode : t.node true root with
    | ok node => exact ⟨node, rfl⟩
    | error e => simp [hnode] at hroot
  obtain ⟨place, hplace, hentry⟩ := node_eq_ok_iff.1 hnode
  obtain ⟨found, inner, hfind, -, hbytes⟩ := read_eq_ok_iff.1 h
  obtain ⟨hfound, hinner⟩ := find_eq_ok_iff.1 hfind
  obtain ⟨left, hway⟩ := exists_way_of_join hrel hplace hfound
  have hbelow := hway.eq_of_names hentry hnames (hlinks node hnode)
  rw [hbelow, nodeAt?_append, hentry, Option.bind_some] at hinner
  exact ⟨inner, .below hnode (Path.segments_ne_nil rel) hinner, hbytes⟩

/-- What is held under names is what the path of these names reads, if that can be read. -/
theorem Holds.bytes?_eq (h : t.Holds root names inner) (hwell : t.root.WellNamed)
    (hnot : ∀ target, inner ≠ .link target) (hread : t.read (Path.below root names) = .ok bytes) :
    inner.bytes? = some bytes := by
  have hplain := h.isPlainName hwell
  obtain ⟨place, hplace, hinner⟩ := h.exists_nodeAt? hnot
  obtain ⟨found, node, hfind, -, hbytes⟩ := read_eq_ok_iff.1 hread
  obtain ⟨hfound, hnode⟩ := find_eq_ok_iff.1 hfind
  obtain rfl : found = names.reverse ++ place := by
    by_cases hne : names = []
    · subst hne
      exact Except.ok.inj (hfound.symm.trans hplace)
    · rw [Path.below_eq_join hplain hne] at hfound
      obtain ⟨left, hway⟩ := exists_way_of_join (Path.isAbsolute_names hplain) hplace hfound
      rw [Path.segments_names hplain hne] at hway
      rw [nodeAt?_append, Option.bind_eq_some_iff] at hinner
      obtain ⟨top, htop, hbelow⟩ := hinner
      exact hway.eq_of_names htop (fun s hs => (hplain s hs).1)
        (FileNode.unlinked_of_at? hbelow hnot)
  obtain rfl := Option.some.inj (hnode.symm.trans hinner)
  exact hbytes

end FileTree
end DocClaims
