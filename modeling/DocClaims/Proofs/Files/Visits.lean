import DocClaims.Files.Visit
import DocClaims.Proofs.Data.Fits
import DocClaims.Proofs.Files.Places
import DocClaims.Proofs.Path.Relative

/-!
# Visits

Below a node are visited the nodes that names lead to, each once, in the order of the names on
the way to them: all of them whose way goes through directories that can be listed and by entries
that are told of. A visit of a tree begins at the node that a path leads to; a link there is
followed if it leads to a directory.
-/

namespace DocClaims

open Text (Bytes)

/-- The order of the names, outermost first, by their bytes. -/
def Visit.Before (v w : Visit) : Prop := v.names < w.names

namespace FileNode

variable {node inner found : FileNode} {entries : List (Bytes × FileNode)} {name : Bytes}
  {names more : List Bytes} {v : Visit}

/-! ### Nodes below a node -/

/-- As in any file system, the names in a directory differ, and are names. -/
inductive WellNamed : FileNode → Prop
  | file (bytes : Bytes) : WellNamed (file bytes)
  | link (target : Bytes) : WellNamed (link target)
  | special (bytes : Bytes) : WellNamed (special bytes)
  | directory {entries : List (Bytes × FileNode)} :
      (entries.map Prod.fst).Nodup → (∀ entry ∈ entries, Path.IsPlainName entry.1) →
      (∀ entry ∈ entries, WellNamed entry.2) → WellNamed (directory entries)

theorem at?_eq_some_iff_of_not_isDirectory (h : node.isDirectory = false) :
    node.at? names = some found ↔ names = [] ∧ found = node := by
  cases names with
  | nil => simp [at?, eq_comm]
  | cons name names => cases node <;> simp_all [at?, child?, isDirectory]

theorem at?_directory_cons (h : (entries.map Prod.fst).Nodup) :
    (directory entries).at? (name :: names) = some found ↔
      ∃ inner, (name, inner) ∈ entries ∧ inner.at? names = some found := by
  rw [at?, child?, Option.bind_eq_some_iff]
  apply exists_congr
  intro inner
  apply and_congr_left
  intro _
  constructor
  · intro hlookup
    obtain ⟨front, rest, rfl, -⟩ := List.lookup_eq_some_iff.1 hlookup
    simp
  · exact lookup_of_mem h

theorem WellNamed.of_at? (h : node.WellNamed) (hfound : node.at? names = some found) :
    found.WellNamed := by
  induction h generalizing names with
  | file bytes =>
      obtain ⟨-, rfl⟩ := (at?_eq_some_iff_of_not_isDirectory rfl).1 hfound
      exact .file bytes
  | link target =>
      obtain ⟨-, rfl⟩ := (at?_eq_some_iff_of_not_isDirectory rfl).1 hfound
      exact .link target
  | special bytes =>
      obtain ⟨-, rfl⟩ := (at?_eq_some_iff_of_not_isDirectory rfl).1 hfound
      exact .special bytes
  | directory hnodup hplain hinner ih =>
      cases names with
      | nil =>
          obtain rfl := Option.some.inj hfound
          exact .directory hnodup hplain hinner
      | cons name names =>
          obtain ⟨inner, hmem, hrest⟩ := (at?_directory_cons hnodup).1 hfound
          exact ih (name, inner) hmem hrest

/-- The names that lead to a node are names of entries. -/
theorem WellNamed.isPlainName (h : node.WellNamed) (hfound : node.at? names = some found) :
    ∀ name ∈ names, Path.IsPlainName name := by
  induction h generalizing names with
  | file | link | special =>
      obtain ⟨rfl, -⟩ := (at?_eq_some_iff_of_not_isDirectory rfl).1 hfound
      simp
  | directory hnodup hplain _ ih =>
      cases names with
      | nil => simp
      | cons first names =>
          obtain ⟨inner, hmem, hrest⟩ := (at?_directory_cons hnodup).1 hfound
          exact List.forall_mem_cons.2 ⟨hplain _ hmem, ih _ hmem hrest⟩

end FileNode

namespace FileTree

variable {t : FileTree} {root p name : Bytes} {base names more : List Bytes}
  {node found inner : FileNode} {entries : List (Bytes × FileNode)} {v : Visit}

/-! ### Visits below a node -/

/-- Going on by the names, one lists the directories on the way and is told of their entries. -/
def ReachesFrom (t : FileTree) (root : Bytes) (base : List Bytes) :
    List Bytes → List Bytes → Prop
  | _, [] => True
  | names, name :: more =>
      (t.lists (Path.below root names.reverse) = true ∧ t.sees (name :: names ++ base) = true) ∧
        ReachesFrom t root base (name :: names) more

theorem entryVisits_eq (t : FileTree) (root : Bytes) (base names : List Bytes)
    (entries : List (Bytes × FileNode)) :
    t.entryVisits root base names entries =
      entries.map fun entry => (entry.1, if t.sees (entry.1 :: names ++ base) then
        t.visitsFrom root base (entry.1 :: names) entry.2 else []) := by
  induction entries with
  | nil => rfl
  | cons entry rest ih => rw [entryVisits, ih, List.map_cons]

theorem visitsFrom_of_not_isDirectory (h : node.isDirectory = false) (t : FileTree) (root : Bytes)
    (base names : List Bytes) : t.visitsFrom root base names node = [⟨names.reverse, node⟩] := by
  cases node with
  | file | link | special => rfl
  | directory => cases h

theorem visitsFrom_directory (t : FileTree) (root : Bytes) (base names : List Bytes)
    (entries : List (Bytes × FileNode)) :
    t.visitsFrom root base names (.directory entries) =
      ⟨names.reverse, .directory entries⟩ ::
        if t.lists (Path.below root names.reverse) then
          (inOrder (entries.map fun entry => (entry.1, if t.sees (entry.1 :: names ++ base) then
            t.visitsFrom root base (entry.1 :: names) entry.2 else []))).flatMap (·.2)
        else [] := by
  rw [visitsFrom, entryVisits_eq]

theorem mem_visitsFrom_directory :
    v ∈ t.visitsFrom root base names (.directory entries) ↔
      v = ⟨names.reverse, .directory entries⟩ ∨
        t.lists (Path.below root names.reverse) = true ∧
          ∃ entry ∈ entries, t.sees (entry.1 :: names ++ base) = true ∧
            v ∈ t.visitsFrom root base (entry.1 :: names) entry.2 := by
  rw [visitsFrom_directory, List.mem_cons]
  apply or_congr_right
  by_cases hlists : t.lists (Path.below root names.reverse) = true
  · rw [if_pos hlists, and_iff_right hlists, List.mem_flatMap]
    simp [inOrder, List.mem_mergeSort]
  · rw [if_neg hlists]
    simp [hlists]

/-- Visited are the nodes that names lead to. -/
theorem mem_visitsFrom_iff (h : node.WellNamed) {all : List Bytes} :
    (⟨all, found⟩ : Visit) ∈ t.visitsFrom root base names node ↔
      ∃ more, all = names.reverse ++ more ∧ node.at? more = some found ∧
        t.ReachesFrom root base names more := by
  induction h generalizing names with
  | file | link | special =>
      rw [visitsFrom_of_not_isDirectory rfl, List.mem_singleton, Visit.mk.injEq]
      constructor
      · rintro ⟨rfl, rfl⟩
        exact ⟨[], (List.append_nil _).symm, rfl, trivial⟩
      · rintro ⟨more, rfl, hfound, -⟩
        obtain ⟨rfl, rfl⟩ := (FileNode.at?_eq_some_iff_of_not_isDirectory rfl).1 hfound
        exact ⟨List.append_nil _, rfl⟩
  | @directory entries hnodup _ _ ih =>
      rw [mem_visitsFrom_directory, Visit.mk.injEq]
      constructor
      · rintro (⟨rfl, rfl⟩ | ⟨hlists, ⟨name, inner⟩, hmem, hsees, hv⟩)
        · exact ⟨[], (List.append_nil _).symm, rfl, trivial⟩
        · obtain ⟨more, rfl, hfound, hreached⟩ := (ih _ hmem).1 hv
          refine ⟨name :: more, ?_, (FileNode.at?_directory_cons hnodup).2 ⟨inner, hmem, hfound⟩,
            ⟨hlists, hsees⟩, hreached⟩
          rw [List.reverse_cons, ← List.append_cons]
      · rintro ⟨more, rfl, hfound, hreached⟩
        cases more with
        | nil => exact .inl ⟨List.append_nil _, (Option.some.inj hfound).symm⟩
        | cons name more =>
            obtain ⟨inner, hmem, hrest⟩ := (FileNode.at?_directory_cons hnodup).1 hfound
            obtain ⟨⟨hlists, hsees⟩, hreached⟩ := hreached
            refine .inr ⟨hlists, _, hmem, hsees, (ih _ hmem).2 ⟨more, ?_, hrest, hreached⟩⟩
            rw [List.reverse_cons, ← List.append_cons]

theorem exists_names_eq (h : inner.WellNamed)
    (hv : v ∈ t.visitsFrom root base (name :: names) inner) :
    ∃ more, v.names = names.reverse ++ name :: more := by
  obtain ⟨more, hnames, -⟩ := (mem_visitsFrom_iff h).1 hv
  refine ⟨more, ?_⟩
  rw [hnames, List.reverse_cons, ← List.append_cons]

/-! ### The order of visits -/

theorem pairwise_inOrder {α : Type} {named : List (Bytes × α)} (h : (named.map Prod.fst).Nodup) :
    (inOrder named).Pairwise (·.1 < ·.1) := by
  have hle : (inOrder named).Pairwise (·.1 ≤ ·.1) := by
    refine (List.pairwise_mergeSort ?_ ?_ named).imp fun hle => of_decide_eq_true hle
    · intro a b c hab hbc
      exact decide_eq_true (Std.le_trans (of_decide_eq_true hab) (of_decide_eq_true hbc))
    · intro a b
      simpa using Std.Total.total a.1 b.1
  have hnodup : ((inOrder named).map Prod.fst).Nodup :=
    ((List.mergeSort_perm named _).map _).nodup_iff.2 h
  rw [List.Nodup, List.pairwise_map] at hnodup
  exact (hle.and hnodup).imp fun hboth => Std.lt_of_le_of_ne hboth.1 hboth.2

theorem before_of_lt {other : Bytes} {rest : List Bytes} {w : Visit} (h : name < other)
    (hv : v.names = names ++ name :: more) (hw : w.names = names ++ other :: rest) :
    v.Before w := by
  rw [Visit.Before, hv, hw]
  exact List.append_left_lt (List.cons_lt_cons_iff.2 (.inl h))

theorem before_append {w : Visit} (h : w.names = v.names ++ name :: more) : v.Before w := by
  have hlt : v.names ++ [] < v.names ++ name :: more := List.append_left_lt (List.nil_lt_cons _ _)
  rwa [List.append_nil, ← h] at hlt

theorem pairwise_visitsFrom (h : node.WellNamed) (t : FileTree) (root : Bytes)
    (base names : List Bytes) :
    (t.visitsFrom root base names node).Pairwise Visit.Before := by
  induction h generalizing names with
  | file | link | special =>
      rw [visitsFrom_of_not_isDirectory rfl]
      exact List.pairwise_singleton _ _
  | @directory entries hnodup _ hinner ih =>
      have hentry {named : Bytes × List Visit} (hnamed : named ∈ inOrder
          (entries.map fun entry => (entry.1, if t.sees (entry.1 :: names ++ base) then
            t.visitsFrom root base (entry.1 :: names) entry.2 else []))) :
          ∃ entry ∈ entries, named.1 = entry.1 ∧
            (named.2 = [] ∨ named.2 = t.visitsFrom root base (entry.1 :: names) entry.2) := by
        obtain ⟨entry, hmem, rfl⟩ := List.mem_map.1 (List.mem_mergeSort.1 hnamed)
        refine ⟨entry, hmem, rfl, ?_⟩
        split
        · exact .inr rfl
        · exact .inl rfl
      have hnames {named : Bytes × List Visit} (hnamed : named ∈ inOrder
          (entries.map fun entry => (entry.1, if t.sees (entry.1 :: names ++ base) then
            t.visitsFrom root base (entry.1 :: names) entry.2 else []))) {v : Visit}
          (hv : v ∈ named.2) : ∃ more, v.names = names.reverse ++ named.1 :: more := by
        obtain ⟨entry, hmem, hname, hnone | hvisits⟩ := hentry hnamed
        · rw [hnone] at hv
          cases hv
        · rw [hname]
          exact exists_names_eq (hinner entry hmem) (hvisits ▸ hv)
      rw [visitsFrom_directory, List.pairwise_cons]
      -- the directory before all below it; one entry; one entry before another
      split
      · refine ⟨?_, List.pairwise_flatMap.2 ⟨?_, ?_⟩⟩
        · intro v hv
          obtain ⟨named, hnamed, hv⟩ := List.mem_flatMap.1 hv
          obtain ⟨more, hv⟩ := hnames hnamed hv
          exact before_append hv
        · intro named hnamed
          obtain ⟨entry, hmem, -, hnone | hvisits⟩ := hentry hnamed
          · rw [hnone]
            exact .nil
          · rw [hvisits]
            exact ih entry hmem _
        · have hdistinct : ((entries.map fun entry => (entry.1,
              if t.sees (entry.1 :: names ++ base) then
                t.visitsFrom root base (entry.1 :: names) entry.2 else [])).map Prod.fst).Nodup := by
            rwa [List.map_map]
          apply (pairwise_inOrder hdistinct).imp_of_mem
          intro first other hfirst hother hlt v hv w hw
          obtain ⟨more, hv⟩ := hnames hfirst hv
          obtain ⟨rest, hw⟩ := hnames hother hw
          exact before_of_lt hlt hv hw
      · exact ⟨by simp, .nil⟩

theorem visitsFrom_eq_cons (t : FileTree) (root : Bytes) (base names : List Bytes)
    (node : FileNode) :
    t.visitsFrom root base names node =
      ⟨names.reverse, node⟩ :: (t.visitsFrom root base names node).tail := by
  cases node with
  | file | link | special => rfl
  | directory => rw [visitsFrom_directory, List.tail_cons]

theorem mem_tail_visitsFrom_iff (h : node.WellNamed) {all : List Bytes} :
    (⟨all, found⟩ : Visit) ∈ (t.visitsFrom root base [] node).tail ↔
      all ≠ [] ∧ node.at? all = some found ∧ t.ReachesFrom root base [] all := by
  have hpairwise := pairwise_visitsFrom h t root base []
  have hmem : (⟨all, found⟩ : Visit) ∈ t.visitsFrom root base [] node ↔
      node.at? all = some found ∧ t.ReachesFrom root base [] all := by
    simp [mem_visitsFrom_iff h]
  rw [visitsFrom_eq_cons] at hpairwise hmem
  rw [← hmem, List.mem_cons]
  constructor
  · intro hv
    refine ⟨?_, .inr hv⟩
    rintro rfl
    exact List.not_lt_nil _ ((List.pairwise_cons.1 hpairwise).1 _ hv)
  · rintro ⟨hne, heq | hv⟩
    · exact absurd (Visit.mk.inj heq).1 hne
    · exact hv

/-! ### Visits from a path on -/

/-- A way whose last link is not followed leads where it does otherwise, or to that link. -/
theorem Way.follow_or_link {follow : Bool} {links : Nat} {found place segments : List Bytes}
    (h : t.Way follow found links place segments) :
    t.Way true found links place segments ∨ ∃ target, t.nodeAt? found = some (.link target) := by
  induction h with
  | finish => exact .inl .finish
  | silent hopen hsilent _ ih => exact ih.imp_left (.silent hopen hsilent)
  | up hopen _ ih => exact ih.imp_left (.up hopen)
  | unfollowed hopen hname hnode hfollow hfound => exact .inr ⟨_, hfound ▸ hnode⟩
  | link hopen hname hnode _ _ ih => exact ih.imp_left (.link hopen hname hnode (Bool.and_false _))
  | entry hopen hname hnode hnot _ ih => exact ih.imp_left (.entry hopen hname hnode hnot)

/-- A way that leads somewhere leads somewhere, too, if a link that it ends with is not
followed: to the same place or to that link. -/
theorem Way.exists_unfollowed {links : Nat} {found place segments : List Bytes}
    (h : t.Way true found links place segments) :
    t.Way false found links place segments ∨
      ∃ other target, t.Way false other links place segments ∧
        t.nodeAt? other = some (.link target) := by
  induction h with
  | finish => exact .inl .finish
  | silent hopen hsilent _ ih =>
      refine ih.imp (.silent hopen hsilent) ?_
      rintro ⟨other, target, hway, hlink⟩
      exact ⟨other, target, .silent hopen hsilent hway, hlink⟩
  | up hopen _ ih =>
      refine ih.imp (.up hopen) ?_
      rintro ⟨other, target, hway, hlink⟩
      exact ⟨other, target, .up hopen hway, hlink⟩
  | unfollowed _ _ _ hfollow => cases hfollow
  | @link links place rest name target hopen hname hnode _ _ ih =>
      cases hlast : rest.isEmpty with
      | true =>
          obtain rfl := List.isEmpty_iff.1 hlast
          exact .inr ⟨_, target, .unfollowed hopen hname hnode rfl rfl, hnode⟩
      | false =>
          have hmore : (rest.isEmpty && !false) = false := by rw [hlast]; rfl
          refine ih.imp (.link hopen hname hnode hmore) ?_
          rintro ⟨other, target, hway, hlink⟩
          exact ⟨other, target, .link hopen hname hnode hmore hway, hlink⟩
  | entry hopen hname hnode hnot _ ih =>
      refine ih.imp (.entry hopen hname hnode hnot) ?_
      rintro ⟨other, target, hway, hlink⟩
      exact ⟨other, target, .entry hopen hname hnode hnot hway, hlink⟩

/-- A link that a path ends with is what stands there as long as it is not followed. -/
theorem find_true_of_find_false {place : List Bytes} (h : t.find false p = .ok (place, node))
    (hnot : ∀ target, node ≠ .link target) : t.find true p = .ok (place, node) := by
  rw [find_eq_ok_iff, resolve_eq_ok_iff] at h ⊢
  obtain ⟨⟨hcheck, hway⟩, hnode⟩ := h
  rcases hway.follow_or_link with hfollowed | ⟨target, hlink⟩
  · exact ⟨⟨hcheck, hfollowed⟩, hnode⟩
  · exact absurd (Option.some.inj (hnode.symm.trans hlink)) (hnot target)

theorem exists_find_false {place : List Bytes} (h : t.find true p = .ok (place, node)) :
    t.find false p = .ok (place, node) ∨
      ∃ other target, t.find false p = .ok (other, .link target) := by
  rw [find_eq_ok_iff, resolve_eq_ok_iff] at h
  obtain ⟨⟨hcheck, hway⟩, hnode⟩ := h
  rcases hway.exists_unfollowed with hsame | ⟨other, target, hother, hlink⟩
  · exact .inl (find_eq_ok_iff.2 ⟨resolve_eq_ok_iff.2 ⟨hcheck, hsame⟩, hnode⟩)
  · exact .inr ⟨other, target, find_eq_ok_iff.2 ⟨resolve_eq_ok_iff.2 ⟨hcheck, hother⟩, hlink⟩⟩

/-- A node that names lead to below the node at `root`, with no link on the way, or that stands
at `root` itself, under no name. -/
inductive Holds (t : FileTree) (root : Bytes) : List Bytes → FileNode → Prop
  | below {node found : FileNode} {names : List Bytes} :
      t.node true root = .ok node → names ≠ [] → node.at? names = some found →
      Holds t root names found
  | itself {found : FileNode} : t.node false root = .ok found → Holds t root [] found

abbrev HoldsFile (t : FileTree) (root : Bytes) (names : List Bytes) (bytes : Bytes) : Prop :=
  t.Holds root names (.file bytes)

/-- A search from `root` on comes to what the names lead to: the directories on the way can be
listed, and of the entries on the way it is told. -/
def Reaches (t : FileTree) (root : Bytes) (names : List Bytes) : Prop :=
  ∀ place, t.resolve true root = .ok place → t.ReachesFrom root place [] names

variable {bytes : Bytes}

theorem wellNamed_of_nodeAt? (h : t.root.WellNamed) {place : List Bytes}
    (hnode : t.nodeAt? place = some node) : node.WellNamed := h.of_at? hnode

theorem wellNamed_of_node (h : t.root.WellNamed) {follow : Bool}
    (hnode : t.node follow p = .ok node) : node.WellNamed := by
  obtain ⟨place, -, hplace⟩ := node_eq_ok_iff.1 hnode
  exact wellNamed_of_nodeAt? h hplace

theorem Holds.isPlainName (h : t.Holds p names found) (hroot : t.root.WellNamed) :
    ∀ name ∈ names, Path.IsPlainName name := by
  cases h with
  | below hnode _ hfound => exact (wellNamed_of_node hroot hnode).isPlainName hfound
  | itself => exact fun _ hname => absurd hname List.not_mem_nil

theorem Holds.exists_nodeAt? (h : t.Holds p names found) (hnot : ∀ target, found ≠ .link target) :
    ∃ place, t.resolve true p = .ok place ∧ t.nodeAt? (names.reverse ++ place) = some found := by
  cases h with
  | below hnode _ hfound =>
      obtain ⟨place, hplace, hentry⟩ := node_eq_ok_iff.1 hnode
      refine ⟨place, hplace, ?_⟩
      rw [nodeAt?_append, hentry]
      exact hfound
  | itself hitself =>
      obtain ⟨place, hplace, hentry⟩ := node_eq_ok_iff.1 hitself
      have hfind := find_true_of_find_false (find_eq_ok_iff.2 ⟨hplace, hentry⟩) hnot
      exact ⟨place, find_eq_ok_iff.1 hfind⟩

theorem visits_of_error {e : FileError} (h : t.find true p = .error e) : t.visits p = [] := by
  rw [visits]
  split
  · rw [h]
  · next hnot hfind =>
      have hfollowed := find_true_of_find_false hfind fun target heq => hnot target heq
      rw [h] at hfollowed
      cases hfollowed
  · rfl

/-- First of all, the node itself is visited. -/
theorem exists_visits_eq {place : List Bytes} (h : t.find true p = .ok (place, node)) :
    ∃ first, t.node false p = .ok first ∧
      t.visits p = ⟨[], first⟩ :: (t.visitsFrom p place [] node).tail := by
  have hbelow : (if node.isDirectory then (t.visitsFrom p place [] node).tail else []) =
      (t.visitsFrom p place [] node).tail := by
    cases node <;> rfl
  rcases exists_find_false h with hsame | ⟨other, target, hlink⟩
  · refine ⟨node, node_eq_ok_iff.2 ⟨place, find_eq_ok_iff.1 hsame⟩, ?_⟩
    rw [visits, hsame]
    cases node with
    | link target =>
        dsimp only
        rw [h]
        rfl
    | file | directory | special => exact visitsFrom_eq_cons ..
  · refine ⟨_, node_eq_ok_iff.2 ⟨other, find_eq_ok_iff.1 hlink⟩, ?_⟩
    rw [visits, hlink]
    dsimp only
    rw [h]
    exact congrArg _ hbelow

theorem mem_visits_iff (h : t.root.WellNamed) :
    (⟨names, .file bytes⟩ : Visit) ∈ t.visits p ↔ t.HoldsFile p names bytes ∧ t.Reaches p names := by
  cases hfind : t.find true p with
  | error e =>
      rw [visits_of_error hfind]
      refine iff_of_false List.not_mem_nil ?_
      rintro ⟨hfile, -⟩
      obtain ⟨place, hplace, hnode⟩ := hfile.exists_nodeAt? (by simp)
      rw [nodeAt?_append, Option.bind_eq_some_iff] at hnode
      obtain ⟨node, hnode, -⟩ := hnode
      rw [find_eq_ok_iff.2 ⟨hplace, hnode⟩] at hfind
      cases hfind
  | ok found =>
      obtain ⟨place, node⟩ := found
      obtain ⟨hplace, hentry⟩ := find_eq_ok_iff.1 hfind
      have hnode := node_eq_ok_iff.2 ⟨place, hplace, hentry⟩
      obtain ⟨first, hfirst, hvisits⟩ := exists_visits_eq hfind
      have hreaches : t.Reaches p names ↔ t.ReachesFrom p place [] names := by
        refine ⟨fun hall => hall place hplace, fun hreached other hother => ?_⟩
        obtain rfl := Except.ok.inj (hplace.symm.trans hother)
        exact hreached
      rw [hvisits, List.mem_cons, Visit.mk.injEq,
        mem_tail_visitsFrom_iff (wellNamed_of_nodeAt? h hentry), hreaches]
      constructor
      · rintro (⟨rfl, rfl⟩ | ⟨hne, hfound, hreached⟩)
        · exact ⟨.itself hfirst, trivial⟩
        · exact ⟨.below hnode hne hfound, hreached⟩
      · rintro ⟨⟨hfollowed, hne, hfound⟩ | hitself, hreached⟩
        · rw [hnode] at hfollowed
          obtain rfl := Except.ok.inj hfollowed
          exact .inr ⟨hne, hfound, hreached⟩
        · rw [hfirst] at hitself
          exact .inl ⟨rfl, (Except.ok.inj hitself).symm⟩

theorem pairwise_visits (h : t.root.WellNamed) (p : Bytes) :
    (t.visits p).Pairwise Visit.Before := by
  cases hfind : t.find true p with
  | error e =>
      rw [visits_of_error hfind]
      exact .nil
  | ok found =>
      obtain ⟨place, node⟩ := found
      obtain ⟨first, -, hvisits⟩ := exists_visits_eq hfind
      have hnode := wellNamed_of_nodeAt? h (find_eq_ok_iff.1 hfind).2
      have hpairwise := pairwise_visitsFrom hnode t p place []
      rw [visitsFrom_eq_cons, List.pairwise_cons] at hpairwise
      rw [hvisits, List.pairwise_cons]
      exact hpairwise

end FileTree
end DocClaims
