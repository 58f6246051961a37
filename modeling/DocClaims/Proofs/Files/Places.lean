import DocClaims.Files.Tree
import DocClaims.Proofs.Outcomes
import DocClaims.Proofs.Path

/-!
# Places and the ways to them

What stands at a place of a tree is told apart from what is below it. A path leads to a place by
a way through directories and links. Whatever a tree has in other files, and whatever else stands
beside the nodes on a way, the way stays.
-/

namespace DocClaims

open Text (Bytes)

/-- What stands at a place, apart from what is below it. -/
inductive Standing
  | file (bytes : Bytes)
  | directory
  | link (target : Bytes)
  | special (bytes : Bytes)

namespace FileNode

variable {node : FileNode} {bytes target : Bytes}

def standing : FileNode → Standing
  | file bytes => .file bytes
  | directory _ => .directory
  | link target => .link target
  | special bytes => .special bytes

theorem standing_eq_file_iff : node.standing = .file bytes ↔ node = file bytes := by
  cases node <;> simp [standing]

theorem standing_eq_link_iff : node.standing = .link target ↔ node = link target := by
  cases node <;> simp [standing]

theorem standing_eq_special_iff : node.standing = .special bytes ↔ node = special bytes := by
  cases node <;> simp [standing]

theorem standing_eq_directory_iff : node.standing = .directory ↔ ∃ entries, node = directory entries := by
  cases node <;> simp [standing]

theorem isFile_eq_true_iff : node.isFile = true ↔ ∃ bytes, node = file bytes := by
  cases node <;> simp [isFile]

theorem isDirectory_eq_true_iff : node.isDirectory = true ↔ ∃ entries, node = directory entries := by
  cases node <;> simp [isDirectory]

/-- What a node gives when it is read. -/
def bytes? : FileNode → Option Bytes
  | file bytes => some bytes
  | special bytes => some bytes
  | directory _ => none
  | link _ => none

theorem at?_append (node : FileNode) (names more : List Bytes) :
    node.at? (names ++ more) = (node.at? names).bind (at? · more) := by
  induction names generalizing node with
  | nil => rfl
  | cons name names ih =>
      rw [List.cons_append, at?, at?, Option.bind_assoc]
      exact congrArg _ (funext ih)

end FileNode

namespace FileTree

variable {t t' : FileTree} {follow : Bool} {links : Nat}
  {place found segments : List Bytes} {name p bytes target : Bytes} {node : FileNode}

def standing? (t : FileTree) (place : List Bytes) : Option Standing :=
  (t.nodeAt? place).map FileNode.standing

theorem standing?_eq_some (h : t.nodeAt? place = some node) :
    t.standing? place = some node.standing := by
  rw [standing?, h]
  rfl

theorem standing?_eq_file_iff :
    t.standing? place = some (.file bytes) ↔ t.nodeAt? place = some (.file bytes) := by
  simp [standing?, FileNode.standing_eq_file_iff]

theorem standing?_eq_link_iff :
    t.standing? place = some (.link target) ↔ t.nodeAt? place = some (.link target) := by
  simp [standing?, FileNode.standing_eq_link_iff]

theorem standing?_eq_special_iff :
    t.standing? place = some (.special bytes) ↔ t.nodeAt? place = some (.special bytes) := by
  simp [standing?, FileNode.standing_eq_special_iff]

theorem standing?_eq_directory_iff :
    t.standing? place = some .directory ↔
      ∃ entries, t.nodeAt? place = some (.directory entries) := by
  rw [standing?, Option.map_eq_some_iff]
  constructor
  · rintro ⟨node, hnode, hstanding⟩
    obtain ⟨entries, rfl⟩ := FileNode.standing_eq_directory_iff.1 hstanding
    exact ⟨entries, hnode⟩
  · rintro ⟨entries, hnode⟩
    exact ⟨_, hnode, rfl⟩

theorem isDirectoryAt_iff : t.isDirectoryAt place = true ↔ t.standing? place = some .directory := by
  rw [standing?_eq_directory_iff, isDirectoryAt]
  cases t.nodeAt? place with
  | none => simp
  | some node => simp [FileNode.isDirectory_eq_true_iff]

theorem nodeAt?_append (t : FileTree) (names place : List Bytes) :
    t.nodeAt? (names.reverse ++ place) = (t.nodeAt? place).bind (·.at? names) := by
  rw [nodeAt?, List.reverse_append, List.reverse_reverse, FileNode.at?_append, nodeAt?]

theorem obstacle?_eq_none_iff :
    t.obstacle? place name = none ↔
      t.isDirectoryAt place = true ∧ (name ≠ [] → t.limits.refusal? .enter place = none) := by
  rw [obstacle?]
  cases t.isDirectoryAt place with
  | false => simp
  | true =>
      by_cases hname : name = []
      · simp [hname]
      · simp [hname]

theorem isDirectoryAt_of_obstacle? (h : t.obstacle? place name = none) :
    t.isDirectoryAt place = true :=
  (obstacle?_eq_none_iff.1 h).1

/-! ### Ways -/

/-- A segment that names an entry of a directory. -/
structure IsName (name : Bytes) : Prop where
  isName : Path.IsName name
  short : ¬nameLimit < name.length

theorem IsName.of_beq (hsilent : ¬(name == [] || name == [Path.dot]) = true)
    (hup : ¬(name == [Path.dot, Path.dot]) = true) (hshort : ¬nameLimit < name.length) :
    IsName name := by
  simp only [Bool.or_eq_true, beq_iff_eq, not_or] at hsilent hup
  exact ⟨⟨hsilent.1, hsilent.2, hup⟩, hshort⟩

/-- The way from a place, by the segments of a path, to the place where it ends. -/
inductive Way (t : FileTree) (follow : Bool) (found : List Bytes) :
    Nat → List Bytes → List Bytes → Prop
  | finish {links : Nat} : Way t follow found links found []
  | silent {links : Nat} {place rest : List Bytes} {name : Bytes} :
      t.obstacle? place name = none → Path.IsSilent name →
      Way t follow found links place rest → Way t follow found links place (name :: rest)
  | up {links : Nat} {place rest : List Bytes} :
      t.obstacle? place [Path.dot, Path.dot] = none →
      Way t follow found links place.tail rest →
      Way t follow found links place ([Path.dot, Path.dot] :: rest)
  | unfollowed {links : Nat} {place : List Bytes} {name target : Bytes} :
      t.obstacle? place name = none → IsName name →
      t.nodeAt? (name :: place) = some (.link target) → follow = false → found = name :: place →
      Way t follow found links place [name]
  | link {links : Nat} {place rest : List Bytes} {name target : Bytes} :
      t.obstacle? place name = none → IsName name →
      t.nodeAt? (name :: place) = some (.link target) → (rest.isEmpty && !follow) = false →
      Way t follow found links (if Path.isAbsolute target then [] else place)
        (Path.segments target ++ rest) →
      Way t follow found (links + 1) place (name :: rest)
  | entry {links : Nat} {place rest : List Bytes} {name : Bytes} {node : FileNode} :
      t.obstacle? place name = none → IsName name →
      t.nodeAt? (name :: place) = some node → (∀ target, node ≠ .link target) →
      Way t follow found links (name :: place) rest → Way t follow found links place (name :: rest)

/-- How a walk goes on behind a link. -/
def onward (t : FileTree) (follow : Bool) :
    Nat → List Bytes → List Bytes → Except FileError (List Bytes)
  | 0 => fun _ _ => .error .tooManyLinks
  | links + 1 => t.walkFrom follow links

theorem walkFrom_eq_walkOn (links : Nat) :
    t.walkFrom follow links = t.walkOn follow (t.onward follow links) := by
  cases links <;> rfl

theorem Way.of_walkOn {onward : List Bytes → List Bytes → Except FileError (List Bytes)}
    (honward : ∀ place segments, onward place segments = .ok found →
      ∃ left, links = left + 1 ∧ t.Way follow found left place segments)
    (h : t.walkOn follow onward place segments = .ok found) :
    t.Way follow found links place segments := by
  fun_induction walkOn t follow onward place segments with
  | case1 =>
      obtain rfl := Except.ok.inj h
      exact .finish
  | case2 | case5 | case6 => cases h
  | case3 place name rest hopen hsilent ih =>
      exact .silent hopen (by simpa [Path.IsSilent] using hsilent) (ih h)
  | case4 place name rest hopen hsilent hup ih =>
      obtain rfl : name = [Path.dot, Path.dot] := beq_iff_eq.1 hup
      exact .up hopen (ih h)
  | case7 place name rest hopen hsilent hup hshort target hnode hlast =>
      obtain ⟨hrest, hfollow⟩ := Bool.and_eq_true_iff.1 hlast
      obtain rfl := List.isEmpty_iff.1 hrest
      exact .unfollowed hopen (.of_beq hsilent hup hshort) hnode (by simpa using hfollow)
        (Except.ok.inj h).symm
  | case8 place name rest hopen hsilent hup hshort target hnode hlast =>
      obtain ⟨left, rfl, hway⟩ := honward _ _ h
      exact .link hopen (.of_beq hsilent hup hshort) hnode (Bool.not_eq_true _ ▸ hlast) hway
  | case9 place name rest hopen hsilent hup hshort node hnot hnode ih =>
      exact .entry hopen (.of_beq hsilent hup hshort) hnode hnot (ih h)

theorem way_of_walkFrom (h : t.walkFrom follow links place segments = .ok found) :
    t.Way follow found links place segments := by
  induction links generalizing place segments with
  | zero => exact .of_walkOn (fun _ _ hnever => by cases hnever) h
  | succ links ih => exact .of_walkOn (fun _ _ hway => ⟨links, rfl, ih hway⟩) h

theorem walkOn_name {onward : List Bytes → List Bytes → Except FileError (List Bytes)}
    {rest : List Bytes} (hopen : t.obstacle? place name = none) (hname : IsName name) :
    t.walkOn follow onward place (name :: rest) =
      match t.nodeAt? (name :: place) with
      | none => .error .notFound
      | some (.link target) =>
          if rest.isEmpty && !follow then .ok (name :: place)
          else onward (if Path.isAbsolute target then [] else place) (Path.segments target ++ rest)
      | some _ => t.walkOn follow onward (name :: place) rest := by
  obtain ⟨⟨hempty, hhere, hup⟩, hshort⟩ := hname
  rw [walkOn, hopen]
  dsimp only
  rw [if_neg (by simp [hempty, hhere]), if_neg (by simpa using hup)]
  exact if_neg hshort

theorem Way.walkFrom_eq (h : t.Way follow found links place segments) :
    t.walkFrom follow links place segments = .ok found := by
  induction h with
  | finish => rw [walkFrom_eq_walkOn, walkOn]
  | silent hopen hsilent _ ih =>
      rw [walkFrom_eq_walkOn] at ih ⊢
      rw [walkOn, hopen]
      rcases hsilent with rfl | rfl
      · exact ih
      · exact ih
  | up hopen _ ih =>
      rw [walkFrom_eq_walkOn] at ih ⊢
      rw [walkOn, hopen]
      exact ih
  | unfollowed hopen hentry hnode hfollow hfound =>
      rw [walkFrom_eq_walkOn, walkOn_name hopen hentry, hnode, hfollow, hfound]
      rfl
  | link hopen hentry hnode hlast _ ih =>
      rw [walkFrom_eq_walkOn, walkOn_name hopen hentry, hnode, hlast]
      exact ih
  | @entry links place rest name node hopen hentry hnode hnot _ ih =>
      rw [walkFrom_eq_walkOn] at ih ⊢
      rw [walkOn_name hopen hentry, hnode]
      cases node with
      | link target => exact absurd rfl (hnot target)
      | file | directory | special => exact ih

theorem Way.eq {other : List Bytes} (h : t.Way follow found links place segments)
    (h' : t.Way follow other links place segments) : found = other :=
  Except.ok.inj (h.walkFrom_eq.symm.trans h'.walkFrom_eq)

/-- A way by some segments and then by others goes on from where the first of them lead, with
the links that are left then. -/
theorem Way.exists_of_append {more all : List Bytes} (h : t.Way true found links place all)
    (hall : all = segments ++ more) :
    ∃ mid left, t.Way true mid links place segments ∧ t.Way true found left mid more := by
  induction h generalizing segments with
  | @finish links =>
      obtain ⟨rfl, rfl⟩ := List.append_eq_nil_iff.1 hall.symm
      exact ⟨found, links, .finish, .finish⟩
  | unfollowed _ _ _ hfollow => cases hfollow
  | @silent links place rest name hopen hname hrest ih =>
      cases segments with
      | nil =>
          obtain rfl : _ = more := hall
          exact ⟨place, links, .finish, .silent hopen hname hrest⟩
      | cons first segments =>
          obtain ⟨rfl, hrest⟩ := List.cons.inj hall
          obtain ⟨mid, left, hmid, hmore⟩ := ih hrest
          exact ⟨mid, left, .silent hopen hname hmid, hmore⟩
  | @up links place rest hopen hrest ih =>
      cases segments with
      | nil =>
          obtain rfl : _ = more := hall
          exact ⟨place, links, .finish, .up hopen hrest⟩
      | cons first segments =>
          obtain ⟨rfl, hrest⟩ := List.cons.inj hall
          obtain ⟨mid, left, hmid, hmore⟩ := ih hrest
          exact ⟨mid, left, .up hopen hmid, hmore⟩
  | @link links place rest name target hopen hname hnode hlast hrest ih =>
      cases segments with
      | nil =>
          obtain rfl : _ = more := hall
          exact ⟨place, links + 1, .finish, .link hopen hname hnode hlast hrest⟩
      | cons first segments =>
          obtain ⟨rfl, rfl⟩ := List.cons.inj hall
          obtain ⟨mid, left, hmid, hmore⟩ := ih (List.append_assoc _ _ _).symm
          exact ⟨mid, left, .link hopen hname hnode (Bool.and_false _) hmid, hmore⟩
  | @entry links place rest name node hopen hname hnode hnot hrest ih =>
      cases segments with
      | nil =>
          obtain rfl : _ = more := hall
          exact ⟨place, links, .finish, .entry hopen hname hnode hnot hrest⟩
      | cons first segments =>
          obtain ⟨rfl, hrest⟩ := List.cons.inj hall
          obtain ⟨mid, left, hmid, hmore⟩ := ih hrest
          exact ⟨mid, left, .entry hopen hname hnode hnot hmid, hmore⟩

theorem Way.eq_of_silent (h : t.Way follow found links place segments)
    (hsilent : ∀ s ∈ segments, Path.IsSilent s) : place = found := by
  induction h with
  | finish => rfl
  | silent _ _ _ ih => exact ih fun s hs => hsilent s (List.mem_cons_of_mem _ hs)
  | up => exact absurd (hsilent _ List.mem_cons_self) (by simp [Path.IsSilent])
  | unfollowed _ hname | link _ hname | entry _ hname =>
      exact absurd (hsilent _ List.mem_cons_self) hname.isName.not_isSilent

theorem resolve_eq_ok_iff :
    t.resolve follow p = .ok place ↔
      checkPath p = .ok () ∧ t.Way follow place linkLimit (t.startOf p) (Path.segments p) := by
  rw [resolve, Outcome.bind_eq_ok_iff]
  constructor
  · rintro ⟨_, hcheck, hwalk⟩
    exact ⟨hcheck, way_of_walkFrom hwalk⟩
  · rintro ⟨hcheck, hway⟩
    exact ⟨(), hcheck, hway.walkFrom_eq⟩

theorem way_of_resolve (h : t.resolve follow p = .ok place) :
    t.Way follow place linkLimit (t.startOf p) (Path.segments p) :=
  (resolve_eq_ok_iff.1 h).2

/-- Where a way leads, something stands. -/
theorem Way.isSome_nodeAt? (h : t.Way follow found links place segments)
    (hplace : (t.nodeAt? place).isSome) : (t.nodeAt? found).isSome := by
  induction h with
  | finish => exact hplace
  | silent _ _ _ ih => exact ih hplace
  | @up links place rest _ _ ih =>
      apply ih
      cases place with
      | nil => exact hplace
      | cons name above =>
          have hbelow := t.nodeAt?_append [name] above
          rw [List.reverse_singleton, List.singleton_append] at hbelow
          rw [hbelow, Option.isSome_bind] at hplace
          exact Option.isSome_of_any hplace
  | unfollowed _ _ hnode _ hfound =>
      rw [hfound, hnode]
      rfl
  | @link links place rest name target _ _ _ _ _ ih =>
      apply ih
      split
      · rfl
      · exact hplace
  | entry _ _ hnode _ _ ih =>
      apply ih
      rw [hnode]
      rfl

theorem isSome_nodeAt?_of_resolve (h : t.resolve follow p = .ok place) :
    (t.nodeAt? place).isSome := by
  have hway := way_of_resolve h
  apply hway.isSome_nodeAt?
  obtain ⟨first, rest, hsegments⟩ := Path.exists_segments_eq_cons p
  rw [hsegments] at hway
  have hdir : t.isDirectoryAt (t.startOf p) = true := by
    cases hway with
    | silent hopen | up hopen | unfollowed hopen | link hopen | entry hopen =>
        exact isDirectoryAt_of_obstacle? hopen
  exact Option.isSome_of_any hdir

theorem ne_nil_of_resolve (h : t.resolve follow p = .ok place) : p ≠ [] := by
  rintro rfl
  cases h

/-! ### What is found -/

theorem find_eq_ok_iff :
    t.find follow p = .ok (place, node) ↔
      t.resolve follow p = .ok place ∧ t.nodeAt? place = some node := by
  rw [find, Outcome.bind_eq_ok_iff]
  constructor
  · rintro ⟨other, hplace, hnode⟩
    split at hnode
    · next n hn =>
        obtain ⟨rfl, rfl⟩ := Prod.mk.inj (Outcome.pure_eq_ok_iff.1 hnode)
        exact ⟨hplace, hn⟩
    · cases hnode
  · rintro ⟨hplace, hnode⟩
    refine ⟨place, hplace, ?_⟩
    rw [hnode]
    rfl

theorem node_eq_ok_iff :
    t.node follow p = .ok node ↔
      ∃ place, t.resolve follow p = .ok place ∧ t.nodeAt? place = some node := by
  rw [FileTree.node, Outcome.bind_eq_ok_iff]
  constructor
  · rintro ⟨⟨place, n⟩, hfind, hnode⟩
    obtain rfl := Outcome.pure_eq_ok_iff.1 hnode
    exact ⟨place, find_eq_ok_iff.1 hfind⟩
  · rintro ⟨place, hfind⟩
    exact ⟨(place, node), find_eq_ok_iff.2 hfind, rfl⟩

theorem allow_eq_ok_iff {deed : Deed} :
    t.allow deed place = .ok () ↔ t.limits.refusal? deed place = none := by
  rw [allow]
  cases t.limits.refusal? deed place <;> simp

theorem read_eq_ok_iff :
    t.read p = .ok bytes ↔
      ∃ place node, t.find true p = .ok (place, node) ∧
        t.limits.refusal? .read place = none ∧ node.bytes? = some bytes := by
  rw [read, Outcome.bind_eq_ok_iff]
  constructor
  · rintro ⟨⟨place, node⟩, hfind, h⟩
    obtain ⟨_, hallow, h⟩ := Outcome.bind_eq_ok_iff.1 h
    refine ⟨place, node, hfind, allow_eq_ok_iff.1 hallow, ?_⟩
    cases node with
    | file | special => rw [FileNode.bytes?, Outcome.pure_eq_ok_iff.1 h]
    | directory | link => cases h
  · rintro ⟨place, node, hfind, hallow, hbytes⟩
    refine ⟨(place, node), hfind, ?_⟩
    dsimp only
    rw [allow_eq_ok_iff.2 hallow]
    cases node with
    | file | special => exact congrArg Except.ok (Option.some.inj hbytes)
    | directory | link => cases hbytes

theorem isFile_eq_true_iff :
    t.isFile p = true ↔
      ∃ place bytes, t.resolve true p = .ok place ∧ t.nodeAt? place = some (.file bytes) := by
  rw [isFile]
  cases hnode : t.node true p with
  | error e =>
      refine iff_of_false (by simp) ?_
      rintro ⟨place, bytes, hfile⟩
      rw [node_eq_ok_iff.2 ⟨place, hfile⟩] at hnode
      cases hnode
  | ok node =>
      obtain ⟨place, hplace, hentry⟩ := node_eq_ok_iff.1 hnode
      rw [FileNode.isFile_eq_true_iff]
      constructor
      · rintro ⟨bytes, rfl⟩
        exact ⟨place, bytes, hplace, hentry⟩
      · rintro ⟨other, bytes, hother, hfile⟩
        obtain rfl := Except.ok.inj (hplace.symm.trans hother)
        exact ⟨bytes, Option.some.inj (hentry.symm.trans hfile)⟩

/-! ### Trees of the same shape -/

/-- Where the first tree has a directory, a link or a device, the second has the same, and where
the first has a file, the second has a file; what may be done with these, may be done there. -/
structure ShapedIn (t t' : FileTree) : Prop where
  here_eq : t'.here = t.here
  standing? : ∀ place standing, t.standing? place = some standing →
    t'.standing? place = some standing ∨
      (∃ bytes, standing = .file bytes) ∧ ∃ bytes, t'.standing? place = some (.file bytes)
  allows : ∀ deed place, (t.nodeAt? place).isSome → t.limits.refusal? deed place = none →
    t'.limits.refusal? deed place = none

namespace ShapedIn

protected theorem refl (t : FileTree) : t.ShapedIn t :=
  ⟨rfl, fun _ _ hstanding => .inl hstanding, fun _ _ _ hallowed => hallowed⟩

variable (h : t.ShapedIn t')
include h

theorem standing?_of_not_file {standing : Standing} (hstanding : t.standing? place = some standing)
    (hnot : ∀ bytes, standing ≠ .file bytes) : t'.standing? place = some standing := by
  rcases h.standing? _ _ hstanding with hsame | ⟨⟨bytes, hfile⟩, -⟩
  · exact hsame
  · exact absurd hfile (hnot bytes)

theorem isDirectoryAt (hdir : t.isDirectoryAt place = true) : t'.isDirectoryAt place = true := by
  rw [isDirectoryAt_iff] at hdir ⊢
  exact h.standing?_of_not_file hdir (by simp)

theorem obstacle? (hopen : t.obstacle? place name = none) : t'.obstacle? place name = none := by
  obtain ⟨hdir, henter⟩ := obstacle?_eq_none_iff.1 hopen
  refine obstacle?_eq_none_iff.2 ⟨h.isDirectoryAt hdir, fun hname => ?_⟩
  obtain ⟨entries, hnode⟩ := standing?_eq_directory_iff.1 (isDirectoryAt_iff.1 hdir)
  exact h.allows _ _ (by rw [hnode]; rfl) (henter hname)

theorem nodeAt?_link (hnode : t.nodeAt? place = some (.link target)) :
    t'.nodeAt? place = some (.link target) := by
  rw [← standing?_eq_link_iff] at hnode ⊢
  exact h.standing?_of_not_file hnode (by simp)

theorem exists_nodeAt? (hnode : t.nodeAt? place = some node)
    (hnot : ∀ target, node ≠ .link target) :
    ∃ node', t'.nodeAt? place = some node' ∧ ∀ target, node' ≠ .link target := by
  rcases h.standing? _ _ (standing?_eq_some hnode) with hsame | ⟨-, bytes, hfile⟩
  · obtain ⟨node', hnode', hsame⟩ := Option.map_eq_some_iff.1 hsame
    refine ⟨node', hnode', ?_⟩
    rintro target rfl
    exact hnot target (FileNode.standing_eq_link_iff.1 hsame.symm)
  · exact ⟨_, standing?_eq_file_iff.1 hfile, by simp⟩

/-- A way through the first tree is a way through the second. -/
theorem way (hway : t.Way follow found links place segments) :
    t'.Way follow found links place segments := by
  induction hway with
  | finish => exact .finish
  | silent hopen hname _ ih => exact .silent (h.obstacle? hopen) hname ih
  | up hopen _ ih => exact .up (h.obstacle? hopen) ih
  | unfollowed hopen hname hnode hfollow hfound =>
      exact .unfollowed (h.obstacle? hopen) hname (h.nodeAt?_link hnode) hfollow hfound
  | link hopen hname hnode hlast _ ih =>
      exact .link (h.obstacle? hopen) hname (h.nodeAt?_link hnode) hlast ih
  | entry hopen hname hnode hnot _ ih =>
      obtain ⟨node', hnode', hnot'⟩ := h.exists_nodeAt? hnode hnot
      exact .entry (h.obstacle? hopen) hname hnode' hnot' ih

theorem startOf_eq (p : Bytes) : t'.startOf p = t.startOf p := by
  rw [startOf, startOf, h.here_eq]

theorem resolve (hplace : t.resolve follow p = .ok place) : t'.resolve follow p = .ok place := by
  rw [resolve_eq_ok_iff] at hplace ⊢
  rw [h.startOf_eq]
  exact hplace.imp_right h.way

end ShapedIn
end FileTree
end DocClaims
