import DocClaims.Proofs.Files.Places
import DocClaims.Proofs.Text.Utf8

/-!
# Writing a file

Bytes that are written go to one place of a tree, which had no node before or held a file, if
they are not given to a device. What stands at the other places stays, so the path that was
written leads to the same place afterwards, where the file holds the bytes, or a beginning of
them if the writing broke off.
-/

namespace DocClaims

open Text (Bytes)

namespace FileNode

theorem lookup_entry_cons (name : Bytes) (node : FileNode) (entries : List (Bytes × FileNode))
    (other : Bytes) :
    ((name, node) :: entries).lookup other =
      if other = name then some node else entries.lookup other := by
  by_cases h : other = name
  · simp [h]
  · simp [List.lookup_cons, h, beq_false_of_ne]

theorem lookup_withEntry (name : Bytes) (node : FileNode) (entries : List (Bytes × FileNode))
    (other : Bytes) :
    (withEntry name node entries).lookup other =
      if other = name then some node else entries.lookup other := by
  induction entries with
  | nil => exact lookup_entry_cons ..
  | cons entry rest ih =>
      obtain ⟨first, n⟩ := entry
      rw [withEntry, lookup_entry_cons first]
      by_cases hfirst : first = name
      · rw [if_pos (beq_iff_eq.2 hfirst), lookup_entry_cons, hfirst]
        split <;> rfl
      · rw [if_neg (mt beq_iff_eq.1 hfirst), lookup_entry_cons, ih]
        by_cases h : other = first
        · have hother : other ≠ name := fun hname => hfirst (h ▸ hname)
          rw [if_pos h, if_neg hother, if_pos h]
        · rw [if_neg h, if_neg h]

theorem child?_put_cons (node new : FileNode) (name : Bytes) (names : List Bytes)
    (other : Bytes) :
    (node.put new (name :: names)).child? other =
      if other = name then some (((node.child? name).getD emptyDirectory).put new names)
      else node.entries.lookup other :=
  lookup_withEntry ..

theorem at?_put_self (node new : FileNode) (names : List Bytes) :
    (node.put new names).at? names = some new := by
  induction names generalizing node with
  | nil => rfl
  | cons name names ih => rw [at?, child?_put_cons, if_pos rfl, Option.bind_some, ih]

theorem at?_file_eq_none {node : FileNode} (h : node.isFile = true) {names : List Bytes}
    (hnames : names ≠ []) : node.at? names = none := by
  obtain ⟨bytes, rfl⟩ := isFile_eq_true_iff.1 h
  obtain ⟨name, names, rfl⟩ := List.exists_cons_of_ne_nil hnames
  rfl

/-- A file that is put into a directory, where nothing stood or a file, leaves all
other places as they are. -/
theorem standing_at?_put {new : FileNode} (hnew : new.isFile = true) {name : Bytes}
    {names other : List Bytes} {entries : List (Bytes × FileNode)} {node : FileNode}
    (hdirectory : node.at? names = some (directory entries))
    (hold : ∀ old, entries.lookup name = some old → old.isFile = true)
    (hother : other ≠ names ++ [name]) :
    ((node.put new (names ++ [name])).at? other).map standing = (node.at? other).map standing := by
  -- Both ways go through the same directories up to where they part, and there the entry
  -- that was put is not the one that the other way goes on with.
  induction names generalizing node other with
  | nil =>
      obtain rfl : node = directory entries := Option.some.inj hdirectory
      cases other with
      | nil => rfl
      | cons first rest =>
          rw [List.nil_append, at?, at?, child?_put_cons]
          by_cases hfirst : first = name
          · have hrest : rest ≠ [] := fun h => hother (by rw [hfirst, h, List.nil_append])
            have hnone : (entries.lookup name).bind (at? · rest) = none :=
              Option.bind_eq_none_iff.2 fun old h => at?_file_eq_none (hold old h) hrest
            rw [if_pos hfirst, Option.bind_some, put, at?_file_eq_none hnew hrest, hfirst, child?,
              hnone]
          · rw [if_neg hfirst]
            rfl
  | cons outer names ih =>
      rw [at?, Option.bind_eq_some_iff] at hdirectory
      obtain ⟨child, hchild, hinner⟩ := hdirectory
      obtain ⟨all, rfl⟩ : ∃ all, node = directory all := by
        cases node with
        | directory all => exact ⟨all, rfl⟩
        | file bytes | link target | special bytes => cases hchild
      cases other with
      | nil => rfl
      | cons first rest =>
          rw [List.cons_append, at?, at?, child?_put_cons]
          by_cases hfirst : first = outer
          · have hrest : rest ≠ names ++ [name] := fun h =>
              hother (by rw [hfirst, h, List.cons_append])
            rw [if_pos hfirst, Option.bind_some, hfirst, hchild, Option.getD_some, Option.bind_some]
            exact ih hinner hrest
          · rw [if_neg hfirst]
            rfl

end FileNode

namespace FileTree

variable {t t' : FileTree} {links : Nat} {place found segments : List Bytes} {node : FileNode}

/-- Nothing stands at the place but perhaps a file. -/
def Free (t : FileTree) (place : List Bytes) : Prop :=
  ∀ standing, t.standing? place = some standing → ∃ bytes, standing = .file bytes

/-- A file can be put at the place. -/
structure TakesFile (t : FileTree) (place : List Bytes) : Prop where
  ne_nil : place ≠ []
  inDirectory : t.isDirectoryAt place.tail = true
  free : t.Free place

theorem nodeAt?_putAt_self (t : FileTree) (place : List Bytes) (new : FileNode) :
    (t.putAt place new).nodeAt? place = some new := by
  rw [nodeAt?, putAt, FileNode.at?_put_self]

namespace TakesFile

variable (h : t.TakesFile place) (bytes : Bytes)
include h

theorem standing?_putAt {other : List Bytes} (hother : other ≠ place) :
    (t.putAt place (.file bytes)).standing? other = t.standing? other := by
  obtain ⟨name, dir, rfl⟩ := List.exists_cons_of_ne_nil h.ne_nil
  obtain ⟨entries, hentries⟩ := standing?_eq_directory_iff.1 (isDirectoryAt_iff.1 h.inDirectory)
  have hplace : t.nodeAt? (name :: dir) = entries.lookup name := by
    have hdirectory : t.root.at? dir.reverse = some (.directory entries) := hentries
    rw [nodeAt?, List.reverse_cons, FileNode.at?_append, hdirectory]
    simp [FileNode.at?, FileNode.child?]
  have hold (old : FileNode) (hlookup : entries.lookup name = some old) : old.isFile = true := by
    obtain ⟨bytes, hbytes⟩ := h.free old.standing (by rw [standing?, hplace, hlookup]; rfl)
    exact FileNode.isFile_eq_true_iff.2 ⟨bytes, FileNode.standing_eq_file_iff.1 hbytes⟩
  rw [standing?, standing?, nodeAt?, nodeAt?, putAt, List.reverse_cons]
  refine FileNode.standing_at?_put rfl hentries hold fun heq => hother ?_
  rw [← List.reverse_inj, heq, List.reverse_cons]

/-- Directories, links and devices stay where they are, and files are files. -/
theorem shapedIn_putAt : t.ShapedIn (t.putAt place (.file bytes)) where
  here_eq := rfl
  standing? := fun other standing hstanding => by
    by_cases hother : other = place
    · subst hother
      exact .inr ⟨h.free _ hstanding, bytes, standing?_eq_file_iff.2 (nodeAt?_putAt_self ..)⟩
    · exact .inl (by rw [h.standing?_putAt bytes hother, hstanding])
  allows := fun _ _ _ hallowed => hallowed

end TakesFile

/-! ### The way to what is opened -/

/-- The way from a place, by the segments of a path, to where a file can be put, or to a
device. -/
inductive LeadsTo (t : FileTree) (found : List Bytes) : Nat → List Bytes → List Bytes → Prop
  | last {links : Nat} {place : List Bytes} {name : Bytes} :
      t.obstacle? place name = none → IsName name →
      t.Free (name :: place) ∨ (∃ given, t.nodeAt? (name :: place) = some (.special given)) →
      found = name :: place → LeadsTo t found links place [name]
  | silent {links : Nat} {place rest : List Bytes} {name : Bytes} :
      t.obstacle? place name = none → Path.IsSilent name →
      LeadsTo t found links place rest → LeadsTo t found links place (name :: rest)
  | up {links : Nat} {place rest : List Bytes} :
      t.obstacle? place [Path.dot, Path.dot] = none →
      LeadsTo t found links place.tail rest →
      LeadsTo t found links place ([Path.dot, Path.dot] :: rest)
  | link {links : Nat} {place rest : List Bytes} {name target : Bytes} :
      t.obstacle? place name = none → IsName name →
      t.nodeAt? (name :: place) = some (.link target) →
      LeadsTo t found links (if Path.isAbsolute target then [] else place)
        (Path.segments target ++ rest) →
      LeadsTo t found (links + 1) place (name :: rest)
  | inner {links : Nat} {place rest : List Bytes} {name : Bytes}
      {entries : List (Bytes × FileNode)} :
      t.obstacle? place name = none → IsName name →
      t.nodeAt? (name :: place) = some (.directory entries) →
      LeadsTo t found links (name :: place) rest → LeadsTo t found links place (name :: rest)

theorem LeadsTo.isDirectoryAt (h : t.LeadsTo found links place segments) :
    t.isDirectoryAt place = true := by
  cases h with
  | last hopen | silent hopen | up hopen | link hopen | inner hopen =>
      exact isDirectoryAt_of_obstacle? hopen

theorem LeadsTo.takesFile_or_special (h : t.LeadsTo found links place segments) :
    t.TakesFile found ∨ ∃ given, t.nodeAt? found = some (.special given) := by
  induction h with
  | last hopen _ hold hfound =>
      subst hfound
      exact hold.imp_left fun hfree => ⟨by simp, isDirectoryAt_of_obstacle? hopen, hfree⟩
  | silent _ _ _ ih | up _ _ ih | link _ _ _ _ ih | inner _ _ _ _ ih => exact ih

/-- What stands at the place of which the way leads to, is found by that way. -/
theorem LeadsTo.way (h : t.LeadsTo found links place segments) (hshaped : t.ShapedIn t')
    (hnode : t'.nodeAt? found = some node) (hnot : ∀ target, node ≠ .link target) :
    t'.Way true found links place segments := by
  induction h with
  | last hopen hname _ hfound =>
      subst hfound
      exact .entry (hshaped.obstacle? hopen) hname hnode hnot .finish
  | silent hopen hsilent _ ih => exact .silent (hshaped.obstacle? hopen) hsilent ih
  | up hopen _ ih => exact .up (hshaped.obstacle? hopen) ih
  | link hopen hname hlink _ ih =>
      exact .link (hshaped.obstacle? hopen) hname (hshaped.nodeAt?_link hlink)
        (Bool.and_false _) ih
  | inner hopen hname hdirectory _ ih =>
      obtain ⟨node', hnode', hnot'⟩ := hshaped.exists_nodeAt? hdirectory (by simp)
      exact .entry (hshaped.obstacle? hopen) hname hnode' hnot' ih

/-- Behind the name of a file nothing may follow, not even a slash. -/
theorem eq_nil_of_last {name : Bytes} {rest : List Bytes} (hend : rest.all (· == []) = true)
    (hlast : ¬(rest.all (· == []) &&
      (!rest.isEmpty || name == [Path.dot] || name == [Path.dot, Path.dot])) = true) :
    rest = [] := by
  simp only [hend, Bool.true_and, Bool.or_eq_true, not_or] at hlast
  simpa using hlast.1.1

theorem LeadsTo.of_targetOn {onward : List Bytes → List Bytes → Except FileError (List Bytes)}
    (honward : ∀ place segments, onward place segments = .ok found →
      ∃ left, links = left + 1 ∧ t.LeadsTo found left place segments)
    (h : t.targetOn onward place segments = .ok found) :
    t.LeadsTo found links place segments := by
  have hname {name : Bytes} (hempty : ¬(name == []) = true) (hhere : ¬(name == [Path.dot]) = true)
      (hup : ¬(name == [Path.dot, Path.dot]) = true) (hshort : ¬nameLimit < name.length) :
      IsName name :=
    .of_beq (by simpa using And.intro hempty hhere) hup hshort
  fun_induction targetOn t onward place segments with
  | case1 | case2 | case4 | case7 | case9 | case14 => cases h
  | case3 place name rest hopen hempty ih =>
      exact .silent hopen (.inl (beq_iff_eq.1 hempty)) (ih h)
  | case5 place name rest isLast hopen hempty hlast hhere ih =>
      exact .silent hopen (.inr (beq_iff_eq.1 hhere)) (ih h)
  | case6 place name rest isLast hopen hempty hlast hhere hup ih =>
      obtain rfl : name = [Path.dot, Path.dot] := beq_iff_eq.1 hup
      exact .up hopen (ih h)
  | case8 place name rest isLast hopen hempty hlast hhere hup hshort target hnode =>
      obtain ⟨left, rfl, hleads⟩ := honward _ _ h
      exact .link hopen (hname hempty hhere hup hshort) hnode hleads
  | case10 place name rest isLast hopen hempty hlast hhere hup hshort entries hnode hmore ih =>
      exact .inner hopen (hname hempty hhere hup hshort) hnode (ih h)
  | case11 place name rest isLast hopen hempty hlast hhere hup hshort node hlink hdir hnode hend =>
      obtain rfl := eq_nil_of_last hend hlast
      refine .last hopen (hname hempty hhere hup hshort) ?_ (Except.ok.inj h).symm
      cases node with
      | file bytes =>
          left
          intro standing hold
          exact ⟨bytes, Option.some.inj (hold.symm.trans (standing?_eq_file_iff.2 hnode))⟩
      | special given => exact .inr ⟨given, hnode⟩
      | link target => exact absurd rfl (hlink target)
      | directory entries => exact absurd rfl (hdir entries)
  | case12 place name rest isLast hopen hempty hlast hhere hup hshort node hlink hdir hnode hmore
      ih =>
      -- Nothing is found below a file.
      have hinner := (ih h).isDirectoryAt
      rw [FileTree.isDirectoryAt, hnode] at hinner
      obtain ⟨entries, rfl⟩ := FileNode.isDirectory_eq_true_iff.1 hinner
      exact absurd rfl (hdir entries)
  | case13 place name rest isLast hopen hempty hlast hhere hup hshort hnode hend =>
      obtain rfl := eq_nil_of_last hend hlast
      refine .last hopen (hname hempty hhere hup hshort) (.inl fun standing hold => ?_)
        (Except.ok.inj h).symm
      rw [standing?, hnode] at hold
      cases hold

theorem leadsTo_of_targetFrom (h : t.targetFrom links place segments = .ok found) :
    t.LeadsTo found links place segments := by
  induction links generalizing place segments with
  | zero => exact .of_targetOn (fun _ _ hnever => by cases hnever) h
  | succ links ih => exact .of_targetOn (fun _ _ hleads => ⟨links, rfl, ih hleads⟩) h

/-! ### Bytes that were written -/

/-- A path leads to a place where a file holds the bytes afterwards, and the other places are as
before. -/
structure Wrote (before after : FileTree) (path bytes : Bytes) (place : List Bytes) : Prop where
  resolve : after.resolve true path = .ok place
  nodeAt? : after.nodeAt? place = some (.file bytes)
  free : before.Free place
  standing? : ∀ other, other ≠ place → after.standing? other = before.standing? other
  here : after.here = before.here
  limits : after.limits = before.limits

/-- What comes of writing bytes to a path: nothing if the path cannot be opened or is that of a
device, and else a file that holds the bytes, or a beginning of them if the writing breaks
off. -/
inductive Writes (t : FileTree) (path bytes : Bytes) : Changed → Prop
  | unopened {e : FileError} : t.target path = .error e → Writes t path bytes ⟨t, some e⟩
  | device {place : List Bytes} {given : Bytes} {error? : Option FileError} :
      t.resolve true path = .ok place → t.nodeAt? place = some (.special given) →
      Writes t path bytes ⟨t, error?⟩
  | part {after : FileTree} {place : List Bytes} {n : Nat} {e : FileError} :
      t.Wrote after path (bytes.take n) place → Writes t path bytes ⟨after, some e⟩
  | whole {after : FileTree} {place : List Bytes} :
      t.Wrote after path bytes place → Writes t path bytes ⟨after, none⟩

theorem fill_of_takesFile (h : t.TakesFile place) (bytes : Bytes) :
    (t.limits.shortage? place bytes = none ∧
        t.fill place bytes = ⟨t.putAt place (.file bytes), none⟩) ∨
      ∃ n e, t.limits.shortage? place bytes = some (n, e) ∧
        t.fill place bytes = ⟨t.putAt place (.file (bytes.take n)), some e⟩ := by
  have hfill : t.fill place bytes =
      ⟨t.putAt place (.file
        (((t.limits.shortage? place bytes).map fun kept => bytes.take kept.1).getD bytes)),
        (t.limits.shortage? place bytes).map (·.2)⟩ := by
    rw [fill]
    split
    · next given hspecial =>
        obtain ⟨file, hfile⟩ := h.free _ (standing?_eq_special_iff.2 hspecial)
        cases hfile
    · rfl
  rw [hfill]
  cases hshortage : t.limits.shortage? place bytes with
  | none => exact .inl ⟨rfl, rfl⟩
  | some kept => exact .inr ⟨kept.1, kept.2, rfl, rfl⟩

section Opened

variable {path : Bytes} (hcheck : checkPath path = .ok ())
  (h : t.LeadsTo found linkLimit (t.startOf path) (Path.segments path))
include hcheck h

theorem LeadsTo.resolve_eq (hshaped : t.ShapedIn t') (hnode : t'.nodeAt? found = some node)
    (hnot : ∀ target, node ≠ .link target) : t'.resolve true path = .ok found := by
  rw [resolve_eq_ok_iff, hshaped.startOf_eq]
  exact ⟨hcheck, h.way hshaped hnode hnot⟩

theorem LeadsTo.wrote (htakes : t.TakesFile found) (bytes : Bytes) :
    t.Wrote (t.putAt found (.file bytes)) path bytes found where
  resolve := h.resolve_eq hcheck (htakes.shapedIn_putAt bytes) (nodeAt?_putAt_self ..) (by simp)
  nodeAt? := nodeAt?_putAt_self ..
  free := htakes.free
  standing? := fun _ => htakes.standing?_putAt bytes
  here := rfl
  limits := rfl

end Opened

theorem writes_writeBytes (t : FileTree) (path bytes : Bytes) :
    t.Writes path bytes (t.writeBytes path bytes) := by
  rw [writeBytes]
  cases htarget : t.target path with
  | error e => exact .unopened htarget
  | ok place =>
      dsimp only
      obtain ⟨_, hcheck, h⟩ := Outcome.bind_eq_ok_iff.1 htarget
      obtain ⟨found, hfound, h⟩ := Outcome.bind_eq_ok_iff.1 h
      obtain ⟨_, -, h⟩ := Outcome.bind_eq_ok_iff.1 h
      obtain rfl := Outcome.pure_eq_ok_iff.1 h
      have hleads := leadsTo_of_targetFrom hfound
      rcases hleads.takesFile_or_special with htakes | ⟨given, hspecial⟩
      · rcases fill_of_takesFile htakes bytes with ⟨-, hfill⟩ | ⟨n, e, -, hfill⟩
        · rw [hfill]
          exact .whole (hleads.wrote hcheck htakes bytes)
        · rw [hfill]
          exact .part (hleads.wrote hcheck htakes _)
      · rw [fill, hspecial]
        exact .device (hleads.resolve_eq hcheck (.refl t) hspecial (by simp)) hspecial

theorem writes_of_write {path : Bytes} {text : String} {changed : Changed}
    (h : t.write path text = changed) : t.Writes path (Text.encode text) changed := by
  rw [← h, write]
  exact writes_writeBytes t path (Text.encode text)

end FileTree
end DocClaims
