import DocClaims.Proofs.Files.Growth
import DocClaims.Proofs.Files.Writing

/-!
# Files beside a written one

Bytes that are written change the file at one place, and the ways of all paths stay. A path that
leads to another place still reads what it read before. Two names in the same directory lead to
the same place only by a link.
-/

namespace DocClaims

open Text (Bytes)

namespace FileTree

variable {t after : FileTree} {follow : Bool} {links left : Nat}
  {place found dir segments rest : List Bytes} {p q name target bytes written : Bytes}

/-- The path ends with a symbolic link. -/
def IsLink (t : FileTree) (p : Bytes) : Prop := ∃ target, t.node false p = .ok (.link target)

/-- The paths lead to the same place, one of them by a link that it ends with. -/
structure SameByLink (t : FileTree) (p q : Bytes) : Prop where
  resolve_eq : t.resolve true p = t.resolve true q
  isLink : t.IsLink p ∨ t.IsLink q

/-! ### Trees before and after bytes are written -/

namespace Wrote

variable (h : t.Wrote after p written place)
include h

theorem shapedIn : t.ShapedIn after where
  here_eq := h.here
  standing? := fun other standing hstanding => by
    by_cases hother : other = place
    · exact .inr ⟨h.free _ (hother ▸ hstanding), _, hother ▸ standing?_eq_file_iff.2 h.nodeAt?⟩
    · left
      rw [h.standing? other hother, hstanding]
  allows := fun _ _ _ hallowed => by rw [h.limits, hallowed]

/-- Where a file was written over, the paths lead where they led before. -/
theorem shapedIn_before (hold : t.nodeAt? place = some (.file bytes)) : after.ShapedIn t where
  here_eq := h.here.symm
  standing? := fun other standing hstanding => by
    by_cases hother : other = place
    · rw [hother, standing?_eq_file_iff.2 h.nodeAt?, Option.some.injEq] at hstanding
      exact .inr ⟨⟨_, hstanding.symm⟩, bytes, hother ▸ standing?_eq_file_iff.2 hold⟩
    · left
      rw [← h.standing? other hother, hstanding]
  allows := fun _ _ _ hallowed => by rw [← h.limits, hallowed]

/-- A file at another place is read as before. -/
theorem read_eq (hfound : t.resolve true q = .ok found)
    (hfile : t.nodeAt? found = some (.file bytes)) (hne : found ≠ place) :
    after.read q = t.read q := by
  have hkept : after.nodeAt? found = some (.file bytes) := by
    rw [← standing?_eq_file_iff] at hfile ⊢
    rw [h.standing? found hne, hfile]
  have hfind := find_eq_ok_iff.2 ⟨hfound, hfile⟩
  have hfind' := find_eq_ok_iff.2 ⟨h.shapedIn.resolve hfound, hkept⟩
  rw [read, read, hfind, hfind']
  simp only [allow, h.limits]

end Wrote

/-! ### Two names in one directory -/

/-- A way by one name leads to it, unless it is a link. -/
theorem Way.cases_name (h : t.Way true found links place (name :: rest)) (hname : Path.IsName name)
    (hrest : ∀ s ∈ rest, Path.IsSilent s) :
    t.obstacle? place name = none ∧ IsName name ∧
      (found = name :: place ∨ ∃ target, t.nodeAt? (name :: place) = some (.link target)) := by
  cases h with
  | silent _ hsilent => exact absurd hsilent hname.not_isSilent
  | up => exact absurd rfl hname.2.2
  | unfollowed _ _ _ hfollow => cases hfollow
  | link hopen hname hnode => exact ⟨hopen, hname, .inr ⟨_, hnode⟩⟩
  | entry hopen hname _ _ hway => exact ⟨hopen, hname, .inl (hway.eq_of_silent hrest).symm⟩

/-- A way that ends with a link goes as far as the link if that is not followed. -/
theorem Way.concat_link (h : t.Way true dir links place segments)
    (hopen : t.obstacle? dir name = none) (hname : IsName name)
    (hnode : t.nodeAt? (name :: dir) = some (.link target)) :
    t.Way false (name :: dir) links place (segments ++ [name]) := by
  induction h with
  | finish => exact .unfollowed hopen hname hnode rfl rfl
  | silent hplace hsilent _ ih => exact .silent hplace hsilent ih
  | up hplace _ ih => exact .up hplace ih
  | unfollowed _ _ _ hfollow => cases hfollow
  | link hplace hinner hlink _ _ ih =>
      rw [List.append_assoc] at ih
      exact .link hplace hinner hlink (by simp) ih
  | entry hplace hinner hchild hnot _ ih => exact .entry hplace hinner hchild hnot ih

/-- Behind the way to a file nothing follows, not even silent segments. -/
theorem Way.eq_nil_of_file (h : t.Way true found links place (segments ++ rest))
    (hfile : t.nodeAt? found = some (.file bytes)) (hrest : ∀ s ∈ rest, Path.IsSilent s) :
    rest = [] := by
  obtain ⟨mid, left, -, hway⟩ := h.exists_of_append rfl
  obtain rfl := hway.eq_of_silent hrest
  cases hway with
  | finish => rfl
  | silent hopen | up hopen | unfollowed hopen | link hopen | entry hopen =>
      have hdir := isDirectoryAt_of_obstacle? hopen
      rw [isDirectoryAt, hfile] at hdir
      cases hdir

/-- A path to a link in the directory that the segments before its name lead to. -/
theorem isLink_of_way (hfound : t.resolve true p = .ok found)
    (hsegments : Path.segments p = segments ++ [name])
    (h : t.Way true dir linkLimit (t.startOf p) segments) (hopen : t.obstacle? dir name = none)
    (hname : IsName name) (hnode : t.nodeAt? (name :: dir) = some (.link target)) :
    t.IsLink p := by
  obtain ⟨hcheck, -⟩ := resolve_eq_ok_iff.1 hfound
  refine ⟨target, node_eq_ok_iff.2 ⟨name :: dir, ?_, hnode⟩⟩
  rw [resolve_eq_ok_iff, hsegments]
  exact ⟨hcheck, h.concat_link hopen hname hnode⟩

/-- Different names in one directory lead to the same file only if one of them is a link. -/
theorem isLink_or_isLink_of_beside (h : Path.Beside p q) (hp : t.resolve true p = .ok found)
    (hq : t.resolve true q = .ok found) (hfile : t.nodeAt? found = some (.file bytes)) :
    t.IsLink p ∨ t.IsLink q := by
  cases h with
  | intro hsegmentsp hsilent hsegmentsq hstart hnamep hnameq hne =>
      have hwayp := way_of_resolve hp
      have hwayq := way_of_resolve hq
      have hbegin : t.startOf q = t.startOf p := by rw [startOf, hstart, startOf]
      rw [hsegmentsp, List.append_cons] at hwayp
      obtain ⟨hbefore, hback⟩ := List.forall_mem_append.1 hsilent
      obtain rfl := hwayp.eq_nil_of_file hfile hback
      rw [List.append_nil] at hwayp
      rw [hbegin, hsegmentsq] at hwayq
      -- The segments before both names lead to the same directory.
      obtain ⟨dirp, leftp, hdirsp, hlastp⟩ := hwayp.exists_of_append rfl
      obtain ⟨dir, leftq, hdirsq, hlastq⟩ := hwayq.exists_of_append rfl
      obtain ⟨mid, left, hfront, hbetween⟩ := hdirsp.exists_of_append rfl
      obtain rfl := hbetween.eq_of_silent hbefore
      obtain rfl := hfront.eq hdirsq
      obtain ⟨hopenp, hnamep, hcasep⟩ := hlastp.cases_name hnamep (by simp)
      obtain ⟨hopenq, hnameq, hcaseq⟩ := hlastq.cases_name hnameq (by simp)
      rcases hcasep with hplacep | ⟨target, hlink⟩
      · rcases hcaseq with hplaceq | ⟨target, hlink⟩
        · rw [hplacep] at hplaceq
          exact absurd (List.cons.inj hplaceq).1.symm hne
        · rw [← hbegin] at hdirsq
          exact .inr (isLink_of_way hq hsegmentsq hdirsq hopenq hnameq hlink)
      · exact .inl (isLink_of_way hp hsegmentsp hdirsp hopenp hnamep hlink)

theorem Wrote.read_eq_or_sameByLink (h : t.Wrote after q written place)
    (hbeside : Path.Beside p q) (hisFile : t.isFile p = true) :
    after.read p = t.read p ∨ t.SameByLink p q := by
  obtain ⟨found, bytes, hfound, hfile⟩ := isFile_eq_true_iff.1 hisFile
  by_cases hplace : found = place
  · right
    obtain rfl := hplace
    have hq := (h.shapedIn_before hfile).resolve h.resolve
    exact ⟨hfound.trans hq.symm, isLink_or_isLink_of_beside hbeside hfound hq hfile⟩
  · exact .inl (h.read_eq hfound hfile hplace)

/-- What is written beside a file leaves that file as it was, unless one of the two names is a
link by which both lead to the same file. -/
theorem Writes.read_eq_or_sameByLink {changed : Changed} (h : t.Writes q written changed)
    (hbeside : Path.Beside p q) (hisFile : t.isFile p = true) :
    changed.files.read p = t.read p ∨ t.SameByLink p q := by
  cases h with
  | unopened | device => exact .inl rfl
  | part hwrote | whole hwrote => exact hwrote.read_eq_or_sameByLink hbeside hisFile

end FileTree
end DocClaims
