import DocClaims.Proofs.Path
import DocClaims.Proofs.Pattern.Runs
import DocClaims.Proofs.Pattern.Scans
import DocClaims.Proofs.Rules
import Mathlib.Data.List.TakeWhile

/-!
# Qualified names

A qualified name is the marker of the root namespace with the longest run of letters, digits
and backslashes behind it, but for the backslashes at the end of the run. The two runs of the
rule's pattern share the characters out so that they take just these.
-/

namespace DocClaims

/-- Letters, digits and backslashes. -/
def isQualifiedChar (c : Char) : Bool := Text.isAsciiLetter c || Text.isAsciiDigit c || c == '\\'

/-- The longest run at the beginning, without the backslashes at its end. -/
def qualifiedRun (cs : List Char) : List Char :=
  (cs.takeWhile isQualifiedChar).rdropWhile (· == '\\')

/-- The category of a qualified name, by its last segment. -/
def qualifiedCategory (name : List Char) : Category :=
  if "Interface".toList <:+ (Text.split '\\' name).getLastD [] then .interfaces else .classes

namespace Reader

/-- Reads a name whose run has at least two characters. -/
def qualifiedName : Reader where
  read? _ cs :=
    let run := qualifiedRun (cs.drop qualifiedMarker.length)
    if qualifiedMarker.toList.isPrefixOf cs && 2 ≤ run.length then
      some (qualifiedMarker.toList ++ run)
    else none
  begins := by
    intro before cs s h
    dsimp only at h
    split at h
    · next hread =>
        rw [Bool.and_eq_true, List.isPrefixOf_iff_prefix] at hread
        obtain ⟨⟨rest, rfl⟩, -⟩ := hread
        cases h
        rw [List.prefix_append_right_inj]
        exact (List.rdropWhile_prefix _ _).trans (List.takeWhile_prefix _)
    · cases h
  ne_nil := by
    rintro before cs s h rfl
    dsimp only at h
    split at h <;> cases h

variable {before : Option Char} {s rest run text : List Char} {i : Nat}

theorem rdropWhile_append_eq_left_iff {p : Char → Bool} :
    (s ++ rest).rdropWhile p = s ↔ (∀ c ∈ rest, p c) ∧ ∀ c ∈ s.getLast?, p c = false := by
  constructor
  · intro h
    have hwhole := List.rdropWhile_append_rtakeWhile (p := p) (l := s ++ rest)
    rw [h, List.append_cancel_left_eq] at hwhole
    refine ⟨fun c hc => ?_, fun c hc => ?_⟩
    · rw [← hwhole] at hc
      exact List.mem_rtakeWhile_imp hc
    · obtain ⟨hne, rfl⟩ := List.mem_getLast?_eq_getLast hc
      rw [← h] at hne
      simpa [h] using List.rdropWhile_last_not p (s ++ rest) hne
  · rintro ⟨hrest, hs⟩
    have hall : ∀ c ∈ rest.reverse, p c := fun c hc => hrest c (List.mem_reverse.1 hc)
    rw [List.rdropWhile, List.reverse_append, List.dropWhile_append_of_pos hall, ← List.rdropWhile,
      List.rdropWhile_eq_self_iff]
    intro hne
    simpa using hs _ (List.getLast?_eq_some_getLast hne)

theorem qualifiedRun_append_eq_left_iff :
    qualifiedRun (run ++ rest) = run ↔ (∀ c ∈ run, isQualifiedChar c) ∧
      run.getLast? ≠ some '\\' ∧ ∀ c ∈ rest.takeWhile isQualifiedChar, c = '\\' := by
  have hlast : (∀ c ∈ run.getLast?, (c == '\\') = false) ↔ run.getLast? ≠ some '\\' := by
    cases run.getLast? <;> simp
  rw [qualifiedRun]
  constructor
  · intro h
    have hrun : ∀ c ∈ run, isQualifiedChar c := by
      intro c hc
      rw [← h] at hc
      exact List.mem_takeWhile_imp ((List.rdropWhile_prefix _ _).subset hc)
    rw [List.takeWhile_append_of_pos hrun, rdropWhile_append_eq_left_iff, hlast] at h
    refine ⟨hrun, h.2, fun c hc => ?_⟩
    exact beq_iff_eq.1 (h.1 c hc)
  · rintro ⟨hrun, hend, hrest⟩
    rw [List.takeWhile_append_of_pos hrun, rdropWhile_append_eq_left_iff, hlast]
    exact ⟨fun c hc => beq_iff_eq.2 (hrest c hc), hend⟩

/-- What is read as a name: nothing of the run behind it but backslashes is left. -/
theorem read?_qualifiedName_eq_some_iff :
    qualifiedName.read? before (s ++ rest) = some s ↔ ∃ run,
      s = qualifiedMarker.toList ++ run ∧ 2 ≤ run.length ∧ (∀ c ∈ run, isQualifiedChar c) ∧
        run.getLast? ≠ some '\\' ∧ ∀ c ∈ rest.takeWhile isQualifiedChar, c = '\\' := by
  have hlength : qualifiedMarker.length = qualifiedMarker.toList.length := rfl
  constructor
  · intro h
    simp only [qualifiedName] at h
    split at h
    · next hread =>
        rw [Bool.and_eq_true, decide_eq_true_eq] at hread
        obtain ⟨run, hrun⟩ : ∃ run, run = qualifiedRun ((s ++ rest).drop qualifiedMarker.length) :=
          ⟨_, rfl⟩
        rw [← hrun] at h hread
        obtain rfl := Option.some.inj h
        rw [hlength, List.append_assoc, List.drop_left] at hrun
        exact ⟨run, rfl, hread.2, qualifiedRun_append_eq_left_iff.1 hrun.symm⟩
    · cases h
  · rintro ⟨run, rfl, hlong, hrun⟩
    have hread : qualifiedRun ((qualifiedMarker.toList ++ run ++ rest).drop qualifiedMarker.length) =
        run := by
      rw [hlength, List.append_assoc, List.drop_left]
      exact qualifiedRun_append_eq_left_iff.2 hrun
    have hmarker : qualifiedMarker.toList.isPrefixOf (qualifiedMarker.toList ++ run ++ rest) := by
      rw [List.isPrefixOf_iff_prefix, List.append_assoc]
      exact List.prefix_append _ _
    simp only [qualifiedName, hread, hmarker, hlong, decide_true, Bool.and_true, if_true]

theorem readsAlone_qualifiedName : qualifiedName.ReadsAlone := by
  intro before cs s h
  obtain ⟨rest, rfl⟩ := qualifiedName.begins h
  obtain ⟨run, hs, hlong, hrun, hend, -⟩ := read?_qualifiedName_eq_some_iff.1 h
  have halone : qualifiedName.read? none (s ++ []) = some s :=
    read?_qualifiedName_eq_some_iff.2 ⟨run, hs, hlong, hrun, hend, by simp⟩
  rwa [List.append_nil] at halone

/-- A name ends where its run has nothing but backslashes left. -/
theorem of_read?_qualifiedName (h : qualifiedName.read? before (s ++ rest) = some s) :
    (∀ c ∈ s, isQualifiedChar c) ∧ s.getLast? ≠ some '\\' ∧
      ∀ c ∈ rest.takeWhile isQualifiedChar, c = '\\' := by
  obtain ⟨run, rfl, hlong, hrun, hend, hrest⟩ := read?_qualifiedName_eq_some_iff.1 h
  have hmarker : ∀ c ∈ qualifiedMarker.toList, isQualifiedChar c :=
    List.all_eq_true.1 (by decide)
  have hne : run ≠ [] := List.length_pos_iff.1 (by omega)
  refine ⟨?_, ?_, hrest⟩
  · intro c hc
    rcases List.mem_append.1 hc with hfirst | hsecond
    · exact hmarker c hfirst
    · exact hrun c hsecond
  · rwa [List.getLast?_append_of_ne_nil _ hne]

/-- A name that begins inside of another one ends with it or before. -/
theorem finish_le_of_at?_qualifiedName {j : Nat} {t : List Char}
    (hs : qualifiedName.at? text i = some s) (ht : qualifiedName.at? text j = some t)
    (hij : i ≤ j) (hj : j < i + s.length) : j + t.length ≤ i + s.length := by
  obtain ⟨n, rfl⟩ := Nat.exists_eq_add_of_le hij
  have hdrop := drop_of_at? hs
  rw [at?, hdrop] at hs
  obtain ⟨-, -, hrest⟩ := of_read?_qualifiedName hs
  obtain ⟨behind, hbehind⟩ := qualifiedName.begins ht
  rw [at?, ← hbehind] at ht
  obtain ⟨hqualified, hend, -⟩ := of_read?_qualifiedName ht
  have htext : t ++ behind = s.drop n ++ text.drop (i + s.length) := by
    rw [hbehind, ← List.drop_drop, hdrop, List.drop_append_of_le_length (by omega)]
  by_contra hlonger
  -- what stands of the inner name behind the outer one belongs to the outer one's run
  have hinner : s.drop n <+: t := by
    apply List.prefix_of_prefix_length_le (List.prefix_append _ (text.drop (i + s.length)))
    · rw [← htext]
      exact List.prefix_append _ _
    · rw [List.length_drop]
      omega
  obtain ⟨more, rfl⟩ := hinner
  have hmore : more ≠ [] := by
    rintro rfl
    rw [List.append_nil, List.length_drop] at hlonger
    omega
  have hrun : ∀ c ∈ more, isQualifiedChar c := fun c hc =>
    hqualified c (List.mem_append_right _ hc)
  rw [List.append_assoc, List.append_cancel_left_eq] at htext
  rw [← htext, List.takeWhile_append_of_pos hrun] at hrest
  apply hend
  rw [List.getLast?_append_of_ne_nil _ hmore, List.getLast?_eq_some_getLast hmore]
  exact congrArg some (hrest _ (List.mem_append_left _ (List.getLast_mem hmore)))

end Reader

namespace Rule

open Pattern CharSet

def qualifiedSet : CharSet := oneOf [.range 'A' 'Z', .range 'a' 'z', .range '0' '9', .one '\\']

def letterOrDigitSet : CharSet := oneOf [.range 'A' 'Z', .range 'a' 'z', .range '0' '9']

theorem has_qualifiedSet (c : Char) : qualifiedSet.has c = isQualifiedChar c := by
  simp only [qualifiedSet, has, Item.has, isQualifiedChar, Text.isAsciiLetter, Text.isAsciiLower,
    Text.isAsciiUpper, Text.isAsciiDigit, List.any_cons, List.any_nil, Bool.or_false]
  rw [← Bool.or_assoc, ← Bool.or_assoc, Bool.or_comm ('A' ≤ c && c ≤ 'Z')]

theorem has_letterOrDigitSet (c : Char) :
    letterOrDigitSet.has c = (qualifiedSet.has c && !(c == '\\')) := by
  by_cases hc : c = '\\'
  · subst hc
    decide
  · simp [letterOrDigitSet, qualifiedSet, has, Item.has, beq_eq_false_iff_ne.2 hc]

theorem readBy_qualifiedName : qualifiedName.pattern.ReadBy Reader.qualifiedName := by
  apply ReadBy.of_matchThen (fun _ _ => none) fun _ _ => rfl
  intro cur next htotal
  have hset : (qualifiedSet.has ·) = isQualifiedChar := funext has_qualifiedSet
  have hruns (cur : Cursor) : (run 1 qualifiedSet ++ run 1 letterOrDigitSet).matchThen cur none next =
      if 2 ≤ (qualifiedRun cur.rest).length then next (cur.behind (qualifiedRun cur.rest)) none
      else none := by
    rw [qualifiedRun, ← hset]
    exact runThen_runThen has_letterOrDigitSet fun cur => htotal cur none
  have hmarker : qualifiedName.pattern.matchThen cur none next =
      if qualifiedMarker.toList.isPrefixOf cur.rest then
        (run 1 qualifiedSet ++ run 1 letterOrDigitSet).matchThen
          (cur.behind qualifiedMarker.toList) none next
      else none := literalThen_eq
  have hrest : (cur.behind qualifiedMarker.toList).rest = cur.rest.drop qualifiedMarker.length := rfl
  rw [hmarker, hruns, hrest, Cursor.behind_behind]
  rw [Reader.qualifiedName]
  by_cases hmark : qualifiedMarker.toList.isPrefixOf cur.rest
  · by_cases hlong : 2 ≤ (qualifiedRun (cur.rest.drop qualifiedMarker.length)).length
    · simp [hmark, hlong]
    · simp [hmark, hlong]
  · simp [hmark]

theorem qualifiedCategory_eq (name : List Char) :
    qualifiedName.accept (String.ofList name) = some (qualifiedCategory name) := by
  obtain ⟨front, hsplit⟩ := Text.split_eq '\\' name
  have hlast : lastSegment (String.ofList name) = (Text.split '\\' name).getLastD [] := by
    rw [hsplit, lastSegment, String.toList_ofList]
    simp [List.rtakeWhile]
  rw [accept, hlast, qualifiedCategory]
  simp only [List.isSuffixOf_iff_suffix]
  split <;> rfl

/-- The rule for qualified names claims all names that are read from left to right, each of
them whole: whatever begins like a name lies in one of them, up to its end. -/
theorem claims_qualifiedName (text : String) :
    let found := Reader.qualifiedName.scan text.toList
    qualifiedName.claims text =
      found.map (fun name => ⟨qualifiedCategory name.chars, String.ofList name.chars⟩) ∧
    found.Pairwise (fun name later => name.finish ≤ later.start) ∧
    (∀ i s, Reader.qualifiedName.at? text.toList i = some s →
      ∃! name, name ∈ found ∧ name.start ≤ i ∧ i + s.length ≤ name.finish) ∧
    ∀ name ∈ found, name.chars.getLast? ≠ some '\\' ∧
      ∀ c ∈ (text.toList.drop name.finish).takeWhile isQualifiedChar, c = '\\' := by
  refine ⟨?_, Reader.pairwise_scanFrom _ _, ?_, ?_⟩
  · rw [claims, readBy_qualifiedName.values_eq, List.filterMap_map,
      ← List.filterMap_eq_map]
    refine congrArg (List.filterMap · _) (funext fun name => ?_)
    simp only [Function.comp_apply, qualifiedCategory_eq, Option.map_some]
  · intro i s hs
    obtain ⟨name, ⟨hname, hstart, hinside⟩, hunique⟩ := Reader.existsUnique_mem_scan hs
    have hfinish : i + s.length ≤ name.finish :=
      Reader.finish_le_of_at?_qualifiedName (Reader.at?_of_mem_scan hname) hs hstart hinside
    refine ⟨name, ⟨hname, hstart, hfinish⟩, ?_⟩
    rintro other ⟨hother, hstart', hfinish'⟩
    have hpos := (Reader.lt_of_at? hs).2.2
    exact hunique other ⟨hother, hstart', by omega⟩
  · intro name hname
    have hread := Reader.at?_of_mem_scan hname
    rw [Reader.at?, Reader.drop_of_at? hread] at hread
    exact (Reader.of_read?_qualifiedName hread).2

/-- The marker inside of a name begins no name of its own. -/
theorem claims_qualifiedName_nested :
    let text := "use Magento\\Magento\\Ab\\\\; Magento\\x".toList
    Reader.qualifiedName.at? text 4 = some "Magento\\Magento\\Ab".toList ∧
      Reader.qualifiedName.at? text 12 = some "Magento\\Ab".toList ∧
      (∃! name, name ∈ Reader.qualifiedName.scan text ∧ name.start ≤ 12 ∧ 12 + 10 ≤ name.finish) ∧
      ∃ name ∈ Reader.qualifiedName.scan text, name.chars.getLast? ≠ some '\\' ∧
        ∀ c ∈ (text.drop name.finish).takeWhile isQualifiedChar, c = '\\' := by
  intro text
  have houter : Reader.qualifiedName.at? text 4 = some "Magento\\Magento\\Ab".toList := by decide
  have hinner : Reader.qualifiedName.at? text 12 = some "Magento\\Ab".toList := by decide
  obtain ⟨name, hname, -⟩ := Reader.existsUnique_mem_scan houter
  obtain ⟨-, -, hinside, hwhole⟩ :=
    claims_qualifiedName "use Magento\\Magento\\Ab\\\\; Magento\\x"
  exact ⟨houter, hinner, hinside 12 _ hinner, name, hname.1, hwhole name hname.1⟩

end Rule
end DocClaims
