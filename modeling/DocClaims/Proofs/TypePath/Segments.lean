import DocClaims.Proofs.Rules.QualifiedNames
import DocClaims.Proofs.TypePath.Hyphens

/-!
# The segments of an expected path

The segments of an expected path come from those of the type's name, which may hold slashes of
their own. The first of them gets a prefix and the last one a suffix, so these two always name
an entry; the others do exactly if they do so in the name.
-/

namespace DocClaims

theorem isName_kebabCase_iff {s : String} : Path.IsName (kebabCase s) ↔ Path.IsName s := by
  have hempty : kebabCase s = "" ↔ s = "" := kebabCase_eq_iff_of_dots (by simp)
  have hdot : kebabCase s = "." ↔ s = "." := kebabCase_eq_iff_of_dots (by simp)
  have hdots : kebabCase s = ".." ↔ s = ".." := kebabCase_eq_iff_of_dots (by simp)
  rw [Path.isName_encode_iff, Path.isName_encode_iff, Ne, Ne, Ne, hempty, hdot, hdots]

namespace TypePath

/-- The slash-separated steps that the segments of a name are made of. -/
def steps (name : String) : List String := (segments name).flatMap Path.steps

variable {segs rest : List String} {first name : String} {p : TypePath}

theorem ofSegments?_eq_none_iff : ofSegments? segs = none ↔ segs.length < 2 := by
  match segs with
  | [] => simp [ofSegments?]
  | [s] => simp [ofSegments?]
  | moduleName :: s :: rest => simp [ofSegments?]

theorem ofSegments?_eq_some_iff :
    ofSegments? segs = some p ↔ ∃ first rest, segs = first :: rest ∧ rest ≠ [] ∧
      p.relative = "module-" ++ kebabCase first ++ "/" ++ String.intercalate "/" rest ++ ".php" ∧
      rest.getLast? = some p.shortName := by
  match segs with
  | [] => simp [ofSegments?]
  | [s] => simp [ofSegments?]
  | moduleName :: s :: rest =>
      rw [ofSegments?, Option.some.injEq]
      constructor
      · rintro rfl
        exact ⟨_, _, rfl, List.cons_ne_nil _ _, rfl, List.getLast?_eq_some_getLast _⟩
      · rintro ⟨first, others, hsegs, hne, hrelative, hlast⟩
        obtain ⟨rfl, rfl⟩ := List.cons.inj hsegs
        rw [List.getLast?_eq_some_getLast hne, Option.some.injEq] at hlast
        cases p
        dsimp only at hrelative hlast
        rw [← hrelative, ← hlast]

/-- The steps of the path: all steps of the name, but the first with a prefix and the last
with a suffix, and the first segment of the name written in words. -/
theorem exists_steps_relative (h : ofSegments? (first :: rest) = some p) :
    ∃ head tail front last, Path.steps first = head :: tail ∧
      rest.flatMap Path.steps = front ++ [last] ∧
      Path.steps p.relative =
        ("module-" ++ kebabCase head) :: (tail.map kebabCase ++ front ++ [last ++ ".php"]) := by
  obtain ⟨_, _, hsegs, hne, hrelative, -⟩ := ofSegments?_eq_some_iff.1 h
  obtain ⟨rfl, rfl⟩ := List.cons.inj hsegs
  obtain ⟨head, tail, hfirst, -⟩ := Path.exists_steps_eq_cons first
  obtain ⟨front, last, hrest, hbehind⟩ :=
    Path.exists_steps_eq_concat (String.intercalate "/" rest)
  obtain ⟨head', tail', hkebab, hbefore⟩ := Path.exists_steps_eq_cons (kebabCase first)
  rw [steps_kebabCase, hfirst] at hkebab
  obtain ⟨rfl, rfl⟩ := List.cons.inj hkebab
  have hprefix : '/' ∉ "module-".toList := by decide
  have hsuffix : '/' ∉ ".php".toList := by decide
  refine ⟨head, tail, front, last, hfirst, ?_, ?_⟩
  · rw [← Path.steps_intercalate_eq_flatMap hne, hrest]
  · rw [hrelative, String.append_assoc, Path.steps_append_slash, hbefore _ hprefix,
      hbehind _ hsuffix, List.cons_append, List.append_assoc]

theorem exists_getLast?_segments (h : ofName? name = some p) :
    ∃ last : String, (Path.segments p.relative).getLast? = some (Text.encode (last ++ ".php")) := by
  rw [ofName?] at h
  obtain ⟨first, rest, hsegs, -⟩ := ofSegments?_eq_some_iff.1 h
  rw [hsegs] at h
  obtain ⟨_, _, _, last, -, -, hrelative⟩ := exists_steps_relative h
  refine ⟨last, ?_⟩
  rw [Path.segments_encode, hrelative, ← List.cons_append, List.map_append, List.map_singleton,
    List.getLast?_concat]

theorem isName_prefix_append (s : String) :
    Path.IsName (Text.encode ("module-" ++ s)) := by
  have hhead (t : String) (ht : t.toList.head? ≠ some 'm') : "module-" ++ s ≠ t := by
    rintro rfl
    exact ht (by simp)
  exact Path.isName_encode_iff.2 ⟨hhead _ (by decide), hhead _ (by decide), hhead _ (by decide)⟩

theorem isName_append_suffix (s : String) :
    Path.IsName (Text.encode (s ++ ".php")) := by
  have hlast (t : String) (ht : t.toList.getLast? ≠ some 'p') : s ++ ".php" ≠ t := by
    rintro rfl
    exact ht (by simp)
  exact Path.isName_encode_iff.2 ⟨hlast _ (by decide), hlast _ (by decide), hlast _ (by decide)⟩

/-- All segments of the path name an entry exactly if all steps of the name do that are neither
the first nor the last. -/
theorem forall_isName_iff (h : ofName? name = some p) :
    (∀ s ∈ Path.segments p.relative, Path.IsName s) ↔
      ∀ s ∈ (steps name).tail.dropLast, Path.IsName s := by
  rw [ofName?] at h
  obtain ⟨first, rest, hsegs, -⟩ := ofSegments?_eq_some_iff.1 h
  rw [hsegs] at h
  obtain ⟨head, tail, front, last, hfirst, hrest, hrelative⟩ := exists_steps_relative h
  have hinner : (steps name).tail.dropLast = tail ++ front := by
    rw [steps, hsegs, List.flatMap_cons, hfirst, hrest, List.cons_append, List.tail_cons,
      ← List.append_assoc, List.dropLast_concat]
  rw [hinner, Path.segments_encode, List.forall_mem_map, hrelative, List.forall_mem_cons,
    List.forall_mem_append, List.forall_mem_append, List.forall_mem_map, List.forall_mem_append,
    List.forall_mem_singleton]
  simp only [isName_prefix_append, isName_append_suffix, isName_kebabCase_iff, true_and, and_true]

theorem not_isAbsolute_relative (h : ofName? name = some p) :
    Path.isAbsolute p.relative = false := by
  obtain ⟨first, rest, -, -, hrelative, -⟩ := ofSegments?_eq_some_iff.1 h
  rw [Path.isAbsolute_encode, hrelative]
  simp

/-! ### Names of letters and digits -/

/-- A segment as qualified names in texts have it: letters and digits, at least one. -/
def IsSegment (s : String) : Prop :=
  s ≠ "" ∧ ∀ c ∈ s.toList, Text.isAsciiLetter c || Text.isAsciiDigit c

theorem IsSegment.steps_eq {s : String} (h : IsSegment s) : Path.steps s = [s] := by
  apply Path.steps_of_not_mem
  intro hslash
  exact absurd (h.2 _ hslash) (by decide)

theorem flatMap_steps (h : ∀ s ∈ segs, IsSegment s) : segs.flatMap Path.steps = segs := by
  induction segs with
  | nil => rfl
  | cons s segs ih =>
      obtain ⟨hs, hsegs⟩ := List.forall_mem_cons.1 h
      rw [List.flatMap_cons, hs.steps_eq, ih hsegs, List.singleton_append]

/-- The pieces between backslashes that are not empty. -/
def pieces (cs : List Char) : List String :=
  ((Text.split '\\' cs).filter (!·.isEmpty)).map String.ofList

theorem exists_segments_eq_pieces (name : String) :
    ∃ cs, segments name = pieces cs ∧ cs ⊆ name.toList := by
  rw [segments]
  split
  · exact ⟨_, rfl, List.drop_subset _ _⟩
  · exact ⟨_, rfl, List.Subset.refl _⟩

theorem isSegment_of_mem_segments (h : ∀ c ∈ name.toList, isQualifiedChar c) :
    ∀ s ∈ segments name, IsSegment s := by
  obtain ⟨cs, hsegments, hcs⟩ := exists_segments_eq_pieces name
  intro s hs
  rw [hsegments, pieces, List.mem_map] at hs
  obtain ⟨piece, hpiece, rfl⟩ := hs
  obtain ⟨hmem, hne⟩ := List.mem_filter.1 hpiece
  obtain ⟨hbackslash, hsubset⟩ := Text.of_mem_split hmem
  constructor
  · intro hempty
    rw [← String.toList_inj, String.toList_ofList] at hempty
    rw [hempty] at hne
    exact absurd hne (by decide)
  · intro c hc
    rw [String.toList_ofList] at hc
    have hchar := h c (hcs (hsubset hc))
    have hother : c ≠ '\\' := by
      rintro rfl
      exact hbackslash hc
    simpa [isQualifiedChar, hother] using hchar

theorem isQualifiedChar_of_mem_claims {text : String} {claim : Claim}
    (h : claim ∈ Rule.qualifiedName.claims text) : ∀ c ∈ claim.value.toList, isQualifiedChar c := by
  obtain ⟨hvalue, -⟩ := Rule.mem_claims_iff.1 h
  rw [Rule.readBy_qualifiedName.values_eq, List.mem_map] at hvalue
  obtain ⟨found, hfound, hchars⟩ := hvalue
  have hread := Reader.at?_of_mem_scan hfound
  rw [Reader.at?, Reader.drop_of_at? hread] at hread
  rw [← hchars]
  exact (Reader.of_read?_qualifiedName hread).1

theorem isAscii_kebabCase {s : String} (h : IsSegment s) :
    ∀ c ∈ (kebabCase s).toList, c.toNat < 128 := by
  intro d hd
  rw [toList_kebabCase, ← kebabFrom_slash] at hd
  rcases exists_of_mem_kebabFrom hd with rfl | ⟨c, hc, hd⟩
  · decide
  · rw [(lowerChar_of_isSegmentChar (h.2 c hc)).1, List.mem_singleton] at hd
    rw [hd]
    exact of_forall_ascii (p := fun c => c.toLower.toNat < 128) (by decide)
      (lt_of_isSegmentChar (h.2 c hc))

/-- The path of a type that a text names is of ASCII characters. -/
theorem isAscii_of_mem_claims {text : String} {claim : Claim}
    (hclaim : claim ∈ Rule.qualifiedName.claims text) (h : ofName? claim.value = some p) :
    ∀ s ∈ Path.steps p.relative, ∀ c ∈ s.toList, c.toNat < 128 := by
  have hsegments := isSegment_of_mem_segments (isQualifiedChar_of_mem_claims hclaim)
  rw [ofName?] at h
  obtain ⟨first, rest, hsegs, -⟩ := ofSegments?_eq_some_iff.1 h
  rw [hsegs] at h hsegments
  obtain ⟨hfirst, hrest⟩ := List.forall_mem_cons.1 hsegments
  obtain ⟨head, tail, front, last, hhead, hlast, hrelative⟩ := exists_steps_relative h
  obtain ⟨rfl, rfl⟩ := List.cons.inj (hfirst.steps_eq.symm.trans hhead)
  rw [flatMap_steps hrest] at hlast
  rw [hlast] at hrest
  obtain ⟨hfront, hlast⟩ := List.forall_mem_append.1 hrest
  have hascii {s : String} (hs : IsSegment s) : ∀ c ∈ s.toList, c.toNat < 128 :=
    fun c hc => lt_of_isSegmentChar (hs.2 c hc)
  have hmodule : ∀ c ∈ "module-".toList, c.toNat < 128 := by simp
  have hsuffix : ∀ c ∈ ".php".toList, c.toNat < 128 := by simp
  rw [hrelative, List.map_nil, List.nil_append, List.forall_mem_cons, List.forall_mem_append,
    List.forall_mem_singleton, String.toList_append, String.toList_append, List.forall_mem_append,
    List.forall_mem_append]
  exact ⟨⟨hmodule, isAscii_kebabCase hfirst⟩, fun s hs => hascii (hfront s hs),
    hascii (hlast last (List.mem_singleton_self last)), hsuffix⟩

end TypePath
end DocClaims
