import DocClaims.Proofs.Rules.Separators

/-!
# Names in joined texts

Where two texts are joined, the characters of names at the end of the first and at the
beginning of the second make up one run, and a run holds one name at most. It begins with the
first marker of the run and ends with the run, but for backslashes. So a name before the joint
is read on where anything else follows, and a name behind it is swallowed where a marker
begins before the joint. All names that do not touch the joint stay as they are.
-/

namespace DocClaims

/-- The names that are read in a text, from left to right. -/
def namesIn (cs : List Char) : List (List Char) := (Reader.qualifiedName.scan cs).map (·.chars)

/-- All but the backslashes at the end. -/
def trimmed (cs : List Char) : List Char := cs.rdropWhile (· == '\\')

section

variable {α : Type}

theorem rdropWhile_append (a b : List α) (p : α → Bool) :
    (a ++ b).rdropWhile p =
      if b.rdropWhile p = [] then a.rdropWhile p else a ++ b.rdropWhile p := by
  simp only [List.rdropWhile, List.reverse_append, List.dropWhile_append, List.isEmpty_iff,
    List.reverse_eq_nil_iff]
  split
  · rfl
  · rw [List.reverse_append, List.reverse_reverse]

theorem rdropWhile_drop (a : List α) (p : α → Bool) (n : Nat) :
    (a.drop n).rdropWhile p = (a.rdropWhile p).drop n := by
  have hwhole := rdropWhile_append (a.take n) (a.drop n) p
  rw [List.take_append_drop] at hwhole
  rw [hwhole]
  split
  · next hnil =>
      have hlength := (List.rdropWhile_prefix p (a.take n)).length_le
      rw [hnil, List.drop_eq_nil_of_le (hlength.trans (List.length_take_le n a))]
  · next hne =>
      have hdrop : a.drop n ≠ [] := fun hnil => hne (by rw [hnil, List.rdropWhile_nil])
      have hlength : (a.take n).length = n :=
        List.length_take_of_le (Nat.le_of_lt (by simpa using hdrop))
      rw [List.drop_left' hlength]

end

theorem length_trimmed_le (cs : List Char) : (trimmed cs).length ≤ cs.length :=
  (List.rdropWhile_prefix _ cs).length_le

theorem trimmed_eq_nil_iff {cs : List Char} : trimmed cs = [] ↔ ∀ c ∈ cs, c = '\\' := by
  simp [trimmed, List.rdropWhile_eq_nil_iff]

theorem trimmed_append (a b : List Char) :
    trimmed (a ++ b) = if trimmed b = [] then trimmed a else a ++ trimmed b :=
  rdropWhile_append a b _

theorem trimmed_append_of_forall (a : List Char) {b : List Char} (h : ∀ c ∈ b, c = '\\') :
    trimmed (a ++ b) = trimmed a := by
  rw [trimmed_append, if_pos (trimmed_eq_nil_iff.2 h)]

theorem trimmed_append_of_ne_nil (a : List Char) {b : List Char} (h : trimmed b ≠ []) :
    trimmed (a ++ b) = a ++ trimmed b := by
  rw [trimmed_append, if_neg h]

/-! ### Names in a run -/

namespace Reader

variable {cs s left right name : List Char} {i j : Nat} {found other : Stretch}

theorem read?_of_qualified (h : ∀ c ∈ cs, isQualifiedChar c) (before : Option Char) :
    qualifiedName.read? before cs =
      if qualifiedMarker.toList <+: cs ∧ 10 ≤ (trimmed cs).length then some (trimmed cs)
      else none := by
  by_cases hmarker : qualifiedMarker.toList <+: cs
  · obtain ⟨run, rfl⟩ := hmarker
    have hrun : qualifiedRun ((qualifiedMarker.toList ++ run).drop qualifiedMarker.length) =
        trimmed run := by
      have hall : run.takeWhile isQualifiedChar = run :=
        List.takeWhile_eq_self_iff.2 fun c hc => h c (List.mem_append_right _ hc)
      rw [List.drop_left' (by rfl), qualifiedRun, hall, trimmed]
    have hbegins : qualifiedMarker.toList.isPrefixOf (qualifiedMarker.toList ++ run) :=
      List.isPrefixOf_iff_prefix.2 (List.prefix_append _ run)
    simp only [qualifiedName, hrun, hbegins, List.prefix_append, Bool.true_and, true_and]
    by_cases hnil : trimmed run = []
    · rw [trimmed_append_of_forall _ (trimmed_eq_nil_iff.1 hnil), hnil]
      rfl
    · rw [trimmed_append_of_ne_nil _ hnil, List.length_append]
      have hlength : qualifiedMarker.toList.length = 8 := rfl
      simp only [hlength, decide_eq_true_eq]
      refine if_congr ?_ rfl rfl
      omega
  · have hbegins : qualifiedMarker.toList.isPrefixOf cs = false := by
      rw [Bool.eq_false_iff]
      exact fun hbegins => hmarker (List.isPrefixOf_iff_prefix.1 hbegins)
    simp only [qualifiedName, hbegins, hmarker, Bool.false_and, false_and, if_false,
      Bool.false_eq_true]

/-- In a run a name is read where a marker is, with enough of the run behind it. -/
theorem at?_of_qualified (h : ∀ c ∈ cs, isQualifiedChar c) (i : Nat) :
    qualifiedName.at? cs i =
      if qualifiedMarker.toList <+: cs.drop i ∧ i + 10 ≤ (trimmed cs).length then
        some ((trimmed cs).drop i)
      else none := by
  have htrimmed : trimmed (cs.drop i) = (trimmed cs).drop i := rdropWhile_drop cs _ i
  rw [at?, read?_of_qualified fun c hc => h c (List.mem_of_mem_drop hc), htrimmed,
    List.length_drop]
  refine if_congr (and_congr_right fun _ => ?_) rfl rfl
  omega

theorem finish_of_at? (h : ∀ c ∈ cs, isQualifiedChar c) (hread : qualifiedName.at? cs i = some s) :
    i + s.length = (trimmed cs).length ∧ 10 ≤ s.length ∧ qualifiedMarker.toList <+: cs.drop i := by
  rw [at?_of_qualified h] at hread
  split at hread
  · next hmarker =>
      obtain rfl := Option.some.inj hread
      rw [List.length_drop]
      exact ⟨by omega, by omega, hmarker.1⟩
  · cases hread

theorem exists_at? (h : ∀ c ∈ cs, isQualifiedChar c) (hmarker : qualifiedMarker.toList <+: cs.drop i)
    (hlength : i + 10 ≤ (trimmed cs).length) : ∃ s, qualifiedName.at? cs i = some s :=
  ⟨_, by rw [at?_of_qualified h, if_pos ⟨hmarker, hlength⟩]⟩

/-- The name of a run begins where the first name is read. -/
theorem start_le_of_mem_scan (h : ∀ c ∈ cs, isQualifiedChar c)
    (hfound : found ∈ qualifiedName.scan cs) (hread : qualifiedName.at? cs i = some s) :
    found.start ≤ i := by
  by_contra hlt
  obtain ⟨hfinish, hlong, -⟩ := finish_of_at? h (at?_of_mem_scan hfound)
  obtain ⟨first, hfirst, hstart, -⟩ := exists_mem_scanFrom (Nat.zero_le i) hread
  obtain ⟨hfinish', -, -⟩ := finish_of_at? h (at?_of_mem_scan hfirst)
  -- both end with the run, but no two names of a scan overlap
  obtain ⟨name, -, hunique⟩ := existsUnique_mem_scan (at?_of_mem_scan hfound)
  have hsame : first = found := by
    rw [hunique first ⟨hfirst, by omega, by rw [Stretch.finish]; omega⟩,
      hunique found ⟨hfound, Nat.le_refl _, by rw [Stretch.finish]; omega⟩]
  rw [hsame] at hstart
  exact hlt hstart

theorem forall_mem_append (hleft : ∀ c ∈ left, isQualifiedChar c)
    (hright : ∀ c ∈ right, isQualifiedChar c) : ∀ c ∈ left ++ right, isQualifiedChar c :=
  List.forall_mem_append.2 ⟨hleft, hright⟩

theorem parts_of_forall_backslash (hleft : ∀ c ∈ left, isQualifiedChar c)
    (hright : ∀ c ∈ right, c = '\\') : qualifiedName.Parts left right := by
  have hqualified : ∀ c ∈ right, isQualifiedChar c := by
    intro c hc
    rw [hright c hc]
    rfl
  have hwhole := forall_mem_append hleft hqualified
  have htrimmed := trimmed_append_of_forall left hright
  have hlength := length_trimmed_le left
  constructor
  · intro i hi
    rw [at?_of_qualified hwhole, at?_of_qualified hleft, htrimmed]
    refine if_congr (and_congr_left fun hlong => ?_) rfl rfl
    rw [List.drop_append_of_le_length (Nat.le_of_lt hi)]
    refine ⟨fun hmarker => ?_, fun hmarker => hmarker.trans (List.prefix_append _ _)⟩
    apply List.prefix_of_prefix_length_le hmarker (List.prefix_append _ right)
    rw [List.length_drop]
    change 8 ≤ _
    omega
  · intro j
    rw [at?_of_qualified hwhole, at?_of_qualified hqualified, htrimmed,
      trimmed_eq_nil_iff.2 hright, if_neg (by omega), if_neg (by simp)]

/-- Where no marker begins before the joint, the runs are read as if each stood alone. -/
theorem parts_of_forall_not_marker (hleft : ∀ c ∈ left, isQualifiedChar c)
    (hright : ∀ c ∈ right, isQualifiedChar c)
    (h : ∀ i < left.length, ¬qualifiedMarker.toList <+: (left ++ right).drop i) :
    qualifiedName.Parts left right := by
  constructor
  · intro i hi
    have halone : ¬qualifiedMarker.toList <+: left.drop i := by
      intro hmarker
      apply h i hi
      rw [List.drop_append_of_le_length (Nat.le_of_lt hi)]
      exact hmarker.trans (List.prefix_append _ _)
    rw [at?_of_qualified (forall_mem_append hleft hright), at?_of_qualified hleft,
      if_neg fun hread => h i hi hread.1, if_neg fun hread => halone hread.1]
  · intro j
    rw [at?, List.drop_length_add_append, at?]
    rfl

theorem namesIn_append_of_parts (h : qualifiedName.Parts left right) :
    namesIn (left ++ right) = namesIn left ++ namesIn right := h.chars_scan_append

theorem length_of_mem_namesIn (h : ∀ c ∈ cs, isQualifiedChar c) (hname : name ∈ namesIn cs) :
    10 ≤ name.length ∧ name.length ≤ (trimmed cs).length := by
  obtain ⟨found, hfound, rfl⟩ := List.mem_map.1 hname
  obtain ⟨hfinish, hlong, -⟩ := finish_of_at? h (at?_of_mem_scan hfound)
  omega

/-- The name of a run takes all of the run behind each marker, but for the last backslashes. -/
theorem length_trimmed_le_of_mem_namesIn (h : ∀ c ∈ cs, isQualifiedChar c) (hname : name ∈ namesIn cs)
    (hmarker : qualifiedMarker.toList <+: cs.drop i) (hlength : i + 10 ≤ (trimmed cs).length) :
    (trimmed cs).length ≤ i + name.length := by
  obtain ⟨found, hfound, rfl⟩ := List.mem_map.1 hname
  obtain ⟨hfinish, -, -⟩ := finish_of_at? h (at?_of_mem_scan hfound)
  obtain ⟨s, hs⟩ := exists_at? h hmarker hlength
  have hstart := start_le_of_mem_scan h hfound hs
  omega

/-- A name before the joint stays as it is where nothing but backslashes follows. -/
theorem mem_namesIn_append_left_iff (hleft : ∀ c ∈ left, isQualifiedChar c)
    (hright : ∀ c ∈ right, isQualifiedChar c) (hname : name ∈ namesIn left) :
    name ∈ namesIn (left ++ right) ↔ ∀ c ∈ right, c = '\\' := by
  constructor
  · intro hjoined
    rw [← trimmed_eq_nil_iff]
    by_contra hne
    have hpos := List.length_pos_iff.2 hne
    obtain ⟨found, hfound, rfl⟩ := List.mem_map.1 hname
    obtain ⟨hfinish, hlong, hmarker⟩ := finish_of_at? hleft (at?_of_mem_scan hfound)
    have hlength := length_trimmed_le left
    have hbegins : qualifiedMarker.toList <+: (left ++ right).drop found.start := by
      rw [List.drop_append_of_le_length (by omega)]
      exact hmarker.trans (List.prefix_append _ _)
    have hwhole := length_trimmed_le_of_mem_namesIn (forall_mem_append hleft hright) hjoined hbegins
    rw [trimmed_append_of_ne_nil left hne, List.length_append] at hwhole
    omega
  · intro hbackslash
    rw [namesIn_append_of_parts (parts_of_forall_backslash hleft hbackslash)]
    exact List.mem_append_left _ hname

/-- A name behind the joint stays as it is where no marker begins before the joint. -/
theorem mem_namesIn_append_right_iff (hleft : ∀ c ∈ left, isQualifiedChar c)
    (hright : ∀ c ∈ right, isQualifiedChar c) (hname : name ∈ namesIn right) :
    name ∈ namesIn (left ++ right) ↔
      ∀ i < left.length, ¬qualifiedMarker.toList <+: (left ++ right).drop i := by
  obtain ⟨hlong, hlength⟩ := length_of_mem_namesIn hright hname
  have hne : trimmed right ≠ [] := by
    apply List.length_pos_iff.1
    omega
  constructor
  · intro hjoined i hi hmarker
    have hwhole := length_trimmed_le_of_mem_namesIn (forall_mem_append hleft hright) hjoined hmarker
    rw [trimmed_append_of_ne_nil left hne, List.length_append] at hwhole
    omega
  · intro hmarker
    rw [namesIn_append_of_parts (parts_of_forall_not_marker hleft hright hmarker)]
    exact List.mem_append_right _ hname

end Reader

/-! ### Joined texts -/

open Reader

/-- The letters, digits and backslashes that a text ends with. -/
def lastRun (s : String) : List Char := s.toList.rtakeWhile isQualifiedChar

def beforeLastRun (s : String) : String := String.ofList (s.toList.rdropWhile isQualifiedChar)

/-- The letters, digits and backslashes that a text begins with. -/
def firstRun (s : String) : List Char := s.toList.takeWhile isQualifiedChar

def behindFirstRun (s : String) : String := String.ofList (s.toList.dropWhile isQualifiedChar)

section

variable {s t : String}

theorem namesIn_nil : namesIn [] = [] := by
  rw [namesIn, scan, scanFrom_of_length_le (Nat.le_refl 0), List.map_nil]

/-- Names change in the run across the joint only. -/
theorem namesIn_append (s t : String) :
    namesIn (s ++ t).toList = namesIn (beforeLastRun s).toList ++
      (namesIn (lastRun s ++ firstRun t) ++ namesIn (behindFirstRun t).toList) := by
  have hends : ∀ c ∈ (s.toList.rdropWhile isQualifiedChar).getLast?, qualifiedName.StopsAt c := by
    intro c hc
    obtain ⟨hne, rfl⟩ := List.mem_getLast?_eq_getLast hc
    apply stopsAt_qualifiedName
    simpa using List.rdropWhile_last_not isQualifiedChar s.toList hne
  have hbegins : ∀ c ∈ (t.toList.dropWhile isQualifiedChar).head?, qualifiedName.StopsAt c := by
    intro c hc
    apply stopsAt_qualifiedName
    have hhead := List.head?_dropWhile_not isQualifiedChar t.toList
    rw [hc] at hhead
    exact hhead
  have hwhole : (s ++ t).toList = s.toList.rdropWhile isQualifiedChar ++
      ((lastRun s ++ firstRun t) ++ t.toList.dropWhile isQualifiedChar) := by
    rw [lastRun, firstRun, List.append_assoc, List.takeWhile_append_dropWhile, ← List.append_assoc,
      List.rdropWhile_append_rtakeWhile, String.toList_append]
  rw [hwhole, namesIn_append_of_parts (parts_of_getLast? hends _),
    namesIn_append_of_parts (parts_of_head? _ hbegins), beforeLastRun, behindFirstRun,
    String.toList_ofList, String.toList_ofList]

theorem namesIn_eq_of_lastRun (s : String) :
    namesIn s.toList = namesIn (beforeLastRun s).toList ++ namesIn (lastRun s) := by
  have hwhole := namesIn_append s ""
  have hfirst : firstRun "" = [] := rfl
  have hbehind : behindFirstRun "" = "" := rfl
  simpa [hfirst, hbehind, namesIn_nil] using hwhole

theorem namesIn_eq_of_firstRun (t : String) :
    namesIn t.toList = namesIn (firstRun t) ++ namesIn (behindFirstRun t).toList := by
  have hwhole := namesIn_append "" t
  have hlast : lastRun "" = [] := rfl
  have hbefore : beforeLastRun "" = "" := rfl
  simpa [hlast, hbefore, namesIn_nil] using hwhole

theorem namesIn_alone {cs : List Char} (h : qualifiedName.read? none cs = some cs) :
    namesIn cs = [cs] := by
  rw [namesIn, scan_alone h, List.map_singleton]

/-- A name at the beginning of a text, which all of its first run is. -/
theorem firstRun_mem_namesIn (h : qualifiedName.read? none (firstRun t) = some (firstRun t)) :
    firstRun t ∈ namesIn t.toList := by
  rw [namesIn_eq_of_firstRun, namesIn_alone h]
  exact List.mem_append_left _ (List.mem_singleton_self _)

theorem isQualifiedChar_of_mem_lastRun : ∀ c ∈ lastRun s, isQualifiedChar c :=
  fun _ hc => List.mem_rtakeWhile_imp hc

theorem isQualifiedChar_of_mem_firstRun : ∀ c ∈ firstRun t, isQualifiedChar c :=
  fun _ hc => List.mem_takeWhile_imp hc

end

namespace Rule

variable {s t text : String} {claim : Claim}

theorem mem_claims_qualifiedName_iff :
    claim ∈ qualifiedName.claims text ↔
      claim.value.toList ∈ namesIn text.toList ∧
        qualifiedName.accept claim.value = some claim.category := by
  rw [mem_claims_iff, readBy_qualifiedName.values_eq, namesIn]

theorem mem_claims_of_accept (h : qualifiedName.accept claim.value = some claim.category) :
    claim ∈ qualifiedName.claims text ↔ claim.value.toList ∈ namesIn text.toList := by
  rw [mem_claims_qualifiedName_iff, and_iff_left h]

/-- A claim of the first text is one of the joined text if it touches no character of the second,
or stands elsewhere too. -/
theorem mem_claims_append_left_iff (h : claim ∈ qualifiedName.claims s) :
    claim ∈ qualifiedName.claims (s ++ t) ↔ (∀ c ∈ firstRun t, c = '\\') ∨
      claim ∈ qualifiedName.claims (beforeLastRun s) ∨
      claim ∈ qualifiedName.claims (behindFirstRun t) := by
  obtain ⟨hname, haccept⟩ := mem_claims_qualifiedName_iff.1 h
  simp only [mem_claims_of_accept haccept, namesIn_append s t, List.mem_append]
  rw [namesIn_eq_of_lastRun, List.mem_append] at hname
  rcases hname with hbefore | hlast
  · simp [hbefore]
  · rw [mem_namesIn_append_left_iff isQualifiedChar_of_mem_lastRun isQualifiedChar_of_mem_firstRun
      hlast]
    exact or_left_comm

theorem mem_claims_append_right_iff (h : claim ∈ qualifiedName.claims t) :
    claim ∈ qualifiedName.claims (s ++ t) ↔
      (∀ i < (lastRun s).length, ¬qualifiedMarker.toList <+: (lastRun s ++ firstRun t).drop i) ∨
      claim ∈ qualifiedName.claims (beforeLastRun s) ∨
      claim ∈ qualifiedName.claims (behindFirstRun t) := by
  obtain ⟨hname, haccept⟩ := mem_claims_qualifiedName_iff.1 h
  simp only [mem_claims_of_accept haccept, namesIn_append s t, List.mem_append]
  rw [namesIn_eq_of_firstRun, List.mem_append] at hname
  rcases hname with hfirst | hbehind
  · rw [mem_namesIn_append_right_iff isQualifiedChar_of_mem_lastRun isQualifiedChar_of_mem_firstRun
      hfirst]
    exact or_left_comm
  · simp [hbehind]

/-- Names are found in texts with the marker only. -/
theorem claims_qualifiedName_of_not_contains (h : Text.contains text qualifiedMarker = false) :
    qualifiedName.claims text = [] := by
  apply List.eq_nil_iff_forall_not_mem.2
  intro claim hclaim
  obtain ⟨hname, -⟩ := mem_claims_qualifiedName_iff.1 hclaim
  obtain ⟨found, hfound, -⟩ := List.mem_map.1 hname
  have hread := at?_of_mem_scan hfound
  have hdrop := drop_of_at? hread
  rw [at?, hdrop] at hread
  obtain ⟨run, hchars, -⟩ := read?_qualifiedName_eq_some_iff.1 hread
  have hmarker : qualifiedMarker.toList <:+: text.toList := by
    refine ⟨text.toList.take found.start, run ++ text.toList.drop (found.start + found.chars.length),
      ?_⟩
    rw [List.append_assoc, ← List.append_assoc qualifiedMarker.toList, ← hchars, ← hdrop,
      List.take_append_drop]
  rw [Text.contains_iff.2 hmarker] at h
  cases h

end Rule
end DocClaims
