import DocClaims.Proofs.Pattern.Readings
import DocClaims.Proofs.Rules

/-!
# Configuration paths

A configuration path has two or three segments with slashes between them, and begins and ends
where words do. The first segment is in small letters; the others may have underscores. A
third segment that a word goes on behind is not taken.
-/

namespace DocClaims

open Pattern (isWord)
open Reading

section

variable {before : Option Char} {cs s rest : List Char}

/-- A slash and the longest run of small letters and underscores behind it. -/
def segment? : List Char → Option (List Char) :=
  row? (word? "/".toList) (run? Rule.isSnakeChar)

/-- A segment in small letters and another one. -/
def shortPath? : List Char → Option (List Char) := row? (run? Text.isAsciiLower) segment?

/-- A third segment behind these two. -/
def longPath? : List Char → Option (List Char) := row? shortPath? segment?

/-- No word goes on behind `s`, with which the characters begin. -/
def endsWord (cs s : List Char) : Bool := !isWord (cs.drop s.length).head?

/-- Three segments if a word ends behind them, else two if a word ends there. -/
def configPath? (before : Option Char) (cs : List Char) : Option (List Char) :=
  if isWord before then none
  else ((longPath? cs).filter (endsWord cs)).or ((shortPath? cs).filter (endsWord cs))

theorem begins_segment? : Begins segment? := begins_row? (begins_word? _) (begins_run? _)

theorem begins_shortPath? : Begins shortPath? := begins_row? (begins_run? _) begins_segment?

theorem begins_longPath? : Begins longPath? := begins_row? begins_shortPath? begins_segment?

theorem segment?_append_eq_some_iff :
    segment? (s ++ rest) = some s ↔ ∃ run, s = '/' :: run ∧ run ≠ [] ∧
      (∀ c ∈ run, Rule.isSnakeChar c) ∧ ∀ c ∈ rest.head?, Rule.isSnakeChar c = false := by
  simp only [segment?, row?_append_eq_some_iff, word?_append_eq_some_iff, run?_append_eq_some_iff]
  constructor
  · rintro ⟨_, run, rfl, rfl, hrun⟩
    exact ⟨run, rfl, hrun⟩
  · rintro ⟨run, rfl, hrun⟩
    exact ⟨_, run, rfl, rfl, hrun⟩

theorem head?_of_segment? (h : segment? cs = some s) : s.head? = some '/' := by
  obtain ⟨behind, rfl⟩ := begins_segment? h
  obtain ⟨run, rfl, -⟩ := segment?_append_eq_some_iff.1 h
  rfl

/-- A segment ends with a word character. -/
theorem isWord_getLast?_of_segment? (h : segment? cs = some s) : isWord s.getLast? := by
  obtain ⟨rest, rfl⟩ := begins_segment? h
  obtain ⟨run, rfl, hne, hrun, -⟩ := segment?_append_eq_some_iff.1 h
  have hword : ∀ c ∈ run, Text.isWordChar c := fun c hc =>
    Rule.isWordChar_of_lowerUnderSet (by rw [Rule.has_lowerUnderSet, hrun c hc])
  have hends := Rule.wordEnds_of_forall (List.length_pos_iff.2 hne) hword
  exact Rule.isWord_getLast?_append (s := ['/']) hends.last

theorem shortPath?_append_eq_some_iff :
    shortPath? (s ++ rest) = some s ↔ ∃ stem second, s = stem ++ second ∧ stem ≠ [] ∧
      (∀ c ∈ stem, Text.isAsciiLower c) ∧ segment? (second ++ rest) = some second := by
  simp only [shortPath?, row?_append_eq_some_iff, run?_append_eq_some_iff]
  constructor
  · rintro ⟨stem, second, rfl, ⟨hne, hstem, -⟩, hsecond⟩
    exact ⟨stem, second, rfl, hne, hstem, hsecond⟩
  · rintro ⟨stem, second, rfl, hne, hstem, hsecond⟩
    have hslash : ∀ c ∈ (second ++ rest).head?, Text.isAsciiLower c = false := by
      rw [List.head?_append, head?_of_segment? hsecond]
      rintro _ ⟨⟩
      decide
    exact ⟨stem, second, rfl, ⟨hne, hstem, hslash⟩, hsecond⟩

/-- What is read of a path does not depend on what follows, if its last segment cannot go on. -/
theorem shortPath?_append {other : List Char} (h : shortPath? (s ++ rest) = some s)
    (hother : ∀ c ∈ other.head?, Rule.isSnakeChar c = false) :
    shortPath? (s ++ other) = some s := by
  obtain ⟨stem, second, rfl, hne, hstem, hsecond⟩ := shortPath?_append_eq_some_iff.1 h
  obtain ⟨run, hslash, hrun, hsnake, -⟩ := segment?_append_eq_some_iff.1 hsecond
  have halone : segment? (second ++ other) = some second :=
    segment?_append_eq_some_iff.2 ⟨run, hslash, hrun, hsnake, hother⟩
  exact shortPath?_append_eq_some_iff.2 ⟨stem, second, rfl, hne, hstem, halone⟩

theorem longPath?_alone (h : longPath? (s ++ rest) = some s) : longPath? s = some s := by
  obtain ⟨path, third, rfl, hpath, hthird⟩ := row?_append_eq_some_iff.1 h
  obtain ⟨run, hslash, hrun, hsnake, -⟩ := segment?_append_eq_some_iff.1 hthird
  have halone : segment? (third ++ []) = some third :=
    segment?_append_eq_some_iff.2 ⟨run, hslash, hrun, hsnake, by simp⟩
  have hshort : shortPath? (path ++ (third ++ [])) = some path := by
    apply shortPath?_append hpath
    rw [hslash]
    rintro _ ⟨⟩
    decide
  have hlong : longPath? (path ++ third ++ []) = some (path ++ third) :=
    row?_append_eq_some_iff.2 ⟨path, third, rfl, hshort, halone⟩
  rwa [List.append_nil] at hlong

theorem slash_mem_of_shortPath? (h : shortPath? cs = some s) : '/' ∈ s := by
  obtain ⟨rest, rfl⟩ := begins_shortPath? h
  obtain ⟨stem, second, rfl, -, -, hsecond⟩ := shortPath?_append_eq_some_iff.1 h
  exact List.mem_append_right stem (List.mem_of_mem_head? (head?_of_segment? hsecond))

theorem isWord_getLast?_of_shortPath? (h : shortPath? cs = some s) : isWord s.getLast? := by
  obtain ⟨rest, rfl⟩ := begins_shortPath? h
  obtain ⟨stem, second, rfl, -, -, hsecond⟩ := shortPath?_append_eq_some_iff.1 h
  exact Rule.isWord_getLast?_append (isWord_getLast?_of_segment? hsecond)

theorem isWord_getLast?_of_longPath? (h : longPath? cs = some s) : isWord s.getLast? := by
  obtain ⟨rest, rfl⟩ := begins_longPath? h
  obtain ⟨path, third, rfl, -, hthird⟩ := row?_append_eq_some_iff.1 h
  exact Rule.isWord_getLast?_append (isWord_getLast?_of_segment? hthird)

theorem of_configPath? (h : configPath? before cs = some s) :
    endsWord cs s ∧ (longPath? cs = some s ∨ shortPath? cs = some s) := by
  rw [configPath?] at h
  split at h
  · cases h
  · rcases Option.or_eq_some_iff.1 h with hlong | ⟨-, hshort⟩
    · obtain ⟨hlong, hends⟩ := Option.filter_eq_some_iff.1 hlong
      exact ⟨hends, .inl hlong⟩
    · obtain ⟨hshort, hends⟩ := Option.filter_eq_some_iff.1 hshort
      exact ⟨hends, .inr hshort⟩

theorem slash_mem_of_configPath? (h : configPath? before cs = some s) : '/' ∈ s := by
  rcases (of_configPath? h).2 with hlong | hshort
  · obtain ⟨rest, rfl⟩ := begins_longPath? hlong
    obtain ⟨path, third, rfl, hpath, -⟩ := row?_append_eq_some_iff.1 hlong
    exact List.mem_append_left third (slash_mem_of_shortPath? hpath)
  · exact slash_mem_of_shortPath? hshort

theorem begins_configPath? : Begins (configPath? before) := by
  intro cs s h
  rcases (of_configPath? h).2 with hlong | hshort
  · exact begins_longPath? hlong
  · exact begins_shortPath? hshort

end

namespace Reader

def configPath : Reader where
  read? := configPath?
  begins := begins_configPath?
  ne_nil h := List.ne_nil_of_mem (slash_mem_of_configPath? h)

theorem readsAlone_configPath : configPath.ReadsAlone := by
  intro before cs s h
  have hends : endsWord s s := by simp [endsWord, isWord]
  obtain ⟨rest, rfl⟩ := configPath.begins h
  change configPath? none s = some s
  rw [configPath?, if_neg (by simp [isWord])]
  rcases (of_configPath? h).2 with hlong | hshort
  · rw [longPath?_alone hlong]
    simp [hends]
  · have halone : shortPath? (s ++ []) = some s := shortPath?_append hshort (by simp)
    rw [List.append_nil] at halone
    have hlong : longPath? s = none := by
      rw [longPath?, row?, halone, Option.bind_some, List.drop_length]
      rfl
    rw [hlong, halone]
    simp [hends]

end Reader

namespace Rule

open Pattern CharSet

variable {γ : Type} {cur : Cursor} {value : Option Span} {next : Cursor → Option Span → Option γ}

def segmentPattern : Pattern := literal "/" ++ run 1 lowerUnderSet

def pathPattern : Pattern := run 1 lowerSet ++ (segmentPattern ++ optional segmentPattern)

theorem takes_segmentPattern (h : RefusesBetween (next · value) lowerUnderSet) :
    segmentPattern.Takes segment? value next :=
  (takes_literal "/").append (takes_run has_lowerUnderSet (.inl h))

theorem segment?_cons_of_has {set : CharSet} (hset : set.has '/' = false) (c : Char)
    (rest : List Char) (hc : set.has c) : segment? (c :: rest) = none := by
  have hne : '/' ≠ c := by
    rintro rfl
    rw [hset] at hc
    cases hc
  exact row?_word?_of_ne (w := []) hne

/-- The third segment is taken where what follows allows it. -/
theorem matchThen_pathPattern (h : RefusesBetween (next · value) lowerUnderSet) (cur : Cursor) :
    pathPattern.matchThen cur value next =
      ((longPath? cur.rest).bind fun s => next (cur.behind s) value).or
        ((shortPath? cur.rest).bind fun s => next (cur.behind s) value) := by
  have hoptional (cur : Cursor) : (optional segmentPattern).matchThen cur value next =
      ((segment? cur.rest).bind fun s => next (cur.behind s) value).or (next cur value) := by
    rw [matchThen, takes_segmentPattern h cur]
    cases (segment? cur.rest).bind fun s => next (cur.behind s) value <;> rfl
  have hbetween : RefusesBetween (fun cur => (optional segmentPattern).matchThen cur value next)
      lowerUnderSet := by
    intro cur b c rest hbefore hb hrest hc
    refine (hoptional cur).trans ?_
    rw [hrest, segment?_cons_of_has (by decide) c rest hc]
    exact h cur b c rest hbefore hb hrest hc
  have hsegment : segmentPattern.Takes segment? value fun cur value =>
      (optional segmentPattern).matchThen cur value next := takes_segmentPattern hbetween
  have hstem : Refuses (fun cur => segmentPattern.matchThen cur value fun cur value =>
      (optional segmentPattern).matchThen cur value next) lowerSet :=
    hsegment.refuses (segment?_cons_of_has (by decide))
  have hshort : (run 1 lowerSet ++ segmentPattern).Takes shortPath? value fun cur value =>
      (optional segmentPattern).matchThen cur value next :=
    (takes_run has_lowerSet (.inl hstem.between)).append hsegment
  refine (hshort cur).trans ?_
  rw [longPath?, bind_row? shortPath? segment? cur (next · value)]
  cases shortPath? cur.rest with
  | none => rfl
  | some s => exact hoptional (cur.behind s)

/-- A path that began at `start` may end at a word boundary. -/
def endThen (start : Cursor) (next : Cursor → Option Span → Option γ) (finish : Cursor) :
    Option γ :=
  if finish.atBoundary then next finish (some ⟨start, finish⟩) else none

theorem refusesBetween_endThen (start : Cursor) :
    RefusesBetween (endThen start next) lowerUnderSet := by
  intro cur b c rest hbefore hb hrest hc
  have hword : isWord cur.before = isWord cur.rest.head? := by
    rw [hbefore, hrest]
    exact (isWordChar_of_lowerUnderSet hb).trans (isWordChar_of_lowerUnderSet hc).symm
  refine if_neg fun hboundary => ?_
  exact atBoundary_iff.1 hboundary hword

theorem bind_endThen {path : Option (List Char)} (h : ∀ s ∈ path, isWord s.getLast?) :
    path.bind (fun s => endThen cur next (cur.behind s)) =
      (path.filter (endsWord cur.rest)).bind fun s =>
        next (cur.behind s) (some ⟨cur, cur.behind s⟩) := by
  cases path with
  | none => rfl
  | some s =>
      have hbefore : isWord (cur.behind s).before = true := isWord_or (h s rfl)
      have hboundary : (cur.behind s).atBoundary = endsWord cur.rest s := by
        have hrest : (cur.behind s).rest = cur.rest.drop s.length := rfl
        rw [Bool.eq_iff_iff, atBoundary_iff, hbefore, hrest, endsWord, Bool.not_eq_true', ne_comm,
          ne_eq, Bool.not_eq_true]
      rw [Option.bind_some, endThen, hboundary, Option.filter_some]
      split <;> rfl

/-- Before a small letter there is a word boundary where no word came before. -/
theorem atBoundary_of_run? {s : List Char} (h : run? Text.isAsciiLower cur.rest = some s) :
    cur.atBoundary = !isWord cur.before := by
  obtain ⟨rest, hrest⟩ := begins_run? _ h
  rw [← hrest] at h
  obtain ⟨hne, hletters, -⟩ := run?_append_eq_some_iff.1 h
  have hword : ∀ c ∈ s, Text.isWordChar c := fun c hc =>
    isWordChar_of_lowerSet (by rw [has_lowerSet, hletters c hc])
  have hfirst : isWord cur.rest.head? := by
    rw [← hrest]
    exact isWord_head?_append (wordEnds_of_forall (List.length_pos_iff.2 hne) hword).first
  rw [Bool.eq_iff_iff, atBoundary_iff, hfirst, Bool.not_eq_true', ne_eq, Bool.not_eq_true]

theorem bind_or_bind {α : Type} {f : α → Option γ} (htotal : ∀ a, (f a).isSome)
    (first second : Option α) : (first.bind f).or (second.bind f) = (first.or second).bind f := by
  cases first with
  | none => rfl
  | some a =>
      obtain ⟨found, hfound⟩ := Option.isSome_iff_exists.1 (htotal a)
      rw [Option.some_or, Option.bind_some, hfound, Option.some_or]

theorem readBy_configPath : configPath.pattern.ReadBy Reader.configPath := by
  apply ReadBy.of_matchThen (fun cur finish => some ⟨cur, finish⟩) fun _ _ => rfl
  intro cur next htotal
  have hpattern : configPath.pattern.matchThen cur none next =
      if cur.atBoundary then
        pathPattern.matchThen cur none fun finish _ => endThen cur next finish
      else none := rfl
  have hpath : pathPattern.matchThen cur none (fun finish _ => endThen cur next finish) =
      ((longPath? cur.rest).bind fun s => endThen cur next (cur.behind s)).or
        ((shortPath? cur.rest).bind fun s => endThen cur next (cur.behind s)) := by
    apply matchThen_pathPattern
    exact refusesBetween_endThen cur
  rw [hpattern, hpath, bind_endThen fun s => isWord_getLast?_of_longPath?,
    bind_endThen fun s => isWord_getLast?_of_shortPath?, bind_or_bind fun s => htotal _ _]
  change _ = (configPath? cur.before cur.rest).bind _
  rw [configPath?]
  cases hstem : run? Text.isAsciiLower cur.rest with
  | none =>
      have hshort : shortPath? cur.rest = none := by rw [shortPath?, row?, hstem, Option.bind_none]
      have hlong : longPath? cur.rest = none := by rw [longPath?, row?, hshort, Option.bind_none]
      simp [hshort, hlong]
  | some stem =>
      rw [atBoundary_of_run? hstem]
      cases isWord cur.before <;> rfl

theorem accept_configPath {value : String} (h : '/' ∈ value.toList) :
    configPath.accept value =
      if "http".toList <+: value.toList then none else some .configPaths := by
  have hslash : Text.contains value "/" := by
    obtain ⟨front, behind, hvalue⟩ := List.append_of_mem h
    exact Text.contains_iff.2 ⟨front, behind, by rw [hvalue, List.append_assoc]; rfl⟩
  simp only [accept, hslash, List.isPrefixOf_iff_prefix, Bool.not_true, Bool.false_or]

/-- The rule for configuration paths claims the paths that are read from left to right, but
for those that begin like addresses. These are passed over. -/
theorem claims_configPath (text : String) :
    configPath.claims text =
      ((Reader.configPath.scan text.toList).filter fun path => ¬"http".toList <+: path.chars).map
        fun path => ⟨.configPaths, String.ofList path.chars⟩ := by
  have haccept (value : String) :
      configPath.accept value = none ∨ configPath.accept value = some .configPaths := by
    rw [accept]
    split
    · exact .inl rfl
    · exact .inr rfl
  rw [claims_of_accept haccept, readBy_configPath.values_eq, List.map_map, List.filter_map,
    List.map_map]
  refine congrArg (List.map _) (List.filter_congr fun path hpath => ?_)
  have hslash := slash_mem_of_configPath? (Reader.at?_of_mem_scan hpath)
  have hvalue : '/' ∈ (String.ofList path.chars).toList := by rwa [String.toList_ofList]
  simp [accept_configPath hvalue]

/-- A digit goes on behind the third segment. -/
example : Reader.configPath.at? "web/secure/url9".toList 0 = some "web/secure".toList := by decide

end Rule
end DocClaims
