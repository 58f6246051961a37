import DocClaims.Proofs.Pattern.Runs
import DocClaims.Proofs.Pattern.Words

/-!
# Readings in a row

Words, one of several words, and longest runs of a class are read from the beginning of a
text, one behind the other. A pattern that shrinks none of its runs matches what is read so.
-/

namespace DocClaims
namespace Reading

variable {p q : List Char → Option (List Char)} {f : Char → Bool} {w cs s rest : List Char}
  {words : List String}

/-- The word, if the characters begin with it. -/
def word? (w cs : List Char) : Option (List Char) := if w.isPrefixOf cs then some w else none

/-- The first of the words that the characters begin with. -/
def oneOf? (words : List String) (cs : List Char) : Option (List Char) :=
  (words.find? (·.toList.isPrefixOf cs)).map String.toList

/-- The longest run of the class, unless it is empty. -/
def run? (f : Char → Bool) (cs : List Char) : Option (List Char) :=
  if (cs.takeWhile f).isEmpty then none else some (cs.takeWhile f)

/-- What the first reads, and what the second reads behind it. -/
def row? (p q : List Char → Option (List Char)) (cs : List Char) : Option (List Char) :=
  (p cs).bind fun s => (q (cs.drop s.length)).map (s ++ ·)

/-- What is read stands at the beginning. -/
def Begins (p : List Char → Option (List Char)) : Prop := ∀ {cs s}, p cs = some s → s <+: cs

theorem word?_append_eq_some_iff : word? w (s ++ rest) = some s ↔ s = w := by
  rw [word?]
  constructor
  · intro h
    split at h
    · exact (Option.some.inj h).symm
    · cases h
  · rintro rfl
    exact if_pos (List.isPrefixOf_iff_prefix.2 (List.prefix_append s rest))

theorem begins_word? (w : List Char) : Begins (word? w) := by
  intro cs s h
  rw [word?] at h
  split at h
  · next hprefix =>
      obtain rfl := Option.some.inj h
      exact List.isPrefixOf_iff_prefix.1 hprefix
  · cases h

theorem of_oneOf? (h : oneOf? words cs = some s) : ∃ word ∈ words, s = word.toList ∧ s <+: cs := by
  obtain ⟨word, hword, rfl⟩ := Option.map_eq_some_iff.1 h
  have hprefix := List.find?_some hword
  rw [List.isPrefixOf_iff_prefix] at hprefix
  exact ⟨word, List.mem_of_find?_eq_some hword, rfl, hprefix⟩

theorem begins_oneOf? (words : List String) : Begins (oneOf? words) := by
  intro cs s h
  obtain ⟨word, -, -, hprefix⟩ := of_oneOf? h
  exact hprefix

/-- Where no word begins with another one, only one of them can be read. -/
theorem oneOf?_append_eq_some_iff
    (hwords : ∀ v ∈ words, ∀ w ∈ words, v.toList <+: w.toList → v = w) :
    oneOf? words (s ++ rest) = some s ↔ ∃ word ∈ words, s = word.toList := by
  constructor
  · intro h
    obtain ⟨word, hword, hs, -⟩ := of_oneOf? h
    exact ⟨word, hword, hs⟩
  · rintro ⟨word, hword, rfl⟩
    have hsome : (oneOf? words (word.toList ++ rest)).isSome := by
      rw [oneOf?, Option.isSome_map, List.find?_isSome]
      exact ⟨word, hword, List.isPrefixOf_iff_prefix.2 (List.prefix_append _ _)⟩
    obtain ⟨t, ht⟩ := Option.isSome_iff_exists.1 hsome
    obtain ⟨other, hother, rfl, hprefix⟩ := of_oneOf? ht
    rw [ht]
    rcases List.prefix_or_prefix_of_prefix hprefix (List.prefix_append word.toList rest) with h | h
    · rw [hwords other hother word hword h]
    · rw [hwords word hword other hother h]

theorem run?_append_eq_some_iff :
    run? f (s ++ rest) = some s ↔ s ≠ [] ∧ (∀ c ∈ s, f c) ∧ ∀ c ∈ rest.head?, f c = false := by
  rw [← takeWhile_append_eq_left_iff, run?]
  constructor
  · intro h
    split at h
    · cases h
    · next hne =>
        have hrun := Option.some.inj h
        rw [hrun] at hne
        exact ⟨by simpa using hne, hrun⟩
  · rintro ⟨hne, hrun⟩
    rw [hrun]
    exact if_neg (by simpa using hne)

theorem begins_run? (f : Char → Bool) : Begins (run? f) := by
  intro cs s h
  rw [run?] at h
  split at h
  · cases h
  · obtain rfl := Option.some.inj h
    exact List.takeWhile_prefix f

theorem row?_append_eq_some_iff : row? p q (s ++ rest) = some s ↔
    ∃ t u, s = t ++ u ∧ p (t ++ (u ++ rest)) = some t ∧ q (u ++ rest) = some u := by
  constructor
  · intro h
    obtain ⟨t, ht, h⟩ := Option.bind_eq_some_iff.1 h
    obtain ⟨u, hu, rfl⟩ := Option.map_eq_some_iff.1 h
    rw [List.append_assoc, List.drop_left] at hu
    rw [List.append_assoc] at ht
    exact ⟨t, u, rfl, ht, hu⟩
  · rintro ⟨t, u, rfl, ht, hu⟩
    rw [List.append_assoc, row?, ht, Option.bind_some, List.drop_left, hu, Option.map_some]

theorem begins_row? (hp : Begins p) (hq : Begins q) : Begins (row? p q) := by
  intro cs s h
  obtain ⟨t, ht, h⟩ := Option.bind_eq_some_iff.1 h
  obtain ⟨u, hu, rfl⟩ := Option.map_eq_some_iff.1 h
  obtain ⟨rest, rfl⟩ := hp ht
  rw [List.drop_left] at hu
  exact (List.prefix_append_right_inj t).2 (hq hu)

theorem row?_word?_of_ne {c d : Char} (h : d ≠ c) : row? (word? (d :: w)) q (c :: rest) = none := by
  have hprefix : (d :: w).isPrefixOf (c :: rest) = false := by
    rw [List.isPrefixOf_cons_cons, beq_false_of_ne h, Bool.false_and]
  rw [row?, word?, hprefix]
  rfl

end Reading

/-! ### Patterns that take what is read -/

namespace Pattern

open Reading

variable {γ : Type} {cur : Cursor} {value : Option Span} {next : Cursor → Option Span → Option γ}
  {p q : Pattern} {set : CharSet} {f : Char → Bool}
  {r t : List Char → Option (List Char)}

/-- From the place the pattern goes on behind what is read there, and nowhere else. -/
def Takes (p : Pattern) (r : List Char → Option (List Char)) (value : Option Span)
    (next : Cursor → Option Span → Option γ) : Prop :=
  ∀ cur, p.matchThen cur value next = (r cur.rest).bind fun s => next (cur.behind s) value

theorem takes_literal (w : String) : (literal w).Takes (word? w.toList) value next := by
  intro cur
  rw [matchThen, literalThen_eq, word?]
  split <;> rfl

theorem takes_run (hset : ∀ c, set.has c = f c)
    (h : RefusesBetween (next · value) set ∨ ∀ cur, (next cur value).isSome) :
    (run 1 set).Takes (run? f) value next := by
  intro cur
  have hrun : (run 1 set).matchThen cur value next =
      if 1 ≤ (cur.rest.takeWhile (set.has ·)).length then next (cur.skip set) value
      else none := by
    rcases h with hbetween | htotal
    · exact runThen_eq_of_refusesBetween hbetween
    · exact matchThen_run (.inr htotal)
  have hclass : (set.has ·) = f := funext hset
  rw [hrun, run?, Cursor.skip_eq_behind, hclass]
  by_cases hempty : cur.rest.takeWhile f = []
  · rw [hempty]
    rfl
  · have hlength : 1 ≤ (cur.rest.takeWhile f).length := List.length_pos_iff.2 hempty
    rw [if_pos hlength, if_neg (by simpa using hempty)]
    rfl

theorem bind_row? (r t : List Char → Option (List Char)) (cur : Cursor) (next : Cursor → Option γ) :
    (row? r t cur.rest).bind (fun s => next (cur.behind s)) =
      (r cur.rest).bind fun s => (t (cur.behind s).rest).bind fun u =>
        next ((cur.behind s).behind u) := by
  rw [row?, Option.bind_assoc]
  refine congrArg (Option.bind _) (funext fun s => ?_)
  rw [Option.bind_map]
  refine congrArg (Option.bind _) (funext fun u => ?_)
  rw [Cursor.behind_behind]
  rfl

theorem Takes.append (hp : p.Takes r value fun cur value => q.matchThen cur value next)
    (hq : q.Takes t value next) : (p ++ q).Takes (row? r t) value next := by
  intro cur
  rw [matchThen_append, hp cur, bind_row? r t cur (next · value)]
  exact congrArg (Option.bind _) (funext fun s => hq (cur.behind s))

/-- There is no way on where nothing is read. -/
theorem Takes.refuses (h : p.Takes r value next)
    (hnone : ∀ c rest, set.has c → r (c :: rest) = none) :
    Refuses (fun cur => p.matchThen cur value next) set := by
  intro cur c rest hrest hc
  refine (h cur).trans ?_
  rw [hrest, hnone c rest hc]
  rfl

theorem ReadBy.of_takes {reader : Reader}
    (h : ∀ next : Cursor → Option Span → Option Match, (∀ cur value, (next cur value).isSome) →
      p.Takes r none next) (hread : ∀ before, reader.read? before = r) : p.ReadBy reader := by
  apply ReadBy.of_matchThen (fun _ _ => none) fun _ _ => rfl
  intro cur next htotal
  rw [h next htotal cur, hread]

end Pattern
end DocClaims
