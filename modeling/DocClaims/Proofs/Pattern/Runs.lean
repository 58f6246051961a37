import DocClaims.Proofs.Pattern.Fits
import Mathlib.Data.List.DropRight

/-!
# Runs that take all they can

A run shrinks only for the sake of what follows it. Where nothing that follows could begin
with a member of its set, or where whatever follows is sure to match, the run ends at the
first character that is no member, and a search for it needs no other way.
-/

namespace DocClaims
namespace Pattern

variable {γ : Type} {set other : CharSet} {next : Cursor → Option γ} {cur : Cursor}

/-- The place behind all members of the set that come next. -/
def Cursor.skip (cur : Cursor) (set : CharSet) : Cursor :=
  let run := cur.rest.takeWhile set.has
  ⟨run.getLast?.or cur.before, cur.rest.dropWhile set.has, cur.offset + run.length⟩

/-- There is no way on from a place before a member of the set. -/
def Refuses (next : Cursor → Option γ) (set : CharSet) : Prop :=
  ∀ cur c rest, cur.rest = c :: rest → set.has c → next cur = none

/-- There is no way on from a place between two members of the set. -/
def RefusesBetween (next : Cursor → Option γ) (set : CharSet) : Prop :=
  ∀ cur b c rest, cur.before = some b → set.has b → cur.rest = c :: rest → set.has c →
    next cur = none

theorem Refuses.between (h : Refuses next set) : RefusesBetween next set :=
  fun cur _ c rest _ _ => h cur c rest

theorem Cursor.passes_skip (cur : Cursor) (set : CharSet) :
    cur.Passes (cur.rest.takeWhile set.has) (cur.skip set) :=
  ⟨List.takeWhile_append_dropWhile.symm, rfl, rfl⟩

theorem Cursor.skip_of_member {c : Char} {rest : List Char} {before : Option Char} {offset : Nat}
    (hc : set.has c) :
    Cursor.skip ⟨before, c :: rest, offset⟩ set = Cursor.skip ⟨some c, rest, offset + 1⟩ set := by
  have htake : (c :: rest).takeWhile (set.has ·) = c :: rest.takeWhile (set.has ·) :=
    List.takeWhile_cons_of_pos (p := fun c => set.has c) hc
  have hdrop : (c :: rest).dropWhile (set.has ·) = rest.dropWhile (set.has ·) :=
    List.dropWhile_cons_of_pos (p := fun c => set.has c) hc
  simp only [skip, htake, hdrop, List.getLast?_cons, List.length_cons, Cursor.mk.injEq, true_and]
  refine ⟨?_, by omega⟩
  cases (rest.takeWhile (set.has ·)).getLast? <;> rfl

theorem Cursor.skip_of_not_member (h : ∀ c ∈ cur.rest.head?, set.has c = false) :
    cur.skip set = cur := by
  obtain ⟨before, rest, offset⟩ := cur
  cases rest with
  | nil => simp [skip]
  | cons c rest =>
      have hc : ¬set.has c = true := by simpa using h c rfl
      simp [skip, List.takeWhile_cons_of_neg (p := fun c => set.has c) hc,
        List.dropWhile_cons_of_neg (p := fun c => set.has c) hc]

/-- A run is as long as it can be where, at each place before it might end earlier, there is
no way on or else one from its end. The places may be told by the characters before them. -/
theorem runThen_eq_of (known : Option Char → Prop) {least offset : Nat} {before : Option Char}
    {rest : List Char}
    (h : ∀ cur c rest, known cur.before → cur.rest = c :: rest → set.has c →
      next cur = none ∨ (next (cur.skip set)).isSome)
    (hmember : ∀ c, set.has c → known (some c)) (hbefore : least = 0 → known before) :
    runThen set least before offset next rest =
      if least ≤ (rest.takeWhile set.has).length then next (Cursor.skip ⟨before, rest, offset⟩ set)
      else none := by
  induction rest generalizing least before offset with
  | nil =>
      rw [runThen, Cursor.skip_of_not_member (by simp)]
      simp
  | cons c rest ih =>
      rw [runThen]
      by_cases hc : set.has c
      · rw [if_pos hc, ih fun _ => hmember c hc, ← Cursor.skip_of_member hc,
          List.takeWhile_cons_of_pos (p := fun c => set.has c) hc, List.length_cons]
        by_cases hlong : least - 1 ≤ (rest.takeWhile (set.has ·)).length
        · have hmore : least ≤ (rest.takeWhile (set.has ·)).length + 1 := by omega
          rw [if_pos hlong, if_pos hmore]
          cases hend : next (Cursor.skip ⟨before, c :: rest, offset⟩ set) with
          | some found => rfl
          | none =>
              by_cases hleast : least = 0
              · have hhere := h ⟨before, c :: rest, offset⟩ c rest (hbefore hleast) rfl hc
                rw [hend] at hhere
                simpa [hleast] using hhere
              · simp [hleast]
        · have hmore : ¬least ≤ (rest.takeWhile (set.has ·)).length + 1 := by omega
          have hleast : ¬(least == 0) = true := by
            rw [beq_iff_eq]
            omega
          rw [if_neg hlong, if_neg hmore]
          exact if_neg hleast
      · rw [if_neg hc, Cursor.skip_of_not_member (by simpa using hc),
          List.takeWhile_cons_of_neg (p := fun c => set.has c) hc]
        simp

/-- A run is as long as it can be where what follows refuses its members, and where all
that follows is to stop. -/
theorem runThen_eq {least offset : Nat} {before : Option Char} {rest : List Char}
    (h : Refuses next set ∨ ∀ cur, (next cur).isSome) :
    runThen set least before offset next rest =
      if least ≤ (rest.takeWhile set.has).length then next (Cursor.skip ⟨before, rest, offset⟩ set)
      else none := by
  apply runThen_eq_of fun _ => True
  · intro cur c rest _ hrest hc
    rcases h with hrefuses | htotal
    · exact .inl (hrefuses cur c rest hrest hc)
    · exact .inr (htotal _)
  · exact fun _ _ => trivial
  · exact fun _ => trivial

/-- A run of at least one is as long as it can be where there is no way on between two of its
members. -/
theorem runThen_eq_of_refusesBetween {least offset : Nat} {before : Option Char} {rest : List Char}
    (h : RefusesBetween next set) :
    runThen set (least + 1) before offset next rest =
      if least + 1 ≤ (rest.takeWhile set.has).length then
        next (Cursor.skip ⟨before, rest, offset⟩ set)
      else none := by
  apply runThen_eq_of fun before => ∃ b ∈ before, set.has b
  · rintro cur c rest ⟨b, hb, hmember⟩ hrest hc
    exact .inl (h cur b c rest hb hmember hrest hc)
  · exact fun c hc => ⟨c, rfl, hc⟩
  · exact fun hleast => absurd hleast (Nat.succ_ne_zero least)

/-! ### Places behind what was read -/

/-- The place behind the characters `s`. -/
def Cursor.behind (cur : Cursor) (s : List Char) : Cursor :=
  ⟨s.getLast?.or cur.before, cur.rest.drop s.length, cur.offset + s.length⟩

theorem Cursor.passes_behind {s : List Char} (h : s <+: cur.rest) : cur.Passes s (cur.behind s) := by
  obtain ⟨rest, hrest⟩ := h
  refine ⟨?_, rfl, rfl⟩
  rw [behind, ← hrest, List.drop_left]

theorem Cursor.Passes.eq_behind {cur' : Cursor} {s : List Char} (h : cur.Passes s cur') :
    cur' = cur.behind s := by
  obtain ⟨before, rest, offset⟩ := cur'
  obtain ⟨hrest, hbefore, hoffset⟩ := h
  rw [Cursor.behind, hrest, List.drop_left, Cursor.mk.injEq]
  exact ⟨hbefore, rfl, hoffset⟩

theorem Cursor.behind_behind (cur : Cursor) (s t : List Char) :
    (cur.behind s).behind t = cur.behind (s ++ t) := by
  simp only [behind, List.getLast?_append, Option.or_assoc, List.drop_drop, List.length_append,
    Nat.add_assoc]

theorem Cursor.skip_eq_behind (cur : Cursor) (set : CharSet) :
    cur.skip set = cur.behind (cur.rest.takeWhile set.has) :=
  (cur.passes_skip set).eq_behind

theorem Cursor.past_eq_behind {c : Char} {rest : List Char} (h : cur.rest = c :: rest) :
    cur.past c rest = cur.behind [c] := (Passes.past h).eq_behind

theorem literalThen_eq {w : List Char} :
    literalThen w cur next = if w.isPrefixOf cur.rest then next (cur.behind w) else none := by
  induction w generalizing cur with
  | nil => rfl
  | cons d w ih =>
      rw [literalThen]
      cases hrest : cur.rest with
      | nil => rfl
      | cons c rest =>
          have hpast : (cur.past c rest).behind w = cur.behind (c :: w) := by
            rw [Cursor.past_eq_behind hrest, Cursor.behind_behind]
            rfl
          by_cases hc : c = d
          · subst hc
            simp only [BEq.rfl, if_true, ih, hpast, List.isPrefixOf_cons_cons, Bool.true_and]
            rfl
          · simp [List.isPrefixOf_cons_cons, hc, Ne.symm hc]

/-! ### A run before some of its own members -/

theorem rdropWhile_cons (p : Char → Bool) (c : Char) (cs : List Char) :
    (c :: cs).rdropWhile p =
      if cs.rdropWhile p = [] then if p c then [] else [c] else c :: cs.rdropWhile p := by
  simp only [List.rdropWhile, List.reverse_cons, List.dropWhile_append, List.isEmpty_iff,
    List.reverse_eq_nil_iff]
  split
  · cases hc : p c <;> simp [hc]
  · simp

theorem runThen_one_of_not_member {inner : CharSet} {offset : Nat} {before : Option Char} {c : Char}
    {rest : List Char} (hc : inner.has c = false) :
    runThen inner 1 before offset next (c :: rest) = none := by
  rw [runThen, if_neg (by simp [hc])]
  rfl

theorem runThen_one_of_member {inner : CharSet} {offset : Nat} {before : Option Char} {c : Char}
    {rest : List Char} (hc : inner.has c) (hrest : ∀ d ∈ rest.head?, inner.has d = false)
    (htotal : ∀ cur, (next cur).isSome) :
    runThen inner 1 before offset next (c :: rest) = next ⟨some c, rest, offset + 1⟩ := by
  have htake : (c :: rest).takeWhile (inner.has ·) = c :: rest.takeWhile (inner.has ·) :=
    List.takeWhile_cons_of_pos (p := fun c => inner.has c) hc
  rw [runThen_eq (.inr htotal), htake, List.length_cons, if_pos (Nat.le_add_left _ _),
    Cursor.skip_of_member hc, Cursor.skip_of_not_member hrest]

/-- A run leaves to the run behind it the last character that this one can take. -/
theorem runThen_runThen {inner : CharSet} {separates : Char → Bool}
    (hinner : ∀ c, inner.has c = (set.has c && !separates c))
    (htotal : ∀ cur, (next cur).isSome) {least offset : Nat} {before : Option Char}
    {rest : List Char} :
    runThen set least before offset
        (fun cur => runThen inner 1 cur.before cur.offset next cur.rest) rest =
      if least + 1 ≤ ((rest.takeWhile (set.has ·)).rdropWhile separates).length then
        next (Cursor.behind ⟨before, rest, offset⟩
          ((rest.takeWhile (set.has ·)).rdropWhile separates))
      else none := by
  induction rest generalizing least before offset with
  | nil =>
      rw [runThen]
      simp [runThen]
  | cons c rest ih =>
      by_cases hc : set.has c
      · rw [runThen, if_pos hc, ih, List.takeWhile_cons_of_pos (p := fun c => set.has c) hc,
          rdropWhile_cons]
        cases htaken : (rest.takeWhile (set.has ·)).rdropWhile separates with
        | nil =>
            have hrest : ∀ d ∈ rest.head?, inner.has d = false := by
              rintro d hd
              obtain ⟨behind, rfl⟩ := List.head?_eq_some_iff.1 hd
              rw [hinner]
              by_cases hmember : set.has d
              · rw [List.takeWhile_cons_of_pos (p := fun c => set.has c) hmember,
                  List.rdropWhile_eq_nil_iff] at htaken
                simp [htaken d List.mem_cons_self]
              · simp [hmember]
            have hnone : ¬least - 1 + 1 ≤ ([] : List Char).length := Nat.not_succ_le_zero _
            rw [if_neg hnone, if_pos rfl]
            by_cases hseparates : separates c
            · rw [runThen_one_of_not_member (by simp [hinner, hseparates])]
              simp [hseparates]
            · rw [runThen_one_of_member (by simp [hinner, hc, hseparates]) hrest htotal]
              simp [hseparates, Cursor.behind]
        | cons d taken =>
            have hbehind : Cursor.behind ⟨some c, rest, offset + 1⟩ (d :: taken) =
                Cursor.behind ⟨before, c :: rest, offset⟩ (c :: d :: taken) :=
              Cursor.behind_behind ⟨before, c :: rest, offset⟩ [c] (d :: taken)
            obtain ⟨found, hfound⟩ := Option.isSome_iff_exists.1
              (htotal (Cursor.behind ⟨some c, rest, offset + 1⟩ (d :: taken)))
            rw [if_neg (List.cons_ne_nil d taken), ← hbehind, hfound]
            rw [List.length_cons, List.length_cons, List.length_cons]
            by_cases hlong : least ≤ taken.length + 1
            · have hmore : least - 1 + 1 ≤ taken.length + 1 := by omega
              rw [if_pos hmore, if_pos (Nat.succ_le_succ hlong)]
            · have hmore : ¬least - 1 + 1 ≤ taken.length + 1 := by omega
              have hleast : ¬(least == 0) = true := by
                rw [beq_iff_eq]
                omega
              rw [if_neg hmore, if_neg hleast, if_neg (by omega)]
      · rw [runThen, if_neg hc, List.takeWhile_cons_of_neg (p := fun c => set.has c) hc,
          runThen_one_of_not_member (by simp [hinner, hc])]
        simp

/-! ### Patterns in a row -/

section

variable {value : Option Span} {next : Cursor → Option Span → Option γ} {p q : Pattern}
  {least : Nat} {s : String} {c : Char}

theorem matchThen_append :
    (p ++ q).matchThen cur value next =
      p.matchThen cur value fun cur value => q.matchThen cur value next := rfl

theorem matchThen_run (h : Refuses (next · value) set ∨ ∀ cur, (next cur value).isSome) :
    (run least set).matchThen cur value next =
      if least ≤ (cur.rest.takeWhile (set.has ·)).length then next (cur.skip set) value
      else none := runThen_eq h

theorem matchThen_mark (h : s.toList = [c]) :
    (literal s).matchThen cur value next =
      match cur.rest with
      | d :: rest => if d == c then next (cur.past d rest) value else none
      | [] => none := by
  rw [matchThen, h, literalThen]
  rfl

theorem refuses_run (h : Refuses (next · value) other ∨ ∀ cur, (next cur value).isSome)
    (hnext : least = 0 → Refuses (next · value) set) (hdisjoint : ∀ c, set.has c → ¬other.has c) :
    Refuses (fun cur => (run least other).matchThen cur value next) set := by
  intro cur c rest hrest hc
  have hskip : cur.skip other = cur :=
    Cursor.skip_of_not_member fun d hd => by
      obtain rfl : c = d := by simpa [hrest] using hd
      simpa using hdisjoint c hc
  have htake : cur.rest.takeWhile (other.has ·) = [] := by
    rw [hrest, List.takeWhile_cons_of_neg (p := fun c => other.has c) (hdisjoint c hc)]
  simp only [matchThen_run h, htake, hskip, List.length_nil, Nat.le_zero]
  split
  · next hleast => exact hnext hleast cur c rest hrest hc
  · rfl

/-- A run up to a mark that is none of its members. -/
theorem matchThen_run_mark (h : s.toList = [c]) (hc : set.has c = false) :
    (run 0 set ++ (literal s ++ q)).matchThen cur value next =
      match (cur.skip set).rest with
      | d :: rest =>
          if d == c then q.matchThen ((cur.skip set).past d rest) value next else none
      | [] => none := by
  have hrefuses : Refuses (fun cur => (literal s ++ q).matchThen cur value next) set := by
    intro cur d rest hrest hd
    have hne : ¬(d == c) = true := by
      rw [beq_iff_eq]
      rintro rfl
      simp [hc] at hd
    simp only [matchThen_append, matchThen_mark h, hrest, if_neg hne]
  rw [matchThen_append, matchThen_run (.inl hrefuses), if_pos (Nat.zero_le _), matchThen_append,
    matchThen_mark h]

theorem matchThen_run_mark_of_eq {rest : List Char} (h : s.toList = [c]) (hc : set.has c = false)
    (hrest : (cur.skip set).rest = c :: rest) :
    (run 0 set ++ (literal s ++ q)).matchThen cur value next =
      q.matchThen ((cur.skip set).past c rest) value next := by
  rw [matchThen_run_mark h hc, hrest]
  exact if_pos (beq_self_eq_true c)

theorem matchThen_run_mark_of_ne (h : s.toList = [c]) (hc : set.has c = false)
    (hrest : ∀ rest, (cur.skip set).rest ≠ c :: rest) :
    (run 0 set ++ (literal s ++ q)).matchThen cur value next = none := by
  rw [matchThen_run_mark h hc]
  cases hskip : (cur.skip set).rest with
  | nil => rfl
  | cons d rest =>
      refine if_neg fun hd => hrest rest ?_
      rw [hskip, beq_iff_eq.1 hd]

theorem refuses_run_mark (h : s.toList = [c]) (hc : set.has c = false)
    (hother : other.has c = false) (hdisjoint : ∀ d, other.has d → ¬set.has d) :
    Refuses (fun cur => (run 0 set ++ (literal s ++ q)).matchThen cur value next) other := by
  intro cur d rest hrest hd
  have hskip : (cur.skip set).rest = d :: rest := by
    rw [Cursor.skip, hrest]
    exact List.dropWhile_cons_of_neg (p := fun c => set.has c) (hdisjoint d hd)
  have hne : ¬(d == c) = true := by
    rw [beq_iff_eq]
    rintro rfl
    simp [hother] at hd
  simp only [matchThen_run_mark h hc, hskip, if_neg hne]

end

end Pattern
end DocClaims
