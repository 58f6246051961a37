import DocClaims.Pattern.Search

/-!
# What a pattern fits

The characters that a pattern fits, told without the order in which a search tries its
ways. What stands before and behind them counts for word boundaries alone. A search finds
such characters, and it finds a match wherever there are any.
-/

namespace DocClaims
namespace Pattern

variable {p q : Pattern} {cur mid cur' : Cursor} {s t : List Char}

/-! ### Places in a text -/

/-- The characters `s` lie between the two places. -/
structure Cursor.Passes (cur : Cursor) (s : List Char) (cur' : Cursor) : Prop where
  rest : cur.rest = s ++ cur'.rest
  before : cur'.before = s.getLast?.or cur.before
  offset : cur'.offset = cur.offset + s.length

namespace Cursor.Passes

theorem refl (cur : Cursor) : cur.Passes [] cur := ⟨rfl, rfl, rfl⟩

theorem trans (h : cur.Passes s mid) (h' : mid.Passes t cur') : cur.Passes (s ++ t) cur' where
  rest := by rw [h.rest, h'.rest, List.append_assoc]
  before := by rw [h'.before, h.before, List.getLast?_append, Option.or_assoc]
  offset := by rw [h'.offset, h.offset, List.length_append, Nat.add_assoc]

theorem past {c : Char} {rest : List Char} (h : cur.rest = c :: rest) :
    cur.Passes [c] (cur.past c rest) := ⟨h, rfl, rfl⟩

theorem text_span (h : cur.Passes s cur') : Span.text ⟨cur, cur'⟩ = s := by
  rw [Span.text, h.rest, h.offset, Nat.add_sub_cancel_left, List.take_left]

theorem eq_of_nil (h : cur.Passes [] cur') : cur = cur' := by
  obtain ⟨before, rest, offset⟩ := cur
  obtain ⟨hrest, hbefore, hoffset⟩ := h
  obtain ⟨before', rest', offset'⟩ := cur'
  simp_all

theorem of_cons {c : Char} (h : cur.Passes (c :: s) cur') :
    (cur.past c (s ++ cur'.rest)).Passes s cur' where
  rest := rfl
  before := by
    rw [h.before, List.getLast?_cons]
    cases s.getLast? <;> rfl
  offset := by
    change cur'.offset = cur.offset + 1 + s.length
    rw [h.offset, List.length_cons]
    omega

theorem exists_mid (h : cur.Passes (s ++ t) cur') :
    ∃ mid, cur.Passes s mid ∧ mid.Passes t cur' := by
  refine ⟨⟨s.getLast?.or cur.before, t ++ cur'.rest, cur.offset + s.length⟩, ⟨?_, rfl, rfl⟩,
    ⟨rfl, ?_, ?_⟩⟩
  · rw [h.rest, List.append_assoc]
  · rw [h.before, List.getLast?_append, Option.or_assoc]
  · rw [h.offset, List.length_append, Nat.add_assoc]

end Cursor.Passes

/-! ### Fitting -/

def isWord (c : Option Char) : Bool := (c.map Text.isWordChar).getD false

/-- The pattern fits `s`, with `b` before it and `a` behind it. What was marked as `m`
is marked as `m'` then. -/
def Fits : Pattern → Option Char → List Char → Option Char → Option (List Char) →
    Option (List Char) → Prop
  | literal w, _, s, _, m, m' => s = w.toList ∧ m' = m
  | one set, _, s, _, m, m' => (∃ c, s = [c] ∧ set.has c) ∧ m' = m
  | run least set, _, s, _, m, m' => (least ≤ s.length ∧ ∀ c ∈ s, set.has c) ∧ m' = m
  | seq p q, b, s, a, m, m' => ∃ t u k, s = t ++ u ∧ p.Fits b t (u.head?.or a) m k ∧
      q.Fits (t.getLast?.or b) u a k m'
  | either p q, b, s, a, m, m' => p.Fits b s a m m' ∨ q.Fits b s a m m'
  | optional p, b, s, a, m, m' => p.Fits b s a m m' ∨ s = [] ∧ m' = m
  | group p, b, s, a, m, m' => (∃ k, p.Fits b s a m k) ∧ m' = some s
  | boundary, b, s, a, m, m' => (s = [] ∧ isWord b ≠ isWord a) ∧ m' = m

/-- There is no group and no boundary in the pattern. -/
def isPlain : Pattern → Bool
  | literal _ | one _ | run _ _ => true
  | seq p q | either p q => p.isPlain && q.isPlain
  | optional p => p.isPlain
  | group _ | boundary => false

namespace Fits

variable {b a : Option Char} {m m' : Option (List Char)}

theorem mark_eq_or (h : p.Fits b s a m m') : m' = m ∨ ∃ t, m' = some t ∧ t <:+: s := by
  induction p generalizing b s a m m' with
  | literal | one | run | boundary => exact .inl h.2
  | seq p q ihp ihq =>
      obtain ⟨t, u, k, rfl, hp, hq⟩ := h
      rcases ihq hq with rfl | ⟨v, rfl, hv⟩
      · rcases ihp hp with rfl | ⟨v, rfl, hv⟩
        · exact .inl rfl
        · exact .inr ⟨v, rfl, hv.trans (List.prefix_append t u).isInfix⟩
      · exact .inr ⟨v, rfl, hv.trans (List.suffix_append t u).isInfix⟩
  | either p q ihp ihq =>
      rcases h with hp | hq
      · exact ihp hp
      · exact ihq hq
  | optional p ih =>
      rcases h with hp | ⟨-, rfl⟩
      · exact ih hp
      · exact .inl rfl
  | group p => exact .inr ⟨s, h.2, List.infix_refl s⟩

/-- Without groups and boundaries a pattern marks nothing and fits the same characters
everywhere. -/
theorem anywhere (h : p.Fits b s a m m') (hp : p.isPlain) :
    m' = m ∧ ∀ b' a' k, p.Fits b' s a' k k := by
  induction p generalizing b s a m m' with
  | literal | one | run => exact ⟨h.2, fun _ _ _ => ⟨h.1, rfl⟩⟩
  | seq p q ihp ihq =>
      rw [isPlain, Bool.and_eq_true] at hp
      obtain ⟨t, u, k, rfl, hfirst, hsecond⟩ := h
      obtain ⟨rfl, hfirst'⟩ := ihp hfirst hp.1
      obtain ⟨rfl, hsecond'⟩ := ihq hsecond hp.2
      exact ⟨rfl, fun _ _ k => ⟨t, u, k, rfl, hfirst' _ _ k, hsecond' _ _ k⟩⟩
  | either p q ihp ihq =>
      rw [isPlain, Bool.and_eq_true] at hp
      rcases h with hfirst | hsecond
      · obtain ⟨rfl, hfirst'⟩ := ihp hfirst hp.1
        exact ⟨rfl, fun _ _ _ => .inl (hfirst' _ _ _)⟩
      · obtain ⟨rfl, hsecond'⟩ := ihq hsecond hp.2
        exact ⟨rfl, fun _ _ _ => .inr (hsecond' _ _ _)⟩
  | optional p ih =>
      rcases h with hfits | ⟨rfl, rfl⟩
      · obtain ⟨rfl, hfits'⟩ := ih hfits hp
        exact ⟨rfl, fun _ _ _ => .inl (hfits' _ _ _)⟩
      · exact ⟨rfl, fun _ _ _ => .inr ⟨rfl, rfl⟩⟩
  | group | boundary => cases hp

end Fits

theorem atBoundary_iff : cur.atBoundary ↔ isWord cur.before ≠ isWord cur.rest.head? := bne_iff_ne

/-! ### Matches -/

section

variable {γ : Type} {found : γ}

theorem literalThen_eq_some {w : List Char} {next : Cursor → Option γ}
    (h : literalThen w cur next = some found) :
    ∃ cur', cur.Passes w cur' ∧ next cur' = some found := by
  induction w generalizing cur with
  | nil => exact ⟨cur, .refl cur, h⟩
  | cons d w ih =>
      rw [literalThen] at h
      split at h
      · next c rest hrest =>
        split at h
        · next heq =>
          obtain ⟨cur', hpasses, hnext⟩ := ih h
          obtain rfl : c = d := by simpa using heq
          exact ⟨cur', (Cursor.Passes.past hrest).trans hpasses, hnext⟩
        · cases h
      · cases h

theorem runThen_eq_some {set : CharSet} {least offset : Nat} {before : Option Char}
    {rest : List Char} {next : Cursor → Option γ}
    (h : runThen set least before offset next rest = some found) :
    ∃ s cur', Cursor.Passes ⟨before, rest, offset⟩ s cur' ∧ least ≤ s.length ∧
      (∀ c ∈ s, set.has c) ∧ next cur' = some found := by
  induction rest generalizing least before offset with
  | nil =>
      rw [runThen] at h
      split at h
      · next hleast =>
        exact ⟨[], _, .refl _, by simpa using hleast, by simp, h⟩
      · cases h
  | cons c rest ih =>
      have hhere : (if least == 0 then next ⟨before, c :: rest, offset⟩ else none) = some found →
          ∃ s cur', Cursor.Passes ⟨before, c :: rest, offset⟩ s cur' ∧ least ≤ s.length ∧
            (∀ c ∈ s, set.has c) ∧ next cur' = some found := by
        intro h
        split at h
        · next hleast => exact ⟨[], _, .refl _, by simpa using hleast, by simp, h⟩
        · cases h
      rw [runThen] at h
      split at h
      · next hc =>
        split at h
        · next found' hfound =>
          obtain rfl : found' = found := Option.some.inj h
          obtain ⟨s, cur', hpasses, hleast, hs, hnext⟩ := ih hfound
          have hpast : Cursor.Passes ⟨before, c :: rest, offset⟩ [c] ⟨some c, rest, offset + 1⟩ :=
            ⟨rfl, rfl, rfl⟩
          refine ⟨c :: s, cur', hpast.trans hpasses, ?_, List.forall_mem_cons.2 ⟨hc, hs⟩, hnext⟩
          rw [List.length_cons]
          omega
        · exact hhere h
      · exact hhere h

/-- What a match passes is fitted by the pattern. -/
theorem fits_of_matchThen {value : Option Span} {next : Cursor → Option Span → Option γ}
    (h : p.matchThen cur value next = some found) :
    ∃ s cur' value', cur.Passes s cur' ∧
      p.Fits cur.before s cur'.rest.head? (value.map Span.text) (value'.map Span.text) ∧
        next cur' value' = some found := by
  induction p generalizing cur value next with
  | literal w =>
      obtain ⟨cur', hpasses, hnext⟩ := literalThen_eq_some h
      exact ⟨_, cur', value, hpasses, ⟨rfl, rfl⟩, hnext⟩
  | one set =>
      rw [matchThen] at h
      split at h
      · next c rest hrest =>
        split at h
        · next hc => exact ⟨[c], _, value, .past hrest, ⟨⟨c, rfl, hc⟩, rfl⟩, h⟩
        · cases h
      · cases h
  | run least set =>
      obtain ⟨s, cur', hpasses, hleast, hs, hnext⟩ := runThen_eq_some h
      exact ⟨s, cur', value, hpasses, ⟨⟨hleast, hs⟩, rfl⟩, hnext⟩
  | seq p q ihp ihq =>
      obtain ⟨s, mid, marked, hpasses, hp, hthen⟩ := ihp h
      obtain ⟨t, cur', value', hpasses', hq, hnext⟩ := ihq hthen
      refine ⟨s ++ t, cur', value', hpasses.trans hpasses',
        ⟨s, t, marked.map Span.text, rfl, ?_, ?_⟩, hnext⟩
      · rw [← List.head?_append, ← hpasses'.rest]
        exact hp
      · rw [← hpasses.before]
        exact hq
  | either p q ihp ihq =>
      rw [matchThen] at h
      split at h
      · next hfound =>
        obtain ⟨s, cur', value', hpasses, hp, hnext⟩ := ihp (hfound.trans h)
        exact ⟨s, cur', value', hpasses, .inl hp, hnext⟩
      · obtain ⟨s, cur', value', hpasses, hq, hnext⟩ := ihq h
        exact ⟨s, cur', value', hpasses, .inr hq, hnext⟩
  | optional p ih =>
      rw [matchThen] at h
      split at h
      · next hfound =>
        obtain ⟨s, cur', value', hpasses, hp, hnext⟩ := ih (hfound.trans h)
        exact ⟨s, cur', value', hpasses, .inl hp, hnext⟩
      · exact ⟨[], cur, value, .refl cur, .inr ⟨rfl, rfl⟩, h⟩
  | group p ih =>
      obtain ⟨s, cur', marked, hpasses, hp, hnext⟩ := ih h
      refine ⟨s, cur', some ⟨cur, cur'⟩, hpasses, ⟨⟨_, hp⟩, ?_⟩, hnext⟩
      rw [Option.map_some, hpasses.text_span]
  | boundary =>
      rw [matchThen] at h
      split at h
      · next hboundary =>
        exact ⟨[], cur, value, .refl cur, ⟨⟨rfl, atBoundary_iff.1 hboundary⟩, rfl⟩, h⟩
      · cases h

theorem isSome_literalThen {w : List Char} {next : Cursor → Option γ} (h : cur.Passes w cur')
    (hnext : (next cur').isSome) : (literalThen w cur next).isSome := by
  induction w generalizing cur with
  | nil =>
      obtain rfl := h.eq_of_nil
      exact hnext
  | cons d w ih =>
      simp only [literalThen, h.rest, List.cons_append, BEq.rfl, if_true]
      exact ih h.of_cons

theorem isSome_runThen {set : CharSet} {least offset : Nat} {before : Option Char}
    {rest : List Char} {next : Cursor → Option γ}
    (h : Cursor.Passes ⟨before, rest, offset⟩ s cur') (hleast : least ≤ s.length)
    (hs : ∀ c ∈ s, set.has c) (hnext : (next cur').isSome) :
    (runThen set least before offset next rest).isSome := by
  induction s generalizing least before offset rest with
  | nil =>
      obtain rfl := h.eq_of_nil
      obtain rfl : least = 0 := Nat.le_zero.1 hleast
      have hhere : (if (0 == 0) = true then next ⟨before, rest, offset⟩ else none).isSome := hnext
      cases rest with
      | nil => exact hhere
      | cons c rest =>
          rw [runThen]
          split
          · split
            · rfl
            · exact hhere
          · exact hhere
  | cons c s ih =>
      obtain rfl : rest = c :: (s ++ cur'.rest) := h.rest
      obtain ⟨hc, hs⟩ := List.forall_mem_cons.1 hs
      have hlonger : (runThen set (least - 1) (some c) (offset + 1) next (s ++ cur'.rest)).isSome :=
        ih h.of_cons (by rw [List.length_cons] at hleast; omega) hs
      rw [runThen, if_pos hc]
      split
      · rfl
      · next hnone => simp [hnone] at hlonger

/-- Where the pattern fits, there is a match if what follows allows one. -/
theorem isSome_matchThen {value : Option Span} {m : Option (List Char)}
    {next : Cursor → Option Span → Option γ} (hpasses : cur.Passes s cur')
    (hfits : p.Fits cur.before s cur'.rest.head? (value.map Span.text) m)
    (hnext : ∀ value', value'.map Span.text = m → (next cur' value').isSome) :
    (p.matchThen cur value next).isSome := by
  induction p generalizing cur s cur' value m next with
  | literal w =>
      obtain ⟨rfl, rfl⟩ := hfits
      exact isSome_literalThen hpasses (hnext value rfl)
  | one set =>
      obtain ⟨⟨c, rfl, hc⟩, rfl⟩ := hfits
      have hlast : cur.past c cur'.rest = cur' := hpasses.of_cons.eq_of_nil
      simp only [matchThen, hpasses.rest, List.singleton_append, if_pos hc, hlast]
      exact hnext value rfl
  | run least set =>
      obtain ⟨⟨hleast, hs⟩, rfl⟩ := hfits
      exact isSome_runThen hpasses hleast hs (hnext value rfl)
  | seq p q ihp ihq =>
      obtain ⟨t, u, k, rfl, hp, hq⟩ := hfits
      obtain ⟨mid, hfirst, hsecond⟩ := hpasses.exists_mid
      rw [← List.head?_append, ← hsecond.rest] at hp
      rw [← hfirst.before] at hq
      apply ihp hfirst hp
      rintro marked rfl
      exact ihq hsecond hq hnext
  | either p q ihp ihq =>
      rw [matchThen]
      split
      · rfl
      · next hnone =>
        rcases hfits with hp | hq
        · simpa [hnone] using ihp hpasses hp hnext
        · exact ihq hpasses hq hnext
  | optional p ih =>
      rw [matchThen]
      split
      · rfl
      · next hnone =>
        rcases hfits with hp | ⟨rfl, rfl⟩
        · simpa [hnone] using ih hpasses hp hnext
        · obtain rfl := hpasses.eq_of_nil
          exact hnext value rfl
  | group p ih =>
      obtain ⟨⟨k, hp⟩, rfl⟩ := hfits
      apply ih hpasses hp
      intro marked _
      exact hnext (some ⟨cur, cur'⟩) (by rw [Option.map_some, hpasses.text_span])
  | boundary =>
      obtain ⟨⟨rfl, hboundary⟩, rfl⟩ := hfits
      obtain rfl := hpasses.eq_of_nil
      rw [matchThen, if_pos (atBoundary_iff.2 hboundary)]
      exact hnext value rfl

end

/-! ### Whole texts -/

/-- A match from the start of `s` may end at its end. -/
def matchesWhole (p : Pattern) (s : List Char) : Bool :=
  (p.matchThen (.start s) none fun finish _ => if finish.rest.isEmpty then some () else none).isSome

theorem matchesWhole_iff : p.matchesWhole s ↔ ∃ m, p.Fits none s none none m := by
  constructor
  · intro h
    obtain ⟨found, hfound⟩ := Option.isSome_iff_exists.1 h
    obtain ⟨t, cur', value, hpasses, hfits, hend⟩ := fits_of_matchThen hfound
    have hrest : cur'.rest = [] := by simpa using hend
    obtain rfl : s = t := by simpa [Cursor.start, hrest] using hpasses.rest
    rw [hrest] at hfits
    exact ⟨_, hfits⟩
  · rintro ⟨m, hfits⟩
    have hpasses : (Cursor.start s).Passes s ⟨s.getLast?.or none, [], s.length⟩ :=
      ⟨(List.append_nil s).symm, rfl, (Nat.zero_add _).symm⟩
    exact isSome_matchThen hpasses hfits fun _ _ => rfl

/-! ### Values -/

/-- What was found is the mark, or all that was fitted where nothing is marked. -/
theorem exists_fits_of_matchAt {m : Match} (h : p.matchAt cur = some m) :
    ∃ s mark, cur.Passes s m.finish ∧ p.Fits cur.before s m.finish.rest.head? none mark ∧
      m.value = mark.getD s := by
  obtain ⟨s, finish, value, hpasses, hfits, hmatch⟩ := fits_of_matchThen h
  cases hmatch
  refine ⟨s, value.map Span.text, hpasses, hfits, ?_⟩
  cases value with
  | none => exact hpasses.text_span
  | some span => rfl

theorem exists_fits_of_mem_valuesFrom {found : List Char} (h : found ∈ p.valuesFrom cur) :
    ∃ b s a mark, s <:+: cur.rest ∧ p.Fits b s a none mark ∧ found = mark.getD s := by
  fun_induction valuesFrom p cur with
  | case1 cur m hm hlt ih =>
      obtain ⟨s, mark, hpasses, hfits, hvalue⟩ := exists_fits_of_matchAt hm
      rcases List.mem_cons.1 h with rfl | hlater
      · exact ⟨_, s, _, mark, ⟨[], _, hpasses.rest.symm⟩, hfits, hvalue⟩
      · obtain ⟨b, t, a, mark, hinfix, hrest⟩ := ih hlater
        refine ⟨b, t, a, mark, hinfix.trans ?_, hrest⟩
        rw [hpasses.rest]
        exact (List.suffix_append _ _).isInfix
  | case2 | case4 => cases h
  | case3 | case5 =>
      rename_i c rest hrest ih
      obtain ⟨b, s, a, mark, hinfix, hfits⟩ := ih h
      refine ⟨b, s, a, mark, hinfix.trans ?_, hfits⟩
      rw [hrest]
      exact (List.suffix_cons c rest).isInfix

/-- Every value stands in the text. -/
theorem infix_of_mem_values {text found : List Char} (h : found ∈ p.values text) :
    found <:+: text := by
  obtain ⟨b, s, a, mark, hinfix, hfits, rfl⟩ := exists_fits_of_mem_valuesFrom h
  rcases hfits.mark_eq_or with rfl | ⟨t, rfl, ht⟩
  · exact hinfix
  · exact ht.trans hinfix

end Pattern
end DocClaims
