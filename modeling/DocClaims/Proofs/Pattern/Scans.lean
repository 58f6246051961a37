import DocClaims.Proofs.Pattern.Runs
import Mathlib.Data.List.Pairwise

/-!
# Scans

A reader tells what is read at a place of a text, from the character before the place and
all that follows. A scan takes what is read at the first place where something is, goes on
behind it, and stops when no place is left. The values of a pattern are what a scan finds,
when the pattern matches at each place what the reader reads there.
-/

namespace DocClaims

structure Reader where
  /-- What is read before the given characters, and behind the character given first. -/
  read? : Option Char → List Char → Option (List Char)
  begins : ∀ {b cs s}, read? b cs = some s → s <+: cs
  ne_nil : ∀ {b cs s}, read? b cs = some s → s ≠ []

/-- Characters in a text, and the number of those before them. -/
structure Stretch where
  start : Nat
  chars : List Char
  deriving DecidableEq, Repr

def Stretch.finish (found : Stretch) : Nat := found.start + found.chars.length

namespace Reader

variable (reader : Reader)

/-- What is read at the place behind the first `i` characters. -/
def at? (text : List Char) (i : Nat) : Option (List Char) :=
  reader.read? (text.take i).getLast? (text.drop i)

/-- What is read at the first place from `i` on where something is. -/
def first? (text : List Char) (i : Nat) : Option Stretch :=
  (List.range' i (text.length - i)).findSome? fun j => (reader.at? text j).map (Stretch.mk j)

variable {reader} {text s : List Char} {i j : Nat} {found : Stretch}

theorem drop_of_at? (h : reader.at? text i = some s) :
    text.drop i = s ++ text.drop (i + s.length) := by
  obtain ⟨rest, hrest⟩ := reader.begins h
  rw [← List.drop_drop, ← hrest, List.drop_left]

theorem lt_of_at? (h : reader.at? text i = some s) :
    i < text.length ∧ i + s.length ≤ text.length ∧ 0 < s.length := by
  have hlength := (reader.begins h).length_le
  have hpos := List.length_pos_iff.2 (reader.ne_nil h)
  rw [List.length_drop] at hlength
  omega

theorem first?_eq_some (h : reader.first? text i = some found) :
    i ≤ found.start ∧ reader.at? text found.start = some found.chars := by
  obtain ⟨j, hj, hread⟩ := List.exists_of_findSome?_eq_some h
  obtain ⟨s, hs, rfl⟩ := Option.map_eq_some_iff.1 hread
  exact ⟨(List.mem_range'_1.1 hj).1, hs⟩

variable (reader) in
/-- What is read from left to right, from the place `i` on. -/
def scanFrom (text : List Char) (i : Nat) : List Stretch :=
  match _h : reader.first? text i with
  | some found => found :: scanFrom text found.finish
  | none => []
termination_by text.length - i
decreasing_by
  obtain ⟨hle, hread⟩ := first?_eq_some _h
  have hlt := lt_of_at? hread
  rw [Stretch.finish]
  omega

variable (reader) in
def scan (text : List Char) : List Stretch := reader.scanFrom text 0

theorem scanFrom_eq (text : List Char) (i : Nat) :
    reader.scanFrom text i = match reader.first? text i with
      | some found => found :: reader.scanFrom text found.finish
      | none => [] := by
  rw [scanFrom]
  split
  · next found hfound => rw [hfound]
  · next hnone => rw [hnone]

theorem scanFrom_of_length_le (h : text.length ≤ i) : reader.scanFrom text i = [] := by
  have hfirst : reader.first? text i = none := by
    rw [first?, Nat.sub_eq_zero_of_le h]
    rfl
  rw [scanFrom_eq, hfirst]

theorem first?_of_lt (h : i < text.length) :
    reader.first? text i =
      ((reader.at? text i).map (Stretch.mk i)).or (reader.first? text (i + 1)) := by
  have hlength : text.length - i = text.length - (i + 1) + 1 := by omega
  rw [first?, hlength, List.range'_succ, List.findSome?_cons, first?]
  cases reader.at? text i <;> rfl

theorem scanFrom_of_at?_eq_some (h : reader.at? text i = some s) :
    reader.scanFrom text i = ⟨i, s⟩ :: reader.scanFrom text (i + s.length) := by
  rw [scanFrom_eq, first?_of_lt (lt_of_at? h).1, h]
  rfl

theorem scanFrom_of_at?_eq_none (h : reader.at? text i = none) :
    reader.scanFrom text i = reader.scanFrom text (i + 1) := by
  by_cases hlt : i < text.length
  · rw [scanFrom_eq, first?_of_lt hlt, h, scanFrom_eq text (i + 1)]
    rfl
  · rw [scanFrom_of_length_le (by omega), scanFrom_of_length_le (by omega)]

theorem scanFrom_of_forall_at? (hij : i ≤ j)
    (h : ∀ k, i ≤ k → k < j → reader.at? text k = none) :
    reader.scanFrom text i = reader.scanFrom text j := by
  induction hij with
  | refl => rfl
  | step hij ih =>
      rw [ih fun k hik hkj => h k hik (Nat.lt_succ_of_lt hkj)]
      exact scanFrom_of_at?_eq_none (h _ hij (Nat.lt_succ_self _))

/-- A scan goes from place to place: behind what it reads, else one character on. -/
theorem scan_induction {motive : Nat → Prop} (text : List Char)
    (read : ∀ i s, reader.at? text i = some s → motive (i + s.length) → motive i)
    (skip : ∀ i, i < text.length → reader.at? text i = none → motive (i + 1) → motive i)
    (stop : ∀ i, text.length ≤ i → motive i) (i : Nat) : motive i := by
  induction hn : text.length - i using Nat.strongRecOn generalizing i with
  | ind n ih =>
      by_cases hlt : i < text.length
      · cases hread : reader.at? text i with
        | some s =>
            have hpos := (lt_of_at? hread).2.2
            exact read i s hread (ih _ (by omega) _ rfl)
        | none => exact skip i hlt hread (ih _ (by omega) _ rfl)
      · exact stop i (by omega)

/-! ### What a scan finds -/

theorem of_mem_scanFrom (h : found ∈ reader.scanFrom text i) :
    i ≤ found.start ∧ reader.at? text found.start = some found.chars := by
  induction i using reader.scan_induction text with
  | read i s hread ih =>
      rw [scanFrom_of_at?_eq_some hread, List.mem_cons] at h
      rcases h with rfl | hlater
      · exact ⟨Nat.le_refl i, hread⟩
      · obtain ⟨hle, hfound⟩ := ih hlater
        exact ⟨by omega, hfound⟩
  | skip i _ hread ih =>
      rw [scanFrom_of_at?_eq_none hread] at h
      obtain ⟨hle, hfound⟩ := ih h
      exact ⟨by omega, hfound⟩
  | stop i hlength =>
      rw [scanFrom_of_length_le hlength] at h
      cases h

theorem at?_of_mem_scan (h : found ∈ reader.scan text) :
    reader.at? text found.start = some found.chars := (of_mem_scanFrom h).2

/-- No two of the stretches overlap, and they come in the order of the text. -/
theorem pairwise_scanFrom (text : List Char) (i : Nat) :
    (reader.scanFrom text i).Pairwise fun found later => found.finish ≤ later.start := by
  induction i using reader.scan_induction text with
  | read i s hread ih =>
      rw [scanFrom_of_at?_eq_some hread, List.pairwise_cons]
      exact ⟨fun later hlater => (of_mem_scanFrom hlater).1, ih⟩
  | skip i _ hread ih =>
      rw [scanFrom_of_at?_eq_none hread]
      exact ih
  | stop i hlength =>
      rw [scanFrom_of_length_le hlength]
      exact .nil

theorem exists_mem_scanFrom (hij : i ≤ j) (h : reader.at? text j = some s) :
    ∃ found ∈ reader.scanFrom text i, found.start ≤ j ∧ j < found.finish := by
  induction i using reader.scan_induction text with
  | read i t hread ih =>
      rw [scanFrom_of_at?_eq_some hread]
      by_cases hinside : j < i + t.length
      · exact ⟨⟨i, t⟩, List.mem_cons_self, hij, hinside⟩
      · obtain ⟨found, hfound, hplace⟩ := ih (by omega)
        exact ⟨found, List.mem_cons_of_mem _ hfound, hplace⟩
  | skip i _ hread ih =>
      rw [scanFrom_of_at?_eq_none hread]
      have hne : i ≠ j := by
        rintro rfl
        rw [hread] at h
        cases h
      exact ih (by omega)
  | stop i hlength =>
      have hlt := (lt_of_at? h).1
      omega

/-- Every place where something is read lies in exactly one of the stretches. -/
theorem existsUnique_mem_scan (h : reader.at? text j = some s) :
    ∃! found, found ∈ reader.scan text ∧ found.start ≤ j ∧ j < found.finish := by
  obtain ⟨found, hfound, hstart, hfinish⟩ := exists_mem_scanFrom (Nat.zero_le j) h
  refine ⟨found, ⟨hfound, hstart, hfinish⟩, ?_⟩
  rintro other ⟨hother, hstart', hfinish'⟩
  by_contra hne
  have hsymm : Std.Symm fun f g : Stretch => f.finish ≤ g.start ∨ g.finish ≤ f.start :=
    ⟨fun _ _ => Or.symm⟩
  have hapart : (reader.scan text).Pairwise fun f g => f.finish ≤ g.start ∨ g.finish ≤ f.start :=
    (pairwise_scanFrom text 0).imp Or.inl
  rcases hapart.forall hother hfound hne with hle | hle
  all_goals omega

/-- What is read stands alone when it is read again without the text around it. -/
def ReadsAlone (reader : Reader) : Prop :=
  ∀ {b cs s}, reader.read? b cs = some s → reader.read? none s = some s

theorem scan_alone (h : reader.read? none s = some s) : reader.scan s = [⟨0, s⟩] := by
  have hread : reader.at? s 0 = some s := h
  rw [scan, scanFrom_of_at?_eq_some hread, scanFrom_of_length_le (by omega)]

end Reader

namespace Pattern

variable {p : Pattern} {reader : Reader} {cur cur' : Cursor} {text s : List Char} {i : Nat}

/-- The place behind the first `i` characters. -/
def Cursor.place (text : List Char) (i : Nat) : Cursor := ⟨(text.take i).getLast?, text.drop i, i⟩

theorem Cursor.Passes.eq_place (h : (Cursor.place text i).Passes s cur') :
    cur' = .place text (i + s.length) := by
  obtain ⟨before, rest, offset⟩ := cur'
  obtain ⟨hrest, hbefore, hoffset⟩ := h
  have hdrop : text.drop i = s ++ rest := hrest
  rw [Cursor.place, Cursor.mk.injEq, List.take_add, ← List.drop_drop, hdrop, List.drop_left,
    List.take_left, List.getLast?_append]
  exact ⟨hbefore, rfl, hoffset⟩

/-- At each place the pattern matches what is read there, and nothing where nothing is read. -/
structure ReadBy (p : Pattern) (reader : Reader) : Prop where
  found : ∀ {cur s}, reader.read? cur.before cur.rest = some s →
    ∃ finish, p.matchAt cur = some ⟨s, finish⟩ ∧ cur.Passes s finish
  missed : ∀ {cur}, reader.read? cur.before cur.rest = none → p.matchAt cur = none

theorem valuesFrom_of_rest_eq_nil (h : cur.rest = []) : p.valuesFrom cur = [] := by
  rw [valuesFrom]
  repeat' split
  all_goals simp_all

theorem valuesFrom_of_missed {c : Char} {rest : List Char} (hrest : cur.rest = c :: rest)
    (h : p.matchAt cur = none) : p.valuesFrom cur = p.valuesFrom (cur.past c rest) := by
  rw [valuesFrom, h]
  dsimp only
  split
  · next hnil => simp [hrest] at hnil
  · next d behind hbehind =>
      rw [hrest, List.cons.injEq] at hbehind
      rw [hbehind.1, hbehind.2]

theorem ReadBy.valuesFrom_place (h : p.ReadBy reader) (text : List Char) (i : Nat) :
    p.valuesFrom (.place text i) = (reader.scanFrom text i).map (·.chars) := by
  induction i using reader.scan_induction text with
  | read i s hread ih =>
      have hplace : reader.read? (Cursor.place text i).before (Cursor.place text i).rest = some s :=
        hread
      obtain ⟨finish, hmatch, hpasses⟩ := h.found hplace
      obtain rfl := hpasses.eq_place
      have hlt := Reader.lt_of_at? hread
      have hshorter : (Cursor.place text (i + s.length)).rest.length <
          (Cursor.place text i).rest.length := by
        simp only [Cursor.place, List.length_drop]
        omega
      rw [valuesFrom, hmatch, Reader.scanFrom_of_at?_eq_some hread, List.map_cons, ← ih]
      exact if_pos hshorter
  | skip i hlt hread ih =>
      have hcons : text.drop i = text[i] :: text.drop (i + 1) := List.drop_eq_getElem_cons hlt
      have hpasses : (Cursor.place text i).Passes [text[i]]
          ((Cursor.place text i).past text[i] (text.drop (i + 1))) := .past hcons
      have hmissed : p.matchAt (.place text i) = none := h.missed hread
      rw [Reader.scanFrom_of_at?_eq_none hread, ← ih, valuesFrom_of_missed hcons hmissed,
        hpasses.eq_place]
      rfl
  | stop i hlength =>
      have hrest : (Cursor.place text i).rest = [] := List.drop_eq_nil_of_le hlength
      rw [Reader.scanFrom_of_length_le hlength, valuesFrom_of_rest_eq_nil hrest]
      rfl

theorem ReadBy.values_eq (h : p.ReadBy reader) (text : List Char) :
    p.values text = (reader.scan text).map (·.chars) := h.valuesFrom_place text 0

theorem ReadBy.values_alone (h : p.ReadBy reader) (halone : reader.ReadsAlone)
    (hs : s ∈ p.values text) : p.values s = [s] := by
  rw [h.values_eq, List.mem_map] at hs
  obtain ⟨found, hfound, rfl⟩ := hs
  have hread := halone (Reader.at?_of_mem_scan hfound)
  rw [h.values_eq, Reader.scan_alone hread]
  rfl

/-- A pattern that is found to end behind what is read, and that marks all of it or nothing. -/
theorem ReadBy.of_matchThen (marked : Cursor → Cursor → Option Span)
    (hmarked : ∀ cur finish, (marked cur finish).getD ⟨cur, finish⟩ = ⟨cur, finish⟩)
    (h : ∀ (cur : Cursor) (next : Cursor → Option Span → Option Match),
      (∀ cur value, (next cur value).isSome) → p.matchThen cur none next =
        (reader.read? cur.before cur.rest).bind fun s =>
          next (cur.behind s) (marked cur (cur.behind s))) :
    p.ReadBy reader := by
  have hmatch : ∀ cur, p.matchAt cur = (reader.read? cur.before cur.rest).map fun s =>
      ⟨Span.text ⟨cur, cur.behind s⟩, cur.behind s⟩ := by
    intro cur
    rw [matchAt, h cur _ fun _ _ => rfl]
    cases reader.read? cur.before cur.rest with
    | none => rfl
    | some s => rw [Option.bind_some, hmarked, Option.map_some]
  constructor
  · intro cur s hs
    have hpasses := Cursor.passes_behind (reader.begins hs)
    refine ⟨cur.behind s, ?_, hpasses⟩
    rw [hmatch, hs, Option.map_some, hpasses.text_span]
  · intro cur hnone
    rw [hmatch, hnone, Option.map_none]

/-- A pattern that fits nothing but what is read is matched there. -/
theorem ReadBy.of_fits
    (hread : ∀ {b s rest}, reader.read? b (s ++ rest) = some s →
      ∃ mark, p.Fits b s rest.head? none mark)
    (hfits : ∀ {b s rest mark}, p.Fits b s rest.head? none mark →
      reader.read? b (s ++ rest) = some s ∧ mark.getD s = s) : p.ReadBy reader := by
  have hmatched : ∀ {cur m}, p.matchAt cur = some m →
      reader.read? cur.before cur.rest = some m.value ∧ cur.Passes m.value m.finish := by
    intro cur m hm
    obtain ⟨s, mark, hpasses, hfit, hvalue⟩ := exists_fits_of_matchAt hm
    obtain ⟨hs, hmark⟩ := hfits hfit
    rw [hvalue, hmark, hpasses.rest]
    exact ⟨hs, hpasses⟩
  constructor
  · intro cur s hs
    obtain ⟨rest, hrest⟩ := reader.begins hs
    rw [← hrest] at hs
    obtain ⟨mark, hfit⟩ := hread hs
    have hpasses : cur.Passes s ⟨s.getLast?.or cur.before, rest, cur.offset + s.length⟩ :=
      ⟨hrest.symm, rfl, rfl⟩
    have hsome : (p.matchAt cur).isSome := isSome_matchThen hpasses hfit fun _ _ => rfl
    obtain ⟨m, hm⟩ := Option.isSome_iff_exists.1 hsome
    obtain ⟨hvalue, hpassed⟩ := hmatched hm
    rw [← hrest, hs, Option.some.injEq] at hvalue
    obtain rfl := hvalue
    exact ⟨m.finish, hm, hpassed⟩
  · intro cur hnone
    cases hm : p.matchAt cur with
    | none => rfl
    | some m =>
        rw [(hmatched hm).1] at hnone
        cases hnone

end Pattern
end DocClaims
