import DocClaims.Proofs.Pattern.Readings

/-!
# Texts read part by part

Some characters stop a reader: nothing is read across them, and what follows them is read as
if the text began there. The scan of a text falls into the scans of its parts wherever such a
character stands at the end of the first part or at the beginning of the second.
-/

namespace DocClaims

/-- The same characters in a text with `n` more characters before them. -/
def Stretch.shift (n : Nat) (found : Stretch) : Stretch := ⟨n + found.start, found.chars⟩

def Stretch.beginsIn (found outer : Stretch) : Bool :=
  outer.start ≤ found.start && found.start < outer.finish

theorem Stretch.beginsIn_iff {found outer : Stretch} :
    found.beginsIn outer ↔ outer.start ≤ found.start ∧ found.start < outer.finish := by
  rw [beginsIn, Bool.and_eq_true, decide_eq_true_iff, decide_eq_true_iff]

namespace Reader

variable {reader : Reader} {a b : List Char} {c : Char} {i : Nat}

structure StopsAt (reader : Reader) (c : Char) : Prop where
  behind : ∀ before cs rest, reader.read? before (cs ++ c :: rest) = reader.read? before cs
  before : ∀ cs, reader.read? (some c) cs = reader.read? none cs

/-- Each place of the two parts is read in both of them together as in its part alone. -/
structure Parts (reader : Reader) (a b : List Char) : Prop where
  first : ∀ i < a.length, reader.at? (a ++ b) i = reader.at? a i
  second : ∀ j, reader.at? (a ++ b) (a.length + j) = reader.at? b j

theorem at?_of_length_le (h : a.length ≤ i) : reader.at? a i = none := by
  cases hread : reader.at? a i with
  | none => rfl
  | some s =>
      have hlt := (lt_of_at? hread).1
      omega

namespace StopsAt

theorem at?_append_cons (h : reader.StopsAt c) (b : List Char) (hi : i ≤ a.length) :
    reader.at? (a ++ c :: b) i = reader.at? a i := by
  rw [at?, List.take_append_of_le_length hi, List.drop_append_of_le_length hi, h.behind, at?]

theorem parts_concat (h : reader.StopsAt c) (a b : List Char) : reader.Parts (a ++ [c]) b where
  first i hi := by
    have hle : i ≤ a.length := by
      rw [List.length_append, List.length_singleton] at hi
      omega
    rw [List.append_assoc, List.singleton_append, h.at?_append_cons b hle,
      h.at?_append_cons [] hle]
  second j := by
    have hlast : (a ++ [c] ++ b.take j).getLast? = (b.take j).getLast?.or (some c) := by
      rw [List.getLast?_append, List.getLast?_concat]
    rw [at?, List.take_length_add_append, List.drop_length_add_append, hlast, at?]
    cases (b.take j).getLast? with
    | none => exact h.before _
    | some d => rfl

theorem parts_cons (h : reader.StopsAt c) (a b : List Char) : reader.Parts a (c :: b) where
  first i hi := h.at?_append_cons b (Nat.le_of_lt hi)
  second j := by
    cases j with
    | zero =>
        have halone : reader.at? (c :: b) 0 = none :=
          (h.at?_append_cons (a := []) b (Nat.le_refl 0)).trans (at?_of_length_le (Nat.le_refl 0))
        rw [Nat.add_zero, h.at?_append_cons b (Nat.le_refl _), at?_of_length_le (Nat.le_refl _),
          halone]
    | succ j =>
        have hwhole := (h.parts_concat a b).second j
        have halone := (h.parts_concat [] b).second j
        rw [List.append_assoc, List.singleton_append, List.length_append, List.length_singleton,
          Nat.add_assoc, Nat.add_comm 1 j] at hwhole
        rw [List.nil_append, List.singleton_append, List.length_singleton, Nat.add_comm 1 j] at halone
        rw [hwhole, halone]

end StopsAt

theorem parts_of_getLast? (h : ∀ c ∈ a.getLast?, reader.StopsAt c) (b : List Char) :
    reader.Parts a b := by
  rcases List.eq_nil_or_concat' a with rfl | ⟨front, c, rfl⟩
  · refine ⟨fun i hi => absurd hi (Nat.not_lt_zero i), fun j => ?_⟩
    rw [List.nil_append, List.length_nil, Nat.zero_add]
  · exact (h c List.getLast?_concat).parts_concat front b

theorem parts_of_head? (a : List Char) (h : ∀ c ∈ b.head?, reader.StopsAt c) :
    reader.Parts a b := by
  cases b with
  | nil =>
      refine ⟨fun i _ => by rw [List.append_nil], fun j => ?_⟩
      rw [List.append_nil, at?_of_length_le (Nat.le_add_right _ _), at?_of_length_le (Nat.zero_le j)]
  | cons c b => exact (h c rfl).parts_cons a b

namespace Parts

theorem scanFrom_first (h : reader.Parts a b) (hi : i ≤ a.length) :
    reader.scanFrom (a ++ b) i = reader.scanFrom a i ++ reader.scanFrom (a ++ b) a.length := by
  induction i using reader.scan_induction a with
  | read i s hread ih =>
      obtain ⟨hlt, hle, -⟩ := lt_of_at? hread
      have hwhole : reader.at? (a ++ b) i = some s := by rw [h.first i hlt, hread]
      rw [scanFrom_of_at?_eq_some hwhole, scanFrom_of_at?_eq_some hread, ih hle, List.cons_append]
  | skip i hlt hread ih =>
      have hwhole : reader.at? (a ++ b) i = none := by rw [h.first i hlt, hread]
      rw [scanFrom_of_at?_eq_none hwhole, scanFrom_of_at?_eq_none hread, ih hlt]
  | stop i hlength =>
      obtain rfl : i = a.length := Nat.le_antisymm hi hlength
      rw [scanFrom_of_length_le hlength, List.nil_append]

theorem scanFrom_second (h : reader.Parts a b) (j : Nat) :
    reader.scanFrom (a ++ b) (a.length + j) =
      (reader.scanFrom b j).map (Stretch.shift a.length) := by
  induction j using reader.scan_induction b with
  | read j s hread ih =>
      have hwhole : reader.at? (a ++ b) (a.length + j) = some s := by rw [h.second, hread]
      rw [scanFrom_of_at?_eq_some hwhole, scanFrom_of_at?_eq_some hread, Nat.add_assoc, ih]
      rfl
  | skip j hlt hread ih =>
      have hwhole : reader.at? (a ++ b) (a.length + j) = none := by rw [h.second, hread]
      rw [scanFrom_of_at?_eq_none hwhole, scanFrom_of_at?_eq_none hread, Nat.add_assoc, ih]
  | stop j hlength =>
      have hwhole : (a ++ b).length ≤ a.length + j := by
        rw [List.length_append]
        omega
      rw [scanFrom_of_length_le hwhole, scanFrom_of_length_le hlength]
      rfl

/-- What is found in the two parts together is found in one of them. -/
theorem scan_append (h : reader.Parts a b) :
    reader.scan (a ++ b) = reader.scan a ++ (reader.scan b).map (Stretch.shift a.length) := by
  rw [scan, h.scanFrom_first (Nat.zero_le _), ← Nat.add_zero a.length, h.scanFrom_second 0,
    Nat.add_zero]
  rfl

theorem chars_scan_append (h : reader.Parts a b) :
    (reader.scan (a ++ b)).map (·.chars) =
      (reader.scan a).map (·.chars) ++ (reader.scan b).map (·.chars) := by
  rw [h.scan_append, List.map_append, List.map_map]
  rfl

variable {middle : List Char}

/-- What begins in a part is what is found in the part alone. -/
theorem filter_beginsIn_scan (hfirst : reader.Parts a (middle ++ b))
    (hsecond : reader.Parts middle b) :
    (reader.scan (a ++ (middle ++ b))).filter (·.beginsIn ⟨a.length, middle⟩) =
      (reader.scan middle).map (Stretch.shift a.length) := by
  have hbefore : ∀ found ∈ reader.scan a, ¬found.beginsIn ⟨a.length, middle⟩ := by
    intro found hfound hbegins
    have hle : a.length ≤ found.start := (Stretch.beginsIn_iff.1 hbegins).1
    have hlt := (lt_of_at? (at?_of_mem_scan hfound)).1
    omega
  have hinside : ∀ found ∈ reader.scan middle,
      (found.shift a.length).beginsIn ⟨a.length, middle⟩ := by
    intro found hfound
    have hlt := (lt_of_at? (at?_of_mem_scan hfound)).1
    exact Stretch.beginsIn_iff.2 ⟨Nat.le_add_right _ _, Nat.add_lt_add_left hlt _⟩
  have hbehind : ∀ found ∈ reader.scan b,
      ¬((found.shift middle.length).shift a.length).beginsIn ⟨a.length, middle⟩ := by
    intro found _ hbegins
    have hlt : a.length + (middle.length + found.start) < a.length + middle.length :=
      (Stretch.beginsIn_iff.1 hbegins).2
    omega
  rw [hfirst.scan_append, hsecond.scan_append, List.map_append, List.filter_append,
    List.filter_append, List.filter_eq_nil_iff.2 hbefore,
    List.filter_eq_self.2 (List.forall_mem_map.2 hinside),
    List.filter_eq_nil_iff.2 (by simpa using hbehind), List.nil_append, List.append_nil]

end Parts

theorem StopsAt.scan_singleton (h : reader.StopsAt c) : reader.scan [c] = [] := by
  have hnone : reader.at? [c] 0 = none :=
    (h.at?_append_cons (a := []) [] (Nat.le_refl 0)).trans (at?_of_length_le (Nat.le_refl 0))
  rw [scan, scanFrom_of_at?_eq_none hnone, scanFrom_of_length_le (Nat.le_refl 1)]

/-- On the two sides of a character that stops the reader, the texts are read as if alone. -/
theorem StopsAt.chars_scan_append_cons (h : reader.StopsAt c) (a b : List Char) :
    (reader.scan (a ++ c :: b)).map (·.chars) =
      (reader.scan a).map (·.chars) ++ (reader.scan b).map (·.chars) := by
  have hbehind := (h.parts_concat [] b).chars_scan_append
  rw [List.nil_append, h.scan_singleton] at hbehind
  rw [(h.parts_cons a b).chars_scan_append]
  exact congrArg _ hbehind

end Reader

/-! ### Readings in a row -/

namespace Reading

variable {p q : List Char → Option (List Char)} {f : Char → Bool} {w cs s : List Char} {c : Char}
  {words : List String}

/-- What is read does not depend on what follows the character. -/
def HaltsAt (p : List Char → Option (List Char)) (c : Char) : Prop :=
  ∀ cs rest, p (cs ++ c :: rest) = p cs

theorem isPrefixOf_append_cons (h : c ∉ w) (cs rest : List Char) :
    w.isPrefixOf (cs ++ c :: rest) = w.isPrefixOf cs := by
  rw [Bool.eq_iff_iff, List.isPrefixOf_iff_prefix, List.isPrefixOf_iff_prefix]
  constructor
  · intro hw
    rcases List.prefix_or_prefix_of_prefix hw (List.prefix_append cs _) with hcs | ⟨more, rfl⟩
    · exact hcs
    · cases more with
      | nil => simp
      | cons d more =>
          rw [List.prefix_append_right_inj] at hw
          obtain ⟨rfl, -⟩ := List.cons_prefix_cons.1 hw
          simp at h
  · intro hw
    exact hw.trans (List.prefix_append cs _)

theorem takeWhile_append_cons (h : f c = false) (cs rest : List Char) :
    (cs ++ c :: rest).takeWhile f = cs.takeWhile f := by
  rw [List.takeWhile_append, List.takeWhile_cons_of_neg (by simp [h]), List.append_nil]
  split
  · next hall => exact ((List.takeWhile_prefix f).eq_of_length hall).symm
  · rfl

theorem haltsAt_word? (h : c ∉ w) : HaltsAt (word? w) c := by
  intro cs rest
  rw [word?, isPrefixOf_append_cons h, word?]

theorem haltsAt_oneOf? (h : ∀ word ∈ words, c ∉ word.toList) : HaltsAt (oneOf? words) c := by
  intro cs rest
  rw [oneOf?, ← List.head?_filter, List.filter_congr fun word hword =>
    isPrefixOf_append_cons (h word hword) cs rest, List.head?_filter, oneOf?]

theorem haltsAt_run? (h : f c = false) : HaltsAt (run? f) c := by
  intro cs rest
  rw [run?, takeWhile_append_cons h, run?]

theorem drop_append_cons (hp : Begins p) (h : p cs = some s) (c : Char) (rest : List Char) :
    (cs ++ c :: rest).drop s.length = cs.drop s.length ++ c :: rest :=
  List.drop_append_of_le_length (hp h).length_le

theorem haltsAt_row? (hp : Begins p) (hfirst : HaltsAt p c) (hsecond : HaltsAt q c) :
    HaltsAt (row? p q) c := by
  intro cs rest
  rw [row?, hfirst, row?]
  cases hread : p cs with
  | none => rfl
  | some s => rw [Option.bind_some, Option.bind_some, drop_append_cons hp hread, hsecond]

end Reading
end DocClaims
