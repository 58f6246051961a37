import DocClaims.Proofs.Pattern.Scans
import Mathlib.Data.List.TakeWhile

/-!
# Words

The words of a text are its longest runs of word characters: each of them begins and ends
where no word character stands beside it.
-/

namespace DocClaims

open Pattern (isWord)

/-- A run of word characters in the text that no word character goes on, on either side. -/
structure Stretch.IsWordOf (word : Stretch) (text : List Char) : Prop where
  chars : text.drop word.start = word.chars ++ text.drop word.finish
  ne_nil : word.chars ≠ []
  isWordChar : ∀ c ∈ word.chars, Text.isWordChar c
  before : isWord (text.take word.start).getLast? = false
  behind : isWord (text.drop word.finish).head? = false

theorem isWord_eq_false_iff {c : Option Char} :
    isWord c = false ↔ ∀ d ∈ c, Text.isWordChar d = false := by
  cases c <;> simp [isWord]

/-- The longest run of a class is the one that no member follows. -/
theorem takeWhile_append_eq_left_iff {α : Type} {f : α → Bool} {s rest : List α} :
    (s ++ rest).takeWhile f = s ↔ (∀ c ∈ s, f c) ∧ ∀ c ∈ rest.head?, f c = false := by
  constructor
  · intro h
    have hs : ∀ c ∈ s, f c := by
      rw [← h]
      exact fun c => List.mem_takeWhile_imp
    rw [List.takeWhile_append_of_pos hs, List.append_right_eq_self] at h
    refine ⟨hs, ?_⟩
    rintro c hc
    obtain ⟨rest, rfl⟩ := List.head?_eq_some_iff.1 hc
    by_contra hmember
    rw [List.takeWhile_cons_of_pos (by simpa using hmember)] at h
    cases h
  · rintro ⟨hs, hrest⟩
    rw [List.takeWhile_append_of_pos hs, List.append_right_eq_self]
    cases rest with
    | nil => rfl
    | cons c rest => exact List.takeWhile_cons_of_neg (by simpa using hrest c rfl)

/-- No member follows the longest run of a class. -/
theorem eq_false_of_head?_dropWhile {α : Type} {f : α → Bool} {s : List α} :
    ∀ c ∈ (s.dropWhile f).head?, f c = false := by
  intro c hc
  have hhead := List.head?_dropWhile_not f s
  rw [hc] at hhead
  exact hhead

theorem dropWhile_append_eq_right {α : Type} {f : α → Bool} {s rest : List α} (hs : ∀ c ∈ s, f c)
    (hrest : ∀ c ∈ rest.head?, f c = false) : (s ++ rest).dropWhile f = rest := by
  rw [List.dropWhile_append_of_pos hs]
  cases rest with
  | nil => rfl
  | cons c rest => exact List.dropWhile_cons_of_neg (by simpa using hrest c rfl)

namespace Reader

variable {text s rest : List Char} {before : Option Char} {i j : Nat}

/-- Reads a word at its beginning. -/
def word : Reader where
  read? before cs :=
    (some (cs.takeWhile Text.isWordChar)).filter fun run => !isWord before && !run.isEmpty
  begins := by
    intro before cs s h
    obtain ⟨hs, -⟩ := Option.filter_eq_some_iff.1 h
    obtain rfl := Option.some.inj hs
    exact List.takeWhile_prefix _
  ne_nil := by
    rintro before cs s h rfl
    simpa using (Option.filter_eq_some_iff.1 h).2

/-- Reads only what passes. -/
def keep (reader : Reader) (passes : List Char → Bool) : Reader where
  read? before cs := (reader.read? before cs).filter passes
  begins h := reader.begins (Option.filter_eq_some_iff.1 h).1
  ne_nil h := reader.ne_nil (Option.filter_eq_some_iff.1 h).1

theorem read?_word_eq_some_iff :
    word.read? before (s ++ rest) = some s ↔
      isWord before = false ∧ s ≠ [] ∧ (∀ c ∈ s, Text.isWordChar c) ∧
        isWord rest.head? = false := by
  have hrun : (s ++ rest).takeWhile Text.isWordChar = s ↔
      (∀ c ∈ s, Text.isWordChar c) ∧ isWord rest.head? = false := by
    rw [takeWhile_append_eq_left_iff, isWord_eq_false_iff]
  rw [← hrun]
  simp only [word, Option.filter_eq_some_iff, Option.some.injEq, Bool.and_eq_true,
    Bool.not_eq_true', List.isEmpty_eq_false_iff]
  rw [and_comm, and_assoc]

theorem at?_keep (reader : Reader) (passes : List Char → Bool) (text : List Char) (i : Nat) :
    (reader.keep passes).at? text i = (reader.at? text i).filter passes := rfl

theorem at?_word_eq_some_iff : word.at? text i = some s ↔ (Stretch.mk i s).IsWordOf text := by
  constructor
  · intro h
    have hdrop := drop_of_at? h
    rw [at?, hdrop] at h
    obtain ⟨hbefore, hne, hs, hbehind⟩ := read?_word_eq_some_iff.1 h
    exact ⟨hdrop, hne, hs, hbefore, hbehind⟩
  · intro h
    rw [at?, h.chars]
    exact read?_word_eq_some_iff.2 ⟨h.before, h.ne_nil, h.isWordChar, h.behind⟩

/-- No word begins inside of a word. -/
theorem at?_inside_word (h : word.at? text i = some s) (hij : i < j) (hj : j < i + s.length) :
    word.at? text j = none := by
  have hword := at?_word_eq_some_iff.1 h
  obtain ⟨n, rfl⟩ : ∃ n, j = i + (n + 1) := ⟨j - i - 1, by omega⟩
  have hlt : n < s.length := by omega
  have hlast : (text.take (i + (n + 1))).getLast? = some s[n] := by
    rw [List.take_add, hword.chars, List.take_append_of_le_length (by exact hlt),
      List.take_succ_eq_append_getElem hlt, ← List.append_assoc, List.getLast?_concat]
  have hbefore : isWord (text.take (i + (n + 1))).getLast? := by
    rw [hlast]
    exact hword.isWordChar _ (List.getElem_mem hlt)
  simp [at?, word, hbefore]

theorem scanFrom_keep_word (passes : List Char → Bool) (text : List Char) (i : Nat) :
    (word.keep passes).scanFrom text i = (word.scanFrom text i).filter (passes ·.chars) := by
  induction i using word.scan_induction text with
  | read i s hread ih =>
      rw [scanFrom_of_at?_eq_some hread]
      cases hpasses : passes s with
      | true =>
          have hkept : (word.keep passes).at? text i = some s := by
            rw [at?_keep, hread, Option.filter_some, if_pos hpasses]
          rw [scanFrom_of_at?_eq_some hkept, ih]
          simp [hpasses]
      | false =>
          have hnone : ∀ j, i ≤ j → j < i + s.length → (word.keep passes).at? text j = none := by
            intro j hij hj
            rcases Nat.eq_or_lt_of_le hij with rfl | hlt
            · rw [at?_keep, hread, Option.filter_some, hpasses]
              rfl
            · rw [at?_keep, at?_inside_word hread hlt hj]
              rfl
          rw [scanFrom_of_forall_at? (Nat.le_add_right i s.length) hnone, ih]
          simp [hpasses]
  | skip i hlt hread ih =>
      have hnone : (word.keep passes).at? text i = none := by
        rw [at?_keep, hread]
        rfl
      rw [scanFrom_of_at?_eq_none hnone, scanFrom_of_at?_eq_none hread, ih]
  | stop i hlength =>
      rw [scanFrom_of_length_le hlength, scanFrom_of_length_le hlength]
      rfl

theorem readsAlone_keep_word (passes : List Char → Bool) : (word.keep passes).ReadsAlone := by
  intro before cs s h
  obtain ⟨hread, hpasses⟩ := Option.filter_eq_some_iff.1 h
  obtain ⟨rest, rfl⟩ := word.begins hread
  obtain ⟨-, hne, hs, -⟩ := read?_word_eq_some_iff.1 hread
  have halone : word.read? none (s ++ []) = some s :=
    read?_word_eq_some_iff.2 ⟨rfl, hne, hs, rfl⟩
  rw [List.append_nil] at halone
  exact Option.filter_eq_some_iff.2 ⟨halone, hpasses⟩

end Reader

/-! ### The words of a text -/

/-- The words of a text, from left to right. -/
def words (text : List Char) : List Stretch := Reader.word.scan text

theorem mem_words_iff {word : Stretch} {text : List Char} :
    word ∈ words text ↔ word.IsWordOf text := by
  constructor
  · intro h
    exact Reader.at?_word_eq_some_iff.1 (Reader.at?_of_mem_scan h)
  · intro h
    have hread := Reader.at?_word_eq_some_iff.2 h
    obtain ⟨found, hfound, hstart, hfinish⟩ := Reader.exists_mem_scanFrom (Nat.zero_le _) hread
    have hother := Reader.at?_of_mem_scan hfound
    rcases Nat.eq_or_lt_of_le hstart with heq | hlt
    · rw [heq, hread, Option.some.injEq] at hother
      obtain rfl : found = word := by
        rw [Stretch.mk.injEq]
        exact ⟨heq, hother.symm⟩
      exact hfound
    · rw [Reader.at?_inside_word hother hlt hfinish] at hread
      cases hread

end DocClaims
