import DocClaims.Proofs.Path
import DocClaims.TypePath

/-!
# The words of a module name

A name made of capitalized words is written as these words in lowercase, joined by hyphens, and
the words can be told from what is written. Slashes and dots come through unchanged, whatever
else a name holds, so that the steps of a written name are those of the name, each written.
-/

namespace DocClaims

namespace Text

variable {c d : Char}

theorem lowerChar_of_lt (h : c.toNat < 128) :
    lowerChar c = [if isAsciiUpper c then Char.ofNat (c.toNat + 32) else c] := by
  rw [lowerChar, if_pos h]

theorem isUpper_of_lt (h : c.toNat < 128) : isUpper c = isAsciiUpper c := by
  rw [isUpper, if_pos h]

theorem isLower_of_lt (h : c.toNat < 128) : isLower c = isAsciiLower c := by
  rw [isLower, if_pos h]

theorem le_of_lowercaseRuns {first last step : Nat} {distance : Int}
    (h : (first, last, step, distance) ∈ lowercaseRuns) : 97 ≤ first + distance := by
  have hall : lowercaseRuns.all fun run => decide ((97 : Int) ≤ run.1 + run.2.2.2) := by
    decide +kernel
  exact of_decide_eq_true (List.all_eq_true.1 hall _ h)

theorem le_toNat_of_isAsciiUpper (h : isAsciiUpper c) : 65 ≤ c.toNat ∧ c.toNat ≤ 90 := by
  simpa [isAsciiUpper, Char.le_def, UInt32.le_iff_toNat_le] using h

theorem toNat_ofNat_eq_or (n : Nat) : (Char.ofNat n).toNat = n ∨ (Char.ofNat n).toNat = 0 := by
  by_cases hvalid : n.isValidChar
  · left
    rw [Char.ofNat, dif_pos hvalid]
    rfl
  · right
    rw [Char.ofNat, dif_neg hvalid]
    rfl

/-- No other character has a lowercase below the small letters. -/
theorem eq_of_mem_lowerChar (h : d ∈ lowerChar c) (hpos : 0 < d.toNat) (hlt : d.toNat < 97) :
    c = d := by
  have hsmall {n : Nat} (hn : 97 ≤ n) : d ≠ Char.ofNat n := by
    rintro rfl
    rcases toNat_ofNat_eq_or n with heq | hzero
    · omega
    · omega
  rw [lowerChar] at h
  split at h
  · rw [List.mem_singleton] at h
    split at h
    · next hupper =>
        have hle := le_toNat_of_isAsciiUpper hupper
        exact absurd h (hsmall (by omega))
    · exact h.symm
  · split at h
    · rcases List.mem_pair.1 h with rfl | rfl
      · exact absurd hlt (by decide)
      · exact absurd hlt (by decide)
    · split at h
      · next first last step distance hfind =>
          have hrun := List.find?_some hfind
          have hle := le_of_lowercaseRuns (List.mem_of_find?_eq_some hfind)
          simp only [Bool.and_eq_true, decide_eq_true_eq] at hrun
          exact absurd (List.mem_singleton.1 h) (hsmall (by omega))
      · exact (List.mem_singleton.1 h).symm

theorem lowerChar_ne_nil (c : Char) : lowerChar c ≠ [] := by
  rw [lowerChar]
  split
  · exact List.cons_ne_nil _ _
  · split
    · exact List.cons_ne_nil _ _
    · split
      · exact List.cons_ne_nil _ _
      · exact List.cons_ne_nil _ _

end Text

/-! ### One name behind another -/

/-- What is written for the characters of a name. -/
def kebab : List Char → List Char
  | [] => []
  | c :: rest => Text.lowerChar c ++ kebabFrom c rest

theorem toList_kebabCase (s : String) : (kebabCase s).toList = kebab s.toList := by
  rw [kebabCase]
  split
  · next h => rw [h]; rfl
  · next h => rw [h, String.toList_ofList]; rfl

variable {b c : Char} {xs ys : List Char} {s : String}

theorem beginsWord_eq_false (h : Text.isUpper c = false) (b : Char) (rest : List Char) :
    beginsWord b c rest = false := by
  rw [beginsWord, h, Bool.false_and]

/-- No word goes on behind a slash. -/
theorem beginsWord_slash (c : Char) (rest : List Char) : beginsWord '/' c rest = false := by
  have hlower : Text.isLower '/' = false := by decide
  have hdigit : Text.isAsciiDigit '/' = false := by decide
  have hupper : Text.isUpper '/' = false := by decide
  rw [beginsWord, hlower, hdigit, hupper, Bool.false_or, Bool.false_or, Bool.false_and,
    Bool.and_false]

/-- A name is written as if it stood behind a slash. -/
theorem kebabFrom_slash (ys : List Char) : kebabFrom '/' ys = kebab ys := by
  cases ys with
  | nil => rfl
  | cons c ys =>
      rw [kebabFrom, beginsWord_slash, kebab]
      rfl

theorem head?_append_slash (xs ys : List Char) :
    (xs ++ '/' :: ys).head?.any Text.isLower = xs.head?.any Text.isLower := by
  cases xs with
  | nil =>
      have hslash : Text.isLower '/' = false := by decide
      exact hslash
  | cons x xs => rfl

theorem kebabFrom_append_slash (b : Char) (xs ys : List Char) :
    kebabFrom b (xs ++ '/' :: ys) = kebabFrom b xs ++ '/' :: kebab ys := by
  induction xs generalizing b with
  | nil =>
      have hlower : Text.lowerChar '/' = ['/'] := by decide
      have hbegins : beginsWord b '/' ys = false := beginsWord_eq_false (by decide) b ys
      rw [List.nil_append, kebabFrom, kebabFrom, hbegins, hlower, kebabFrom_slash]
      rfl
  | cons c xs ih =>
      have hbegins : beginsWord b c (xs ++ '/' :: ys) = beginsWord b c xs := by
        rw [beginsWord, beginsWord, head?_append_slash]
      rw [List.cons_append, kebabFrom, hbegins, ih, kebabFrom, ← List.append_assoc]

theorem kebab_append_slash (xs ys : List Char) :
    kebab (xs ++ '/' :: ys) = kebab xs ++ '/' :: kebab ys := by
  rw [← kebabFrom_slash, kebabFrom_append_slash, kebabFrom_slash xs]

/-- A character of what is written is a hyphen or comes from one of the name. -/
theorem exists_of_mem_kebabFrom {d : Char} (h : d ∈ kebabFrom b xs) :
    d = '-' ∨ ∃ c ∈ xs, d ∈ Text.lowerChar c := by
  induction xs generalizing b with
  | nil => cases h
  | cons c xs ih =>
      rw [kebabFrom, List.mem_append, List.mem_append] at h
      rcases h with (hhyphen | hc) | hrest
      · split at hhyphen
        · exact .inl (List.mem_singleton.1 hhyphen)
        · cases hhyphen
      · exact .inr ⟨c, List.mem_cons_self, hc⟩
      · rcases ih hrest with hhyphen | ⟨x, hx, hd⟩
        · exact .inl hhyphen
        · exact .inr ⟨x, List.mem_cons_of_mem _ hx, hd⟩

theorem slash_not_mem_kebab (h : '/' ∉ xs) : '/' ∉ kebab xs := by
  intro hmem
  rw [← kebabFrom_slash] at hmem
  rcases exists_of_mem_kebabFrom hmem with hhyphen | ⟨c, hc, hslash⟩
  · exact absurd hhyphen (by decide)
  · exact h (Text.eq_of_mem_lowerChar hslash (by decide) (by decide) ▸ hc)

theorem split_kebab (xs : List Char) :
    Text.split '/' (kebab xs) = (Text.split '/' xs).map kebab := by
  induction xs using Text.split_induction '/' with
  | last xs hxs =>
      rw [Text.split_of_not_mem (slash_not_mem_kebab hxs), Text.split_of_not_mem hxs,
        List.map_singleton]
  | piece xs ys hxs ih =>
      rw [kebab_append_slash, Text.split_append_cons_of_not_mem (slash_not_mem_kebab hxs), ih,
        Text.split_append_cons_of_not_mem hxs, List.map_cons]

/-- The steps of a written name are those of the name, each written. -/
theorem steps_kebabCase (s : String) :
    Path.steps (kebabCase s) = (Path.steps s).map kebabCase := by
  have hkebab (cs : List Char) : String.ofList (kebab cs) = kebabCase (String.ofList cs) := by
    rw [← String.toList_inj, toList_kebabCase, String.toList_ofList, String.toList_ofList]
  rw [Path.steps, toList_kebabCase, split_kebab, Path.steps, List.map_map, List.map_map]
  exact List.map_congr_left fun cs _ => hkebab cs

/-! ### Dots -/

/-- Characters without another lowercase are written as they are. -/
theorem kebabFrom_of_plain (h : ∀ x ∈ xs, Text.isUpper x = false ∧ Text.lowerChar x = [x])
    (b : Char) : kebabFrom b xs = xs := by
  induction xs generalizing b with
  | nil => rfl
  | cons c xs ih =>
      obtain ⟨⟨hupper, hlower⟩, hxs⟩ := List.forall_mem_cons.1 h
      rw [kebabFrom, beginsWord_eq_false hupper, hlower, ih hxs]
      rfl

theorem kebabFrom_dots (h : ∀ x ∈ xs, x = '.') (b : Char) : kebabFrom b xs = xs := by
  apply kebabFrom_of_plain
  intro x hx
  rw [h x hx]
  decide

theorem lowerChar_subset_kebabFrom (h : c ∈ xs) (b : Char) :
    Text.lowerChar c ⊆ kebabFrom b xs := by
  induction xs generalizing b with
  | nil => cases h
  | cons x xs ih =>
      rw [kebabFrom]
      rcases List.mem_cons.1 h with rfl | hrest
      · exact List.Subset.trans (List.subset_append_right _ _) (List.subset_append_left _ _)
      · exact List.Subset.trans (ih hrest x) (List.subset_append_right _ _)

/-- What is written as dots, or as nothing, is just that. -/
theorem kebabCase_eq_iff_of_dots {dots : String} (h : ∀ x ∈ dots.toList, x = '.') :
    kebabCase s = dots ↔ s = dots := by
  rw [← String.toList_inj, ← String.toList_inj, toList_kebabCase, ← kebabFrom_slash]
  constructor
  · intro hkebab
    have hs : ∀ c ∈ s.toList, c = '.' := by
      intro c hc
      have hsubset := lowerChar_subset_kebabFrom hc '/'
      obtain ⟨d, hd⟩ := List.exists_mem_of_ne_nil _ (Text.lowerChar_ne_nil c)
      obtain rfl : d = '.' := h d (hkebab ▸ hsubset hd)
      exact Text.eq_of_mem_lowerChar hd (by decide) (by decide)
    rwa [kebabFrom_dots hs] at hkebab
  · intro hs
    rw [hs, kebabFrom_dots h]

/-! ### Capitalized words -/

/-- A small letter or a digit. -/
def isInnerChar (c : Char) : Bool := Text.isAsciiLower c || Text.isAsciiDigit c

/-- A capital letter, and behind it at least one small letter or digit and nothing else. -/
def IsCapitalized (word : String) : Prop :=
  ∃ c d rest, word.toList = c :: d :: rest ∧ Text.isAsciiUpper c ∧
    ∀ x ∈ d :: rest, isInnerChar x

theorem lt_of_isInnerChar (h : isInnerChar c) : c.toNat < 128 := by
  simp only [isInnerChar, Text.isAsciiLower, Text.isAsciiDigit, Bool.or_eq_true, Bool.and_eq_true,
    decide_eq_true_eq, Char.le_def, UInt32.le_iff_toNat_le] at h
  rcases h with ⟨-, h⟩ | ⟨-, h⟩
  · exact Nat.lt_of_le_of_lt h (by decide)
  · exact Nat.lt_of_le_of_lt h (by decide)

theorem not_isAsciiUpper_of_isInnerChar (h : isInnerChar c) : Text.isAsciiUpper c = false := by
  rw [← Bool.not_eq_true]
  intro hupper
  have hrange := Text.le_toNat_of_isAsciiUpper hupper
  simp only [isInnerChar, Text.isAsciiLower, Text.isAsciiDigit, Bool.or_eq_true, Bool.and_eq_true,
    decide_eq_true_eq, Char.le_def, UInt32.le_iff_toNat_le] at h
  rcases h with ⟨h, -⟩ | ⟨-, h⟩
  · exact absurd (Nat.le_trans h hrange.2) (by decide)
  · exact absurd (Nat.le_trans hrange.1 h) (by decide)

theorem lowerChar_of_isInnerChar (h : isInnerChar c) : Text.lowerChar c = [c] := by
  rw [Text.lowerChar_of_lt (lt_of_isInnerChar h), not_isAsciiUpper_of_isInnerChar h]
  rfl

theorem isUpper_of_isInnerChar (h : isInnerChar c) : Text.isUpper c = false := by
  rw [Text.isUpper_of_lt (lt_of_isInnerChar h), not_isAsciiUpper_of_isInnerChar h]

theorem kebabFrom_append_of_isInnerChar (h : ∀ x ∈ xs, isInnerChar x) (b : Char) (ys : List Char) :
    kebabFrom b (xs ++ ys) = xs ++ kebabFrom (xs.getLastD b) ys := by
  induction xs generalizing b with
  | nil => rfl
  | cons c xs ih =>
      obtain ⟨hc, hxs⟩ := List.forall_mem_cons.1 h
      rw [List.cons_append, kebabFrom, beginsWord_eq_false (isUpper_of_isInnerChar hc),
        lowerChar_of_isInnerChar hc, ih hxs, List.getLastD_cons]
      rfl

theorem beginsWord_of_isInnerChar (hb : isInnerChar b) (hc : Text.isAsciiUpper c)
    (rest : List Char) : beginsWord b c rest = true := by
  have hupper : Text.isUpper c = true := by
    have hle := Text.le_toNat_of_isAsciiUpper hc
    rw [Text.isUpper_of_lt (by omega), hc]
  have hbefore : (Text.isLower b || Text.isAsciiDigit b) = true := by
    rwa [Text.isLower_of_lt (lt_of_isInnerChar hb)]
  rw [beginsWord, hupper, hbefore]
  rfl

theorem toList_lowerAscii {c : Char} {rest : List Char} (h : s.toList = c :: rest)
    (hc : Text.isAsciiUpper c) (hrest : ∀ x ∈ rest, isInnerChar x) :
    (Text.lowerAscii s).toList = Char.ofNat (c.toNat + 32) :: rest := by
  have hsame : rest.map (fun c => if Text.isAsciiUpper c then Char.ofNat (c.toNat + 32) else c) =
      rest := by
    rw [List.map_congr_left (g := id), List.map_id]
    intro x hx
    rw [not_isAsciiUpper_of_isInnerChar (hrest x hx)]
    rfl
  rw [Text.lowerAscii, String.toList_ofList, h, List.map_cons, if_pos hc, hsame]

theorem isInnerChar_getLastD (h : ∀ x ∈ c :: xs, isInnerChar x) :
    isInnerChar ((c :: xs).getLastD b) := by
  rw [List.getLastD_cons, ← List.getLast_eq_getLastD (List.cons_ne_nil c xs)]
  exact h _ (List.getLast_mem _)

/-- Behind a word each further word begins with a hyphen. -/
theorem kebabFrom_words {words : List String} (hb : isInnerChar b)
    (h : ∀ w ∈ words, IsCapitalized w) :
    kebabFrom b (String.join words).toList =
      words.flatMap fun w => '-' :: (Text.lowerAscii w).toList := by
  rw [String.toList_join]
  induction words generalizing b with
  | nil => rfl
  | cons w words ih =>
      obtain ⟨⟨c, d, rest, hw, hc, hrest⟩, hwords⟩ := List.forall_mem_cons.1 h
      have hle := Text.le_toNat_of_isAsciiUpper hc
      rw [List.flatMap_cons, List.flatMap_cons, hw, List.cons_append, kebabFrom,
        beginsWord_of_isInnerChar hb hc, Text.lowerChar_of_lt (by omega), if_pos hc,
        kebabFrom_append_of_isInnerChar hrest, ih (isInnerChar_getLastD hrest) hwords,
        toList_lowerAscii hw hc hrest]
      rfl

theorem intercalate_cons_eq {a : Char} (piece : List Char) (pieces : List (List Char)) :
    [a].intercalate (piece :: pieces) = piece ++ pieces.flatMap (a :: ·) := by
  induction pieces generalizing piece with
  | nil => simp
  | cons other pieces ih =>
      rw [List.intercalate_cons_cons, ih, List.flatMap_cons, List.append_assoc]
      rfl

/-- Capitalized words are written in lowercase and joined by hyphens. -/
theorem kebabCase_join {words : List String} (h : ∀ w ∈ words, IsCapitalized w) :
    kebabCase (String.join words) = String.intercalate "-" (words.map Text.lowerAscii) := by
  cases words with
  | nil => rfl
  | cons w words =>
      obtain ⟨⟨c, d, rest, hw, hc, hrest⟩, hwords⟩ := List.forall_mem_cons.1 h
      have hle := Text.le_toNat_of_isAsciiUpper hc
      have hbehind := kebabFrom_words (isInnerChar_getLastD (b := c) hrest) hwords
      have hhyphen : "-".toList = ['-'] := by simp
      rw [String.toList_join] at hbehind
      rw [← String.toList_inj, toList_kebabCase, String.toList_join, List.flatMap_cons, hw,
        List.cons_append, kebab, Text.lowerChar_of_lt (by omega), if_pos hc,
        kebabFrom_append_of_isInnerChar hrest, hbehind, String.toList_intercalate, hhyphen,
        List.map_cons, List.map_cons, intercalate_cons_eq, toList_lowerAscii hw hc hrest,
        List.map_map, List.flatMap_map]
      rfl

/-! ### Reading the words back -/

/-- The word with a capital letter for the small one at its beginning. -/
def capitalize (word : String) : String :=
  match word.toList with
  | [] => word
  | c :: rest => String.ofList (Char.ofNat (c.toNat - 32) :: rest)

theorem capitalize_lowerAscii {word : String} (h : IsCapitalized word) :
    capitalize (Text.lowerAscii word) = word := by
  obtain ⟨c, d, rest, hword, hc, hrest⟩ := h
  have hle := Text.le_toNat_of_isAsciiUpper hc
  have hsmall : (Char.ofNat (c.toNat + 32)).toNat = c.toNat + 32 :=
    (by decide : ∀ n < 128, (Char.ofNat n).toNat = n) _ (by omega)
  rw [capitalize, toList_lowerAscii hword hc hrest]
  dsimp only
  rw [hsmall, Nat.add_sub_cancel, Char.ofNat_toNat, ← hword, String.ofList_toList]

theorem hyphen_not_mem_lowerAscii {word : String} (h : IsCapitalized word) :
    '-' ∉ (Text.lowerAscii word).toList := by
  obtain ⟨c, d, rest, hword, hc, hrest⟩ := h
  have hle := Text.le_toNat_of_isAsciiUpper hc
  rw [toList_lowerAscii hword hc hrest, List.mem_cons, not_or]
  constructor
  · have hsmall : ∀ n < 128, 97 ≤ n → '-' ≠ Char.ofNat n := by decide
    exact hsmall _ (by omega) (by omega)
  · intro hmem
    exact absurd (hrest _ hmem) (by decide)

/-- Names made of capitalized words that are written alike are the same name. -/
theorem join_eq_of_kebabCase_eq {words others : List String} (h : ∀ w ∈ words, IsCapitalized w)
    (h' : ∀ w ∈ others, IsCapitalized w)
    (heq : kebabCase (String.join words) = kebabCase (String.join others)) :
    String.join words = String.join others := by
  have hempty {s : String} : kebabCase s = "" ↔ s = "" := kebabCase_eq_iff_of_dots (by simp)
  by_cases hwords : words = []
  · rw [hwords, String.join_nil] at heq ⊢
    exact (hempty.1 (heq.symm.trans (hempty.2 rfl))).symm
  by_cases hothers : others = []
  · rw [hothers, String.join_nil] at heq ⊢
    exact hempty.1 (heq.trans (hempty.2 rfl))
  have hsplit {words : List String} (h : ∀ w ∈ words, IsCapitalized w) (hne : words ≠ []) :
      Text.split '-' (kebabCase (String.join words)).toList =
        words.map fun w => (Text.lowerAscii w).toList := by
    have hhyphen : "-".toList = ['-'] := by simp
    rw [kebabCase_join h, String.toList_intercalate, hhyphen, List.map_map]
    apply Text.split_intercalate
    · exact mt List.map_eq_nil_iff.1 hne
    · exact List.forall_mem_map.2 fun w hw => hyphen_not_mem_lowerAscii (h w hw)
  have hback {words : List String} (h : ∀ w ∈ words, IsCapitalized w) :
      (words.map fun w => (Text.lowerAscii w).toList).map
        (fun cs => capitalize (String.ofList cs)) = words := by
    rw [List.map_map, List.map_congr_left (g := id), List.map_id]
    intro w hw
    rw [Function.comp_apply, String.ofList_toList, capitalize_lowerAscii (h w hw)]
    rfl
  have hpieces := congrArg (fun s : String => Text.split '-' s.toList) heq
  rw [hsplit h hwords, hsplit h' hothers] at hpieces
  rw [← hback h, ← hback h', hpieces]

end DocClaims
