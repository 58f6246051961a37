import DocClaims.Proofs.TypePath.Words

/-!
# Hyphens in a written name

A name of letters and digits is written in lowercase, with a hyphen before each capital letter
that begins a word and nowhere else. So no hyphen comes first, last or behind another one, and
what was written has no capital letter left that could begin a word.
-/

namespace DocClaims

/-- A letter or a digit. -/
def isSegmentChar (c : Char) : Bool := Text.isAsciiLetter c || Text.isAsciiDigit c

/-- Between `front` and `behind` a capital letter begins a word: behind a small letter or a digit,
or behind a capital letter and before a small one. -/
def BeginsWord (front : List Char) (c : Char) (behind : List Char) : Prop :=
  Text.isAsciiUpper c ∧ ∃ b, front.getLast? = some b ∧
    (Text.isAsciiLower b ∨ Text.isAsciiDigit b ∨
      Text.isAsciiUpper b ∧ ∃ d, behind.head? = some d ∧ Text.isAsciiLower d)

variable {b c : Char} {xs ys : List Char} {s : String}

/-! ### Letters and digits -/

theorem of_forall_ascii {p : Char → Prop} (h : ∀ n < 128, p (Char.ofNat n)) (hc : c.toNat < 128) :
    p c := by
  simpa using h c.toNat hc

theorem lt_of_isSegmentChar (h : isSegmentChar c) : c.toNat < 128 := by
  rw [isSegmentChar, Text.isAsciiLetter, Bool.or_right_comm, Bool.or_eq_true] at h
  rcases h with hinner | hupper
  · exact lt_of_isInnerChar hinner
  · have hle := Text.le_toNat_of_isAsciiUpper hupper
    omega

/-- In lowercase, a letter or digit is one character, no hyphen, and stays what it is. -/
theorem lowerChar_of_isSegmentChar (h : isSegmentChar c) :
    Text.lowerChar c = [c.toLower] ∧ c.toLower ≠ '-' ∧ Text.isUpper c.toLower = false ∧
      Text.lowerChar c.toLower = [c.toLower] :=
  of_forall_ascii (p := fun c => isSegmentChar c → Text.lowerChar c = [c.toLower] ∧
    c.toLower ≠ '-' ∧ Text.isUpper c.toLower = false ∧ Text.lowerChar c.toLower = [c.toLower])
    (by decide) (lt_of_isSegmentChar h) h

theorem toLower_ne_hyphen (h : isSegmentChar c) : c.toLower ≠ '-' :=
  (lowerChar_of_isSegmentChar h).2.1

theorem kebabFrom_cons (hc : isSegmentChar c) (b : Char) (ys : List Char) :
    kebabFrom b (c :: ys) =
      (if beginsWord b c ys then ['-'] else []) ++ c.toLower :: kebabFrom c ys := by
  rw [kebabFrom, (lowerChar_of_isSegmentChar hc).1, List.append_assoc, List.singleton_append]

theorem beginsWord_iff (hc : isSegmentChar c) (hb : b.toNat < 128)
    (hys : ∀ y ∈ ys, isSegmentChar y) :
    beginsWord b c ys = true ↔ Text.isAsciiUpper c ∧
      (Text.isAsciiLower b ∨ Text.isAsciiDigit b ∨
        Text.isAsciiUpper b ∧ ∃ d, ys.head? = some d ∧ Text.isAsciiLower d) := by
  have hnext : ys.head?.any Text.isLower = true ↔
      ∃ d, ys.head? = some d ∧ Text.isAsciiLower d := by
    cases ys with
    | nil => simp
    | cons d ys =>
        have hd := lt_of_isSegmentChar (hys d List.mem_cons_self)
        simp [Text.isLower_of_lt hd]
  rw [beginsWord, Text.isUpper_of_lt (lt_of_isSegmentChar hc), Text.isUpper_of_lt hb,
    Text.isLower_of_lt hb, Bool.and_eq_true, Bool.or_eq_true, Bool.or_eq_true, Bool.and_eq_true,
    hnext, or_assoc]

theorem beginsWord_getLastD_iff (hxs : ∀ x ∈ xs, isSegmentChar x) (hc : isSegmentChar c)
    (hys : ∀ y ∈ ys, isSegmentChar y) :
    beginsWord (xs.getLastD '/') c ys = true ↔ BeginsWord xs c ys := by
  rw [BeginsWord]
  cases hlast : xs.getLast? with
  | none =>
      rw [List.getLastD_eq_getLast?, hlast, Option.getD_none, beginsWord_slash]
      simp
  | some b =>
      have hb := lt_of_isSegmentChar (hxs b (List.mem_of_getLast? hlast))
      rw [List.getLastD_eq_getLast?, hlast, Option.getD_some, beginsWord_iff hc hb hys]
      simp

/-! ### What is written for letters and digits -/

section Written

variable (h : ∀ c ∈ xs, isSegmentChar c)
include h

theorem filter_kebabFrom (b : Char) :
    (kebabFrom b xs).filter (· ≠ '-') = xs.map Char.toLower := by
  induction xs generalizing b with
  | nil => rfl
  | cons c xs ih =>
      obtain ⟨hc, hxs⟩ := List.forall_mem_cons.1 h
      have hhyphen : (if beginsWord b c xs then ['-'] else []).filter (· ≠ '-') = [] := by
        split <;> rfl
      rw [kebabFrom_cons hc, List.filter_append, hhyphen, List.nil_append,
        List.filter_cons_of_pos (by simpa using toLower_ne_hyphen hc), ih hxs, List.map_cons]

theorem getLast?_kebabFrom (b : Char) :
    (kebabFrom b xs).getLast? = xs.getLast?.map Char.toLower := by
  induction xs generalizing b with
  | nil => rfl
  | cons c xs ih =>
      obtain ⟨hc, hxs⟩ := List.forall_mem_cons.1 h
      rw [kebabFrom_cons hc, List.getLast?_append, List.getLast?_cons, Option.some_or, ih hxs,
        List.getLast?_cons, Option.map_some]
      cases xs.getLast? <;> rfl

theorem head?_kebab : (kebab xs).head? = xs.head?.map Char.toLower := by
  cases xs with
  | nil => rfl
  | cons c xs =>
      obtain ⟨hc, -⟩ := List.forall_mem_cons.1 h
      rw [kebab, (lowerChar_of_isSegmentChar hc).1]
      rfl

theorem not_hyphens_infix_kebabFrom (b : Char) : ¬['-', '-'] <:+: kebabFrom b xs := by
  induction xs generalizing b with
  | nil => simp [kebabFrom]
  | cons c xs ih =>
      obtain ⟨hc, hxs⟩ := List.forall_mem_cons.1 h
      have hletter : ¬['-', '-'] <:+: c.toLower :: kebabFrom c xs := by
        rw [List.infix_cons_iff, List.cons_prefix_cons]
        rintro (⟨heq, -⟩ | hinfix)
        · exact toLower_ne_hyphen hc heq.symm
        · exact ih hxs c hinfix
      rw [kebabFrom_cons hc]
      split
      · rw [List.singleton_append, List.infix_cons_iff, List.cons_prefix_cons,
          List.cons_prefix_cons]
        rintro (⟨-, heq, -⟩ | hinfix)
        · exact toLower_ne_hyphen hc heq.symm
        · exact hletter hinfix
      · exact hletter

theorem kebabFrom_kebab (b : Char) : kebabFrom b (kebab xs) = kebab xs := by
  have hplain : ∀ d ∈ kebab xs, Text.isUpper d = false ∧ Text.lowerChar d = [d] := by
    intro d hd
    rw [← kebabFrom_slash] at hd
    rcases exists_of_mem_kebabFrom hd with rfl | ⟨c, hc, hlower⟩
    · decide
    · obtain ⟨heq, -, hupper, hsame⟩ := lowerChar_of_isSegmentChar (h c hc)
      rw [heq, List.mem_singleton] at hlower
      rw [hlower]
      exact ⟨hupper, hsame⟩
  exact kebabFrom_of_plain hplain b

end Written

/-- What is written for a letter stands behind what is written for those before it, with a hyphen
in between just where a word begins. -/
theorem exists_kebabFrom_eq (hxs : ∀ x ∈ xs, isSegmentChar x) (hc : isSegmentChar c)
    (hys : ∀ y ∈ ys, isSegmentChar y) (b : Char) :
    ∃ before after, kebabFrom b (xs ++ c :: ys) = before ++ c.toLower :: after ∧
      before.filter (· ≠ '-') = xs.map Char.toLower ∧
      after.filter (· ≠ '-') = ys.map Char.toLower ∧
      (before.getLast? = some '-' ↔ beginsWord (xs.getLastD b) c ys = true) := by
  induction xs generalizing b with
  | nil =>
      refine ⟨_, _, kebabFrom_cons hc b ys, ?_, filter_kebabFrom hys c, ?_⟩
      · split <;> rfl
      · rw [List.getLastD_nil]
        split <;> simp_all
  | cons x xs ih =>
      obtain ⟨hx, hxs⟩ := List.forall_mem_cons.1 hxs
      obtain ⟨before, after, heq, hbefore, hafter, hhyphen⟩ := ih hxs x
      refine ⟨(if beginsWord b x (xs ++ c :: ys) then ['-'] else []) ++ x.toLower :: before,
        after, ?_, ?_, hafter, ?_⟩
      · rw [List.cons_append, kebabFrom_cons hx, heq, List.append_assoc, List.cons_append]
      · rw [List.filter_append, List.filter_cons_of_pos (by simpa using toLower_ne_hyphen hx),
          hbefore, List.map_cons]
        split <;> rfl
      · rw [List.getLastD_cons, ← hhyphen, List.getLast?_append, List.getLast?_cons,
          Option.some_or]
        cases before.getLast? with
        | none => simpa using toLower_ne_hyphen hx
        | some d => simp

/-- A name of letters and digits is written in lowercase, with single hyphens between them, one
before each capital letter that begins a word. What was written is written again as it is. -/
theorem kebabCase_of_segmentChars (h : ∀ c ∈ s.toList, isSegmentChar c) :
    (kebabCase s).toList.filter (· ≠ '-') = s.toList.map Char.toLower ∧
    (kebabCase s).toList.head? ≠ some '-' ∧
    (kebabCase s).toList.getLast? ≠ some '-' ∧
    ¬['-', '-'] <:+: (kebabCase s).toList ∧
    (∀ front c behind, s.toList = front ++ c :: behind →
      ∃ before after, (kebabCase s).toList = before ++ c.toLower :: after ∧
        before.filter (· ≠ '-') = front.map Char.toLower ∧
        after.filter (· ≠ '-') = behind.map Char.toLower ∧
        (before.getLast? = some '-' ↔ BeginsWord front c behind)) ∧
    kebabCase (kebabCase s) = kebabCase s := by
  have hkebab : (kebabCase s).toList = kebabFrom '/' s.toList := by
    rw [toList_kebabCase, kebabFrom_slash]
  have hletter {l : List Char} (hl : ∀ c ∈ l, isSegmentChar c) {o : Option Char}
      (ho : ∀ c, o = some c → c ∈ l) : o.map Char.toLower ≠ some '-' := by
    rw [Ne, Option.map_eq_some_iff]
    rintro ⟨c, hc, hhyphen⟩
    exact toLower_ne_hyphen (hl c (ho c hc)) hhyphen
  refine ⟨?_, ?_, ?_, ?_, ?_, ?_⟩
  · rw [hkebab, filter_kebabFrom h]
  · rw [toList_kebabCase, head?_kebab h]
    exact hletter h fun c => List.mem_of_head?
  · rw [hkebab, getLast?_kebabFrom h]
    exact hletter h fun c => List.mem_of_getLast?
  · rw [hkebab]
    exact not_hyphens_infix_kebabFrom h '/'
  · intro front c behind hs
    rw [hs, List.forall_mem_append, List.forall_mem_cons] at h
    obtain ⟨hfront, hc, hbehind⟩ := h
    obtain ⟨before, after, heq, hbefore, hafter, hhyphen⟩ :=
      exists_kebabFrom_eq hfront hc hbehind '/'
    refine ⟨before, after, ?_, hbefore, hafter, ?_⟩
    · rw [hkebab, hs, heq]
    · rw [hhyphen, beginsWord_getLastD_iff hfront hc hbehind]
  · rw [← String.toList_inj, toList_kebabCase, ← kebabFrom_slash, toList_kebabCase,
      kebabFrom_kebab h]

/-- An acronym, a word and a digit: the capital letter of the word is the last of three. -/
theorem kebabCase_of_segmentChars_acronym :
    (∀ c ∈ "IOError2".toList, isSegmentChar c) ∧ BeginsWord ['I', 'O'] 'E' "rror2".toList ∧
      ∃ before after, (kebabCase "IOError2").toList = before ++ 'e' :: after ∧
        before.filter (· ≠ '-') = ['i', 'o'] ∧ before.getLast? = some '-' := by
  have hchars : ∀ c ∈ "IOError2".toList, isSegmentChar c := List.all_eq_true.1 (by decide)
  have hbegins : BeginsWord ['I', 'O'] 'E' "rror2".toList :=
    ⟨by decide, 'O', rfl, .inr (.inr ⟨by decide, 'r', rfl, by decide⟩)⟩
  obtain ⟨-, -, -, -, hplaces, -⟩ := kebabCase_of_segmentChars hchars
  obtain ⟨before, after, heq, hbefore, -, hhyphen⟩ :=
    hplaces ['I', 'O'] 'E' "rror2".toList rfl
  exact ⟨hchars, hbegins, before, after, heq, hbefore, hhyphen.2 hbegins⟩

end DocClaims
