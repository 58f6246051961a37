import DocClaims.Yaml.Writer
import DocClaims.Yaml.Token

/-!
# Characters of scalars

What the conditions of each style say about the characters of a text: outside
double quotes a break is a line feed or one of the two Unicode separators, and
the only gap is the space.
-/

namespace DocClaims
namespace Yaml

/-! ### Characters -/

theorem ne_return_of_isPrintable {c : Char} (h : isPrintable c) : c ≠ '\r' := by
  rintro rfl
  revert h
  decide

theorem ne_tab_of_isPrintable {c : Char} (h : isPrintable c) : c ≠ '\t' := by
  rintro rfl
  revert h
  decide

theorem isSilent_of_isPrintable {c : Char} (h : isPrintable c) (rest : List Char) :
    isSilent c rest = false := by
  simp [isSilent, ne_return_of_isPrintable h]

theorem isGap_of_isPrintable {c : Char} (h : isPrintable c) : isGap c = isSpace c := by
  simp [isGap, isSpace, ne_tab_of_isPrintable h]

theorem breakText_of_isPrintable {c : Char} (hc : isPrintable c) (hb : isBreak c) :
    breakText c = c := by
  unfold breakText
  split
  · rfl
  · next hnot =>
      simp only [isBreak, Bool.or_eq_true, beq_iff_eq] at hb
      simp only [Bool.or_eq_true, beq_iff_eq, not_or] at hnot
      rcases hb with (((rfl | rfl) | h) | h) | h
      · rfl
      · exact absurd hc (by decide)
      · simp [isPrintable, h] at hc
      · exact absurd h hnot.1
      · exact absurd h hnot.2

/-- Starts a token or goes on with a word: neither a break nor a space. -/
def isInk (c : Char) : Bool := isPrintable c && !isBreak c && !isSpace c

theorem isPrintable_of_isInk {c : Char} (h : isInk c) : isPrintable c := by
  simp_all [isInk]

theorem not_isBreak_of_isInk {c : Char} (h : isInk c) : isBreak c = false := by
  simp_all [isInk]

theorem not_isGap_of_isInk {c : Char} (h : isInk c) : isGap c = false := by
  rw [isGap_of_isPrintable (isPrintable_of_isInk h)]
  simp_all [isInk]

/-! ### Pairs of neighbours -/

theorem hasPair_cons {first second : Char → Bool} {c d : Char} {rest : List Char} :
    hasPair first second (c :: d :: rest) = false ↔
      ¬(first c ∧ second d) ∧ hasPair first second (d :: rest) = false := by
  cases h : first c && second d <;> simp_all [hasPair]

theorem hasPair_tail {first second : Char → Bool} {c : Char} {rest : List Char}
    (h : hasPair first second (c :: rest) = false) : hasPair first second rest = false := by
  cases rest with
  | nil => rfl
  | cons d rest => exact (hasPair_cons.1 h).2

/-- Behind a character of the first kind none of the second comes next. -/
theorem head_of_hasPair {first second : Char → Bool} {c : Char} {rest : List Char}
    (h : hasPair first second (c :: rest) = false) (hc : first c) :
    ∀ d ∈ rest.head?, second d = false := by
  cases rest with
  | nil => simp
  | cons d rest =>
      have hpair := (hasPair_cons.1 h).1
      simpa [hc] using hpair

/-! ### Styles -/

/-- A text that may be written outside double quotes. -/
structure Unescaped (cs : List Char) : Prop where
  isPrintable : ∀ c ∈ cs, isPrintable c
  noSpaceBeforeBreak : hasPair isSpace isBreak cs = false

theorem unescaped_of_needsEscapes {cs : List Char} (h : needsEscapes cs = false) :
    Unescaped cs := by
  simp only [needsEscapes, Bool.or_eq_false_iff, Bool.not_eq_false', List.all_eq_true] at h
  exact ⟨h.1, h.2⟩

/-- A text that may be written between single quotes. -/
structure SingleText (cs : List Char) : Prop where
  isPrintable : ∀ c ∈ cs, isPrintable c
  noFeed : '\n' ∉ cs
  noSpaceBeforeBreak : hasPair isSpace isBreak cs = false
  noSpaceBehindBreak : hasPair isBreak isSpace cs = false

theorem SingleText.tail {c : Char} {cs : List Char} (h : SingleText (c :: cs)) :
    SingleText cs where
  isPrintable d hd := h.isPrintable d (List.mem_cons_of_mem c hd)
  noFeed hfeed := h.noFeed (List.mem_cons_of_mem c hfeed)
  noSpaceBeforeBreak := hasPair_tail h.noSpaceBeforeBreak
  noSpaceBehindBreak := hasPair_tail h.noSpaceBehindBreak

structure PlainWord (cs : List Char) : Prop where
  ne_nil : cs ≠ []
  isPrintable : ∀ c ∈ cs, isPrintable c
  allowsPlain : allowsPlain cs

namespace PlainWord

variable {cs : List Char}

theorem not_isBreak (h : PlainWord cs) : ∀ c ∈ cs, isBreak c = false := by
  have hplain := h.allowsPlain
  simp only [Yaml.allowsPlain, Bool.and_eq_true, Bool.not_eq_true', List.any_eq_false] at hplain
  intro c hc
  simpa using hplain.1.2 c hc

theorem isInk_head (h : PlainWord cs) : ∀ c ∈ cs.head?, isInk c := by
  intro c hc
  have hmem := List.mem_of_mem_head? hc
  have hloose := h.allowsPlain
  simp only [Yaml.allowsPlain, hasLooseEnd, Bool.and_eq_true, Bool.not_eq_true',
    Bool.or_eq_false_iff] at hloose
  have hspace := hloose.1.1.1
  rw [Option.mem_def] at hc
  simp only [hc, Option.any_some, Bool.or_eq_false_iff] at hspace
  simp [isInk, h.isPrintable c hmem, hspace.1, hspace.2]

theorem not_isSpace_getLast (h : PlainWord cs) : ∀ c ∈ cs.getLast?, isSpace c = false := by
  intro c hc
  have hloose := h.allowsPlain
  simp only [Yaml.allowsPlain, hasLooseEnd, Bool.and_eq_true, Bool.not_eq_true',
    Bool.or_eq_false_iff] at hloose
  have hspace := hloose.1.1.2
  rw [Option.mem_def] at hc
  simp only [hc, Option.any_some, Bool.or_eq_false_iff] at hspace
  exact hspace.1

theorem not_hasIndicator (h : PlainWord cs) : hasIndicator cs = false := by
  have hplain := h.allowsPlain
  simp only [Yaml.allowsPlain, Bool.and_eq_true, Bool.not_eq_true'] at hplain
  exact hplain.2

end PlainWord

theorem style_cases (s : String) :
    (Style.ofText s = .plain ∧ PlainWord s.toList ∧ Plain.readsAsText s) ∨
      (Style.ofText s = .single ∧ SingleText s.toList) ∨
      Style.ofText s = .double ∨
      (Style.ofText s = .literal ∧ Unescaped s.toList ∧ s.toList ≠ [] ∧
        ∀ c ∈ s.toList.getLast?, isSpace c = false) := by
  unfold Style.ofText
  by_cases hlines : s.toList.contains '\n'
  · rw [if_pos hlines]
    split
    · exact .inr (.inr (.inl rfl))
    · next h =>
        simp only [Bool.or_eq_true, not_or, Bool.not_eq_true, Bool.not_eq_false'] at h
        refine .inr (.inr (.inr ⟨rfl, unescaped_of_needsEscapes h.1, ?_, ?_⟩))
        · intro hnil
          simp [hnil] at hlines
        · intro c hc
          have hliteral := h.2
          rw [Option.mem_def] at hc
          simpa [allowsLiteral, hc] using hliteral
  · rw [if_neg hlines]
    split
    · exact .inr (.inr (.inl rfl))
    · next h =>
        have hun := unescaped_of_needsEscapes (by simpa using h)
        split
        · next hplain =>
            simp only [Bool.and_eq_true] at hplain
            refine .inl ⟨rfl, ⟨?_, hun.isPrintable, hplain.2⟩, hplain.1⟩
            intro hnil
            have hempty : s = "" := by simpa using hnil
            rw [hempty] at hplain
            exact absurd hplain.1 (by decide)
        · split
          · next hsingle =>
              have hpair : hasPair isBreak isSpace s.toList = false := by
                simpa [allowsSingle] using hsingle
              exact .inr (.inl ⟨rfl, hun.isPrintable, by simpa using hlines,
                hun.noSpaceBeforeBreak, hpair⟩)
          · exact .inr (.inr (.inl rfl))

/-! ### Lines -/

@[simp] theorem spaces_zero : spaces 0 = [] := rfl

@[simp] theorem spaces_succ (n : Nat) : spaces (n + 1) = ' ' :: spaces n := rfl

/-- A token begins here, or the text is at its end. -/
structure TokenStart (rest : List Char) : Prop where
  isInk : ∀ c ∈ rest.head?, isInk c
  noComment : ∀ c ∈ rest.head?, c ≠ '#'

theorem tokenStart_cons {c : Char} {rest : List Char} (hc : isInk c) (hsign : c ≠ '#') :
    TokenStart (c :: rest) := by
  constructor
  · rintro d ⟨⟩
    exact hc
  · rintro d ⟨⟩
    exact hsign

/-- A text at the start of a line whose first token begins at the column. -/
structure LineStart (cs : List Char) (column : Nat) (rest : List Char) : Prop
    extends TokenStart rest where
  eq : cs = spaces column ++ rest

end Yaml
end DocClaims
