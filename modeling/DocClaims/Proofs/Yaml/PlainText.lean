import DocClaims.Proofs.Yaml.Characters

/-!
# Reading plain scalars

A word that may be written without quotes is read character by character as
itself. What ends it is a colon behind a key, or the start of a line that is not
indented as far.
-/

namespace DocClaims
namespace Yaml

def Gap.ofBlanks (blanks : List Char) : Gap := ⟨blanks, [], false, false⟩

@[simp] theorem Gap.ofBlanks_nil : Gap.ofBlanks [] = Gap.none := rfl

@[simp] theorem Gap.text_ofBlanks (blanks : List Char) :
    (Gap.ofBlanks blanks).text = blanks.reverse := rfl

@[simp] theorem Gap.text_none : Gap.none.text = [] := rfl

@[simp] theorem Gap.blank_ofBlanks (blanks : List Char) (c : Char) :
    (Gap.ofBlanks blanks).blank c = .ofBlanks (c :: blanks) := rfl

namespace Place

@[simp] theorem column_forward (p : Place) (n : Nat) : (p.forward n).column = p.column + n := rfl

@[simp] theorem index_forward (p : Place) (n : Nat) : (p.forward n).index = p.index + n := rfl

@[simp] theorem line_forward (p : Place) (n : Nat) : (p.forward n).line = p.line := rfl

@[simp] theorem column_next (p : Place) : p.next.column = p.column + 1 := rfl

theorem forward_next (p : Place) (n : Nat) : p.next.forward n = p.forward (n + 1) := by
  simp [next, forward, Nat.add_assoc, Nat.add_comm 1]

@[simp] theorem column_newLine (p : Place) : p.newLine.column = 0 := rfl

@[simp] theorem line_newLine (p : Place) : p.newLine.line = p.line + 1 := rfl

end Place

variable {indent : Nat} {start place : Place} {out blanks : List Char}

theorem plainFrom_ink {c : Char} {rest : List Char} (hc : isInk c)
    (hgap : blanks = [] ∨ (indent ≤ place.column ∧ 0 < place.column ∧ c ≠ '#'))
    (hends : ¬(c = ':' ∧ endsWord rest)) :
    plainFrom false indent start out (.ofBlanks blanks) place (c :: rest) =
      plainFrom false indent start (c :: (blanks ++ out)) .none place.next rest := by
  have hsilent := isSilent_of_isPrintable (isPrintable_of_isInk hc) rest
  have hbreak := not_isBreak_of_isInk hc
  have hgapc := not_isGap_of_isInk hc
  have hbehind : (!(Gap.ofBlanks blanks).isEmpty &&
      endsBehindGap false indent place c rest) = false := by
    rcases hgap with rfl | ⟨hindent, hcolumn, hsign⟩
    · rfl
    · have hnot : ¬place.column < indent := by omega
      have hpos : place.column ≠ 0 := by omega
      simp [endsBehindGap, hnot, hpos, hsign]
  have hat : endsAt false c rest = false := by
    cases hcolon : c == ':' <;> simp_all [endsAt]
  rw [plainFrom]
  simp only [hsilent, hbreak, hgapc, hbehind, hat, Bool.false_and, Bool.false_eq_true, if_false,
    Gap.text_ofBlanks, List.reverse_reverse]

theorem plainFrom_space (rest : List Char) :
    plainFrom false indent start out (.ofBlanks blanks) place (' ' :: rest) =
      plainFrom false indent start out (.ofBlanks (' ' :: blanks)) place.next rest := by
  rw [plainFrom]
  simp [isSilent, isBreak, isGap]

/-- What has been read of a scalar, in reverse, and the blanks behind it, once more
characters have come. -/
def absorb (out blanks : List Char) : List Char → List Char × List Char
  | [] => (out, blanks)
  | c :: cs => if c = ' ' then absorb out (c :: blanks) cs else absorb (c :: (blanks ++ out)) [] cs

theorem absorb_of_getLast {cs : List Char} (hlast : ∀ c ∈ cs.getLast?, isSpace c = false)
    (hblanks : cs = [] → blanks = []) :
    absorb out blanks cs = (cs.reverse ++ (blanks ++ out), []) := by
  induction cs generalizing out blanks with
  | nil => simp [absorb, hblanks rfl]
  | cons c cs ih =>
      cases cs with
      | nil =>
          have hc : c ≠ ' ' := by simpa [isSpace] using hlast c rfl
          simp [absorb, hc]
      | cons d cs =>
          have hrest : ∀ e ∈ (d :: cs).getLast?, isSpace e = false :=
            fun e he => hlast e (by simpa using he)
          unfold absorb
          split
          · rw [ih hrest (by simp)]
            simp
          · rw [ih hrest (by simp)]
            simp

/-- The rest of a word behind its character `before`. A gap is pending only
directly behind a space. -/
theorem plainFrom_append {before : Char} {cs : List Char} (tail : List Char)
    (hprintable : ∀ c ∈ cs, isPrintable c) (hbreak : ∀ c ∈ cs, isBreak c = false)
    (hindicator : hasInnerIndicator before cs = false)
    (hgap : blanks = [] ∨ isGapOrBreak before)
    (hindent : indent ≤ place.column) (hcolumn : 0 < place.column) :
    plainFrom false indent start out (.ofBlanks blanks) place (cs ++ tail) =
      plainFrom false indent start (absorb out blanks cs).1 (.ofBlanks (absorb out blanks cs).2)
        (place.forward cs.length) tail := by
  induction cs generalizing before out blanks place with
  | nil => rfl
  | cons c cs ih =>
      simp only [hasInnerIndicator, Bool.or_eq_false_iff] at hindicator
      obtain ⟨⟨hcolon, hsign⟩, hrest⟩ := hindicator
      have hlater : ∀ d ∈ cs, isPrintable d := fun d hd => hprintable d (by simp [hd])
      have hbreaks : ∀ d ∈ cs, isBreak d = false := fun d hd => hbreak d (by simp [hd])
      have hindent' : indent ≤ place.next.column := Nat.le_succ_of_le hindent
      have hcolumn' : 0 < place.next.column := Nat.succ_pos _
      rw [List.cons_append, List.length_cons, ← Place.forward_next]
      by_cases hspace : c = ' '
      · subst hspace
        rw [plainFrom_space, ih hlater hbreaks hrest (.inr rfl) hindent' hcolumn']
        rfl
      · have hink : isInk c := by simp [isInk, hprintable c, hbreak c, isSpace, hspace]
        have hsharp : blanks = [] ∨ (indent ≤ place.column ∧ 0 < place.column ∧ c ≠ '#') := by
          rcases hgap with hnil | hbefore
          · exact .inl hnil
          · exact .inr ⟨hindent, hcolumn, fun h => by simp [h, hbefore] at hsign⟩
        have hends : ¬(c = ':' ∧ endsWord (cs ++ tail)) := by
          rintro ⟨rfl, hword⟩
          cases cs with
          | nil => simp [endsWord] at hcolon
          | cons e cs => simp_all [endsWord]
        rw [plainFrom_ink hink hsharp hends, ← Gap.ofBlanks_nil,
          ih hlater hbreaks hrest (.inl rfl) hindent' hcolumn', absorb, if_neg hspace]

/-- A word is read as itself. Its first character may stand directly before the
column of the block, as that of a key does. -/
theorem plainFrom_word {cs : List Char} (h : PlainWord cs) (tail : List Char)
    (hindent : indent ≤ place.column + 1) :
    plainFrom false indent start [] .none place (cs ++ tail) =
      plainFrom false indent start cs.reverse .none (place.forward cs.length) tail := by
  cases cs with
  | nil => exact absurd rfl h.ne_nil
  | cons c cs =>
      have hindicator := h.not_hasIndicator
      simp only [hasIndicator, startsLikeIndicator, Bool.or_eq_false_iff] at hindicator
      have hends : ¬(c = ':' ∧ endsWord (cs ++ tail)) := by
        rintro ⟨rfl, hword⟩
        cases cs with
        | nil => simp [endsWord] at hindicator
        | cons e cs => simp_all [endsWord]
      have hlast : ∀ d ∈ cs.getLast?, isSpace d = false := by
        intro d hd
        apply h.not_isSpace_getLast d
        rw [Option.mem_def] at hd ⊢
        simp [List.getLast?_cons, hd]
      have hcolumn : 0 < place.next.column := Nat.succ_pos _
      rw [List.cons_append, ← Gap.ofBlanks_nil,
        plainFrom_ink (h.isInk_head c rfl) (.inl rfl) hends, ← Gap.ofBlanks_nil,
        plainFrom_append tail (fun d hd => h.isPrintable d (by simp [hd]))
          (fun d hd => h.not_isBreak d (by simp [hd])) hindicator.2 (.inl rfl) hindent hcolumn,
        absorb_of_getLast hlast (fun _ => rfl)]
      simp [Place.forward_next]

theorem plainFrom_key {cs : List Char} (h : PlainWord cs) {tail : List Char}
    (htail : endsWord tail) (hindent : indent ≤ place.column + 1) :
    plainFrom false indent start [] .none place (cs ++ ':' :: tail) =
      .ok ⟨cs, false, ⟨place.forward cs.length, ':' :: tail⟩⟩ := by
  rw [plainFrom_word h _ hindent, plainFrom]
  simp [isSilent, isBreak, isGap, endsAt, htail, Gap.isEmpty, Gap.none]

theorem plainFrom_spaces {gap : Gap} (hbroken : gap.broken) (n : Nat) (rest : List Char) :
    plainFrom false indent start out gap place (spaces n ++ rest) =
      plainFrom false indent start out gap (place.forward n) rest := by
  induction n generalizing place with
  | zero => rfl
  | succ n ih =>
      have hblank : gap.blank ' ' = gap := by simp [Gap.blank, hbroken]
      rw [spaces_succ, List.cons_append, plainFrom]
      simp only [isSilent, isBreak, isGap, hblank]
      simpa [Place.forward_next] using @ih place.next

/-- The scalar of a value ends where a line begins that is not indented as far. -/
theorem plainFrom_line {cs : List Char} (h : PlainWord cs) {tail rest : List Char} {column : Nat}
    (htail : LineStart tail column rest) (hcolumn : column < indent)
    (hindent : indent ≤ place.column + 1) :
    ∃ p : Place, p.column = column ∧ p.line = place.line + 1 ∧
      plainFrom false indent start [] .none place (cs ++ '\n' :: tail) =
        .ok ⟨cs, true, ⟨p, rest⟩⟩ := by
  refine ⟨(place.forward cs.length).newLine.forward column, by simp, by simp, ?_⟩
  have hbreak : plainFrom false indent start cs.reverse .none (place.forward cs.length)
      ('\n' :: tail) = plainFrom false indent start cs.reverse (Gap.none.newLine '\n')
        (place.forward cs.length).newLine tail := by
    rw [plainFrom]
    simp [isSilent, isBreak]
  rw [plainFrom_word h _ hindent, hbreak, htail.eq, plainFrom_spaces rfl]
  cases rest with
  | nil => simp [plainFrom, Gap.newLine]
  | cons c rest =>
      have hc := htail.isInk c rfl
      have hsilent := isSilent_of_isPrintable (isPrintable_of_isInk hc) rest
      rw [plainFrom]
      simp [hsilent, not_isBreak_of_isInk hc, not_isGap_of_isInk hc, endsBehindGap, hcolumn,
        Gap.newLine, Gap.isEmpty, Gap.none]

end Yaml
end DocClaims
