import DocClaims.Proofs.Yaml.PlainText

/-!
# Reading quoted scalars

What is written between single or double quotes is read back as the text that
was written, up to the closing quote.
-/

namespace DocClaims
namespace Yaml

variable {indent : Nat} {start place : Place} {out blanks : List Char}

theorem indented_nil (write : Char → List Char) (fresh : Bool) :
    indented indent write fresh [] = [] := rfl

theorem indented_cons (write : Char → List Char) (fresh : Bool) (c : Char) (cs : List Char) :
    indented indent write fresh (c :: cs) =
      (if isBreak c then [c] else (if fresh then spaces indent else []) ++ write c) ++
        indented indent write (isBreak c) cs := rfl

/-! ### Single quotes -/

def Gap.ofBreaks (breaks : List Char) : Gap := ⟨[], breaks, true, false⟩

theorem Gap.text_ofBreaks {breaks : List Char} (h : '\n' ∉ breaks) :
    (Gap.ofBreaks breaks).text = breaks.reverse := by
  have hmem : '\n' ∉ breaks.reverse := by simpa using h
  have hfolded : Gap.folded breaks.reverse = breaks.reverse := by
    unfold Gap.folded
    split
    · next heq => simp [heq] at hmem
    · next heq => simp [heq] at hmem
    · rfl
  simp [Gap.text, Gap.ofBreaks, hfolded]

theorem singleFrom_spaces {gap : Gap} (hbroken : gap.broken) (n : Nat) (rest : List Char) :
    singleFrom start out gap false place (spaces n ++ rest) =
      singleFrom start out gap false (place.forward n) rest := by
  induction n generalizing place with
  | zero => rfl
  | succ n ih =>
      have hblank : gap.blank ' ' = gap := by simp [Gap.blank, hbroken]
      rw [spaces_succ, List.cons_append, singleFrom]
      simp only [isSilent, isBreak, isGap, hblank]
      simpa [Place.forward_next] using @ih place.next

theorem singleFrom_ink {gap : Gap} {c : Char} {rest : List Char} (hc : isInk c)
    (hcolumn : 0 < place.column) :
    ∃ p : Place, p.line = place.line ∧ 0 < p.column ∧
      singleFrom start out gap false place (doubleQuote c ++ rest) =
        singleFrom start (c :: (gap.text.reverse ++ out)) .none false p rest := by
  have hpos : place.column ≠ 0 := by omega
  unfold doubleQuote
  split
  · next hquote =>
      obtain rfl : c = '\'' := by simpa using hquote
      refine ⟨place.next.next, rfl, Nat.succ_pos _, ?_⟩
      have hfirst : singleFrom start out gap false place ('\'' :: '\'' :: rest) =
          singleFrom start (gap.text.reverse ++ out) .none true place.next ('\'' :: rest) := by
        rw [singleFrom]
        simp [isSilent, isBreak, isGap, hpos]
      have hsecond : singleFrom start (gap.text.reverse ++ out) .none true place.next
          ('\'' :: rest) = singleFrom start ('\'' :: (gap.text.reverse ++ out)) .none false
            place.next.next rest := by
        rw [singleFrom]
        simp
      exact hfirst.trans hsecond
  · next hquote =>
      have hne : c ≠ '\'' := by simpa using hquote
      have hsilent := isSilent_of_isPrintable (isPrintable_of_isInk hc) rest
      refine ⟨place.next, rfl, Nat.succ_pos _, ?_⟩
      rw [List.singleton_append, singleFrom]
      simp [hsilent, not_isBreak_of_isInk hc, not_isGap_of_isInk hc, hpos, hne]

theorem singleFrom_close {gap : Gap} {tail : List Char} (htail : ∀ c ∈ tail.head?, c ≠ '\'') :
    singleFrom start out gap false place ('\'' :: tail) =
      .ok (out.reverse ++ gap.text, ⟨place.next, tail⟩) := by
  have hquote : singleFrom start out gap false place ('\'' :: tail) =
      singleFrom start (gap.text.reverse ++ out) .none true place.next tail := by
    rw [singleFrom]
    simp [isSilent, isBreak, isGap, atDocumentMark]
  rw [hquote]
  cases tail with
  | nil => simp [singleFrom]
  | cons c tail =>
      rw [singleFrom]
      simp [htail c rfl]

/-- What the gap before the next character may be: blanks within a line, or breaks
at the start of one. -/
inductive GapBefore : Bool → Gap → List Char → Prop
  | inLine {blanks cs : List Char} (h : blanks = [] ∨ ∀ c ∈ cs.head?, isBreak c = false) :
      GapBefore false (.ofBlanks blanks) cs
  | atLine {breaks cs : List Char} (hfeeds : '\n' ∉ breaks)
      (hnext : ∀ c ∈ cs.head?, isSpace c = false) : GapBefore true (.ofBreaks breaks) cs

/-- What is written from a character of the text on: the text, the closing quote
and what comes behind. -/
def singleRest (indent : Nat) (fresh : Bool) (cs tail : List Char) : List Char :=
  indented indent doubleQuote fresh cs ++
    ((if cs.getLast?.elim fresh isBreak then spaces indent else []) ++ '\'' :: tail)

theorem singleRest_cons (fresh : Bool) (c : Char) (cs tail : List Char) :
    singleRest indent fresh (c :: cs) tail =
      (if isBreak c then [c] else (if fresh then spaces indent else []) ++ doubleQuote c) ++
        singleRest indent (isBreak c) cs tail := by
  have hlast : (c :: cs).getLast?.elim fresh isBreak = cs.getLast?.elim (isBreak c) isBreak := by
    cases cs with
    | nil => rfl
    | cons d cs => simp [List.getLast?_cons]
  rw [singleRest, singleRest, indented_cons, hlast, List.append_assoc]

theorem GapBefore.newLine {fresh : Bool} {gap : Gap} {c : Char} {cs : List Char}
    (hgap : GapBefore fresh gap (c :: cs)) (hp : isPrintable c) (hb : isBreak c)
    (hfeed : c ≠ '\n') :
    ∃ breaks, '\n' ∉ breaks ∧ gap.newLine c = .ofBreaks breaks ∧
      breaks.reverse = gap.text ++ [c] := by
  have htext := breakText_of_isPrintable hp hb
  cases hgap with
  | @inLine blanks _ h =>
      obtain rfl : blanks = [] := by
        rcases h with h | h
        · exact h
        · simp [hb] at h
      exact ⟨[c], by simpa using hfeed.symm, by simp [Gap.newLine, htext, Gap.none, Gap.ofBreaks],
        rfl⟩
  | @atLine breaks _ h _ =>
      exact ⟨c :: breaks, by simp [hfeed.symm, h], by simp [Gap.newLine, htext, Gap.ofBreaks],
        by simp [Gap.text_ofBreaks h]⟩

/-- The rest of a text between single quotes. -/
theorem GapBefore.singleFrom_indent {fresh : Bool} {gap : Gap} {cs : List Char}
    (hgap : GapBefore fresh gap cs) (hindent : 0 < indent)
    (hcolumn : fresh = false → 0 < place.column) (out : List Char) :
    ∃ p : Place, p.line = place.line ∧ 0 < p.column ∧
      ∀ rest, singleFrom start out gap false place
          ((if fresh = true then spaces indent else []) ++ rest) =
        singleFrom start out gap false p rest := by
  cases hgap with
  | inLine _ => exact ⟨place, rfl, hcolumn rfl, fun rest => rfl⟩
  | atLine _ _ =>
      have hpos : 0 < place.column + indent := by omega
      exact ⟨place.forward indent, rfl, hpos, fun rest => singleFrom_spaces rfl _ _⟩

theorem singleFrom_singleRest {fresh : Bool} {gap : Gap} {cs tail : List Char} (place : Place)
    (out : List Char) (hindent : 0 < indent) (hcs : SingleText cs) (hgap : GapBefore fresh gap cs)
    (hcolumn : fresh = false → 0 < place.column) (htail : ∀ c ∈ tail.head?, c ≠ '\'') :
    ∃ p : Place, place.line ≤ p.line ∧
      singleFrom start out gap false place (singleRest indent fresh cs tail) =
        .ok (out.reverse ++ gap.text ++ cs, ⟨p, tail⟩) := by
  induction cs generalizing fresh gap place out with
  | nil =>
      cases hgap with
      | @inLine blanks _ _ =>
          refine ⟨place.next, Nat.le_refl _, ?_⟩
          rw [List.append_nil]
          exact singleFrom_close htail
      | atLine hfeeds _ =>
          refine ⟨(place.forward indent).next, Nat.le_refl _, ?_⟩
          rw [singleRest, indented_nil, List.nil_append, List.getLast?_nil, Option.elim_none,
            if_pos rfl, singleFrom_spaces rfl, singleFrom_close htail, List.append_nil]
  | cons c cs ih =>
      have hp := hcs.isPrintable c (by simp)
      rw [singleRest_cons]
      cases hb : isBreak c with
      | true =>
          have hfeed : c ≠ '\n' := fun h => hcs.noFeed (by simp [h])
          obtain ⟨breaks, hnofeed, hnew, htexts⟩ := hgap.newLine hp hb hfeed
          have hgap' : GapBefore true (.ofBreaks breaks) cs :=
            .atLine hnofeed (head_of_hasPair hcs.noSpaceBehindBreak hb)
          obtain ⟨p, hline, hrun⟩ := ih place.newLine out hcs.tail hgap' (by simp)
          refine ⟨p, by simp at hline; omega, ?_⟩
          rw [if_pos rfl, List.singleton_append, singleFrom]
          simp only [isSilent_of_isPrintable hp, hb, hnew, Bool.false_eq_true, if_false, if_true]
          rw [hrun, Gap.text_ofBreaks hnofeed, htexts]
          simp
      | false =>
          rw [if_neg Bool.false_ne_true]
          by_cases hspace : c = ' '
          · -- a space is pending; it cannot begin a line
            subst hspace
            cases hgap with
            | atLine _ hnext => simp [isSpace] at hnext
            | @inLine blanks _ _ =>
                have hgap' : GapBefore false (.ofBlanks (' ' :: blanks)) cs :=
                  .inLine (.inr (head_of_hasPair hcs.noSpaceBeforeBreak rfl))
                obtain ⟨p, hline, hrun⟩ :=
                  ih place.next out hcs.tail hgap' (fun _ => Nat.succ_pos _)
                refine ⟨p, hline, ?_⟩
                rw [if_neg Bool.false_ne_true, show doubleQuote ' ' = [' '] from rfl,
                  List.nil_append, List.singleton_append, singleFrom]
                simp only [isSilent, isBreak, isGap, Gap.blank_ofBlanks]
                simpa using hrun
          · have hink : isInk c := by simp [isInk, hp, hb, isSpace, hspace]
            have hgap' : GapBefore false Gap.none cs := .inLine (.inl rfl)
            obtain ⟨q, hqline, hqpos, hskip⟩ :=
              @GapBefore.singleFrom_indent indent start place fresh gap _ hgap hindent hcolumn out
            obtain ⟨r, hrline, hrpos, hread⟩ := singleFrom_ink hink hqpos
            obtain ⟨p, hline, hrun⟩ :=
              ih r (c :: (gap.text.reverse ++ out)) hcs.tail hgap' (fun _ => hrpos)
            refine ⟨p, by omega, ?_⟩
            rw [List.append_assoc, hskip, hread, hrun]
            simp

theorem singleQuoted_append (cs tail : List Char) :
    singleQuoted indent cs ++ tail = '\'' :: singleRest indent false cs tail := by
  have hlast : cs.getLast?.any isBreak = cs.getLast?.elim false isBreak := by
    cases cs.getLast? <;> rfl
  simp [singleQuoted, singleRest, hlast]

/-- Behind the opening quote a text between single quotes is read back. -/
theorem singleFrom_singleQuoted {cs tail : List Char} (hindent : 0 < indent) (hcs : SingleText cs)
    (hcolumn : 0 < place.column) (htail : ∀ c ∈ tail.head?, c ≠ '\'') :
    ∃ p : Place, place.line ≤ p.line ∧
      singleFrom start [] .none false place (singleRest indent false cs tail) =
        .ok (cs, ⟨p, tail⟩) :=
  singleFrom_singleRest place [] hindent hcs (.inLine (.inl rfl)) (fun _ => hcolumn) htail

/-! ### Double quotes -/

theorem digitValue_upperHexDigit {n : Nat} (h : n < 16) :
    Number.digitValue (upperHexDigit n) = n := by
  revert n
  decide

theorem length_upperHex (places n : Nat) : (upperHex places n).length = places := by
  induction places generalizing n with
  | zero => rfl
  | succ places ih => simp [upperHex, ih]

theorem digitValue_lt_of_mem_upperHex {places n : Nat} {c : Char} (h : c ∈ upperHex places n) :
    Number.digitValue c < 16 := by
  induction places generalizing n with
  | zero => simp [upperHex] at h
  | succ places ih =>
      rcases List.mem_append.1 h with h | h
      · exact ih h
      · have hlt : n % 16 < 16 := Nat.mod_lt _ (by decide)
        rw [List.mem_singleton.1 h, digitValue_upperHexDigit hlt]
        exact hlt

def hexValueFrom (value : Nat) (ds : List Char) : Nat :=
  ds.foldl (fun v d => v * 16 + Number.digitValue d) value

theorem hexValueFrom_upperHex {places n : Nat} (h : n < Nat.pow 16 places) :
    hexValueFrom 0 (upperHex places n) = n := by
  induction places generalizing n with
  | zero =>
      have hzero : n = 0 := by simpa using h
      simp [upperHex, hexValueFrom, hzero]
  | succ places ih =>
      have hlt : n % 16 < 16 := Nat.mod_lt _ (by decide)
      have hdiv : n / 16 < Nat.pow 16 places := by
        rw [Nat.div_lt_iff_lt_mul (by decide)]
        exact h
      rw [upperHex, hexValueFrom, List.foldl_append]
      change (fun v => v * 16 + _) (hexValueFrom 0 (upperHex places (n / 16))) = n
      rw [ih hdiv]
      simp [digitValue_upperHexDigit hlt]
      omega

theorem doubleFrom_digits {ds rest : List Char} {places value : Nat} {p : Place}
    (hds : ∀ d ∈ ds, Number.digitValue d < 16) (hplaces : ds.length < places) :
    doubleFrom start out .none (.hex places value p) place (ds ++ rest) =
      doubleFrom start out .none (.hex (places - ds.length) (hexValueFrom value ds) p)
        (place.forward ds.length) rest := by
  induction ds generalizing places value place with
  | nil => rfl
  | cons d ds ih =>
      have hd : ¬16 ≤ Number.digitValue d := by
        have hlt := hds d (by simp)
        omega
      have hmore : 1 < places := by
        simp only [List.length_cons] at hplaces
        omega
      rw [List.cons_append, doubleFrom]
      simp only [hd, hmore, if_false, if_true]
      rw [ih (fun e he => hds e (by simp [he])) (by simp at hplaces; omega), Place.forward_next]
      simp [hexValueFrom, Nat.sub_sub, Nat.add_comm 1]

theorem isCodePoint_toNat (c : Char) : isCodePoint c.toNat := by
  have h := c.valid
  simp only [UInt32.isValidChar, Nat.isValidChar] at h
  simp only [isCodePoint, Char.toNat, Bool.or_eq_true, Bool.and_eq_true, decide_eq_true_eq]
  exact h

theorem hexValueFrom_upperHex_succ (places n : Nat) :
    hexValueFrom 0 (upperHex (places + 1) n) =
      hexValueFrom 0 (upperHex places (n / 16)) * 16 +
        Number.digitValue (upperHexDigit (n % 16)) := by
  rw [upperHex, hexValueFrom, List.foldl_append]
  rfl

theorem doubleFrom_upperHex {c : Char} {places : Nat} {rest : List Char} {p : Place}
    (h : c.toNat < Nat.pow 16 (places + 1)) :
    doubleFrom start out .none (.hex (places + 1) 0 p) place
        (upperHex (places + 1) c.toNat ++ rest) =
      doubleFrom start (c :: out) .none .none (place.forward (places + 1)) rest := by
  have hlast : Number.digitValue (upperHexDigit (c.toNat % 16)) = c.toNat % 16 :=
    digitValue_upperHexDigit (Nat.mod_lt _ (by decide))
  have hnot : ¬16 ≤ Number.digitValue (upperHexDigit (c.toNat % 16)) := by
    rw [hlast]
    omega
  have hsum : hexValueFrom 0 (upperHex places (c.toNat / 16)) * 16 +
      Number.digitValue (upperHexDigit (c.toNat % 16)) = c.toNat := by
    rw [← hexValueFrom_upperHex_succ, hexValueFrom_upperHex h]
  rw [upperHex, List.append_assoc, doubleFrom_digits (fun d => digitValue_lt_of_mem_upperHex)
    (by simp [length_upperHex]), length_upperHex, Nat.add_sub_cancel_left, List.singleton_append,
    doubleFrom]
  simp only [hnot, hsum, if_false, Nat.lt_irrefl, isCodePoint_toNat, if_true, Char.ofNat_toNat]
  rfl

theorem doubleFrom_backslash (rest : List Char) (hcolumn : 0 < place.column) :
    doubleFrom start out (.ofBlanks blanks) .none place ('\\' :: rest) =
      doubleFrom start (blanks ++ out) .none (.backslash place) place.next rest := by
  have hpos : place.column ≠ 0 := by omega
  rw [doubleFrom]
  simp [isSilent, isBreak, isGap, hpos]

theorem doubleFrom_hexLetter {letter : Char} {places : Nat} {rest : List Char}
    (hletter : (letter, places + 1) ∈ [('x', 2), ('u', 4), ('U', 8)]) (hcolumn : 0 < place.column) :
    doubleFrom start out (.ofBlanks blanks) .none place ('\\' :: letter :: rest) =
      doubleFrom start (blanks ++ out) .none (.hex (places + 1) 0 place.next.next)
        place.next.next rest := by
  rw [doubleFrom_backslash _ hcolumn, doubleFrom]
  simp only [List.mem_cons, Prod.mk.injEq, List.not_mem_nil, or_false] at hletter
  rcases hletter with ⟨rfl, h⟩ | ⟨rfl, h⟩ | ⟨rfl, h⟩
  all_goals
    obtain rfl : places = _ := Nat.succ.inj h
    rfl

theorem escapedChars_of_mem_escapeLetters :
    ∀ e ∈ escapeLetters,
      e.2 ≠ '\r' ∧ isBreak e.2 = false ∧ escapedChars.lookup e.2 = some e.1 := by
  decide

theorem doubleFrom_letter {letter : Char} {n : Nat} {rest : List Char}
    (hletter : (n, letter) ∈ escapeLetters) (hcolumn : 0 < place.column) :
    doubleFrom start out (.ofBlanks blanks) .none place ('\\' :: letter :: rest) =
      doubleFrom start (Char.ofNat n :: (blanks ++ out)) .none .none place.next.next rest := by
  have hknown : letter ≠ '\r' ∧ isBreak letter = false ∧ escapedChars.lookup letter = some n :=
    escapedChars_of_mem_escapeLetters _ hletter
  rw [doubleFrom_backslash _ hcolumn, doubleFrom]
  simp [isSilent, hknown]

theorem doubleFrom_hex {c letter : Char} {places : Nat} {rest : List Char}
    (hletter : (letter, places + 1) ∈ [('x', 2), ('u', 4), ('U', 8)])
    (hc : c.toNat < Nat.pow 16 (places + 1)) (hcolumn : 0 < place.column) :
    ∃ p : Place, p.line = place.line ∧ 0 < p.column ∧
      doubleFrom start out (.ofBlanks blanks) .none place
          ('\\' :: letter :: (upperHex (places + 1) c.toNat ++ rest)) =
        doubleFrom start (c :: (blanks ++ out)) .none .none p rest := by
  refine ⟨place.next.next.forward (places + 1), rfl, Nat.succ_pos _, ?_⟩
  rw [doubleFrom_hexLetter hletter hcolumn, doubleFrom_upperHex hc]

theorem doubleFrom_escape {c : Char} (rest : List Char) (hspace : c ≠ ' ')
    (hcolumn : 0 < place.column) :
    ∃ p : Place, p.line = place.line ∧ 0 < p.column ∧
      doubleFrom start out (.ofBlanks blanks) .none place (escape c ++ rest) =
        doubleFrom start (c :: (blanks ++ out)) .none .none p rest := by
  have hpos : place.column ≠ 0 := by omega
  unfold escape
  split
  · dsimp only
    split
    · next letter hlookup =>
        have hmem : (c.toNat, letter) ∈ escapeLetters := by
          obtain ⟨before, after, heq, -⟩ := List.lookup_eq_some_iff.1 hlookup
          simp [heq]
        refine ⟨place.next.next, rfl, Nat.succ_pos _, ?_⟩
        rw [List.cons_append, List.singleton_append, doubleFrom_letter hmem hcolumn,
          Char.ofNat_toNat]
    · split
      · next hlt => exact doubleFrom_hex (by decide : ('x', 1 + 1) ∈ _) hlt hcolumn
      · split
        · next hlt => exact doubleFrom_hex (by decide : ('u', 3 + 1) ∈ _) hlt hcolumn
        · have hlt : c.toNat < Nat.pow 16 (7 + 1) :=
            Nat.lt_of_lt_of_le c.val.toNat_lt (by decide)
          exact doubleFrom_hex (by decide : ('U', 7 + 1) ∈ _) hlt hcolumn
  · next hplain =>
      simp only [Bool.or_eq_true, Bool.not_eq_true', not_or, Bool.not_eq_false,
        beq_iff_eq] at hplain
      obtain ⟨⟨⟨hp, hb⟩, hquote⟩, hback⟩ := hplain
      have hgap : isGap c = false := by simp [isGap_of_isPrintable hp, isSpace, hspace]
      refine ⟨place.next, rfl, Nat.succ_pos _, ?_⟩
      rw [List.singleton_append, doubleFrom]
      simp [isSilent_of_isPrintable hp, hb, hgap, hpos, hquote, hback]

/-- Behind the opening quote a text between double quotes is read back. -/
theorem doubleFrom_doubleQuoted (cs tail : List Char) (out blanks : List Char)
    (hcolumn : 0 < place.column) :
    ∃ p : Place, p.line = place.line ∧
      doubleFrom start out (.ofBlanks blanks) .none place (cs.flatMap escape ++ '"' :: tail) =
        .ok (out.reverse ++ blanks.reverse ++ cs, ⟨p, tail⟩) := by
  induction cs generalizing place out blanks with
  | nil =>
      have hpos : place.column ≠ 0 := by omega
      refine ⟨place.next, rfl, ?_⟩
      rw [List.flatMap_nil, List.nil_append, doubleFrom]
      simp [isSilent, isBreak, isGap, hpos]
  | cons c cs ih =>
      rw [List.flatMap_cons, List.append_assoc]
      by_cases hspace : c = ' '
      · subst hspace
        obtain ⟨p, hline, hrun⟩ := @ih place.next out (' ' :: blanks) (Nat.succ_pos _)
        refine ⟨p, hline, ?_⟩
        rw [show escape ' ' = [' '] by decide, List.singleton_append, doubleFrom]
        simpa [isSilent, isBreak, isGap] using hrun
      · obtain ⟨q, hqline, hqpos, hread⟩ := @doubleFrom_escape start place out blanks c
          (cs.flatMap escape ++ '"' :: tail) hspace hcolumn
        obtain ⟨p, hline, hrun⟩ := ih (c :: (blanks ++ out)) [] hqpos
        refine ⟨p, hline.trans hqline, ?_⟩
        rw [hread, ← Gap.ofBlanks_nil, hrun]
        simp

end Yaml
end DocClaims
