import DocClaims.Proofs.Outcomes
import DocClaims.Proofs.Yaml.PlainText
import DocClaims.Proofs.Yaml.QuotedText

/-!
# Reading literal blocks

A text that is written on lines of its own is read back from them. The column of
its lines shows at the first line, or in the header when that line would begin
with a space or a break; the header also says what becomes of the final breaks.
-/

namespace DocClaims
namespace Yaml

variable {n : Nat} {start place : Place}

/-- Nothing of a block has been read; `column` is the one in its header. -/
def Block.unread (column : Nat) : Block := ⟨column, 0, [], [], [], false⟩

/-- A block after the first character of a line. -/
def Block.openLine (b : Block) (column : Nat) (c : Char) : Block :=
  let b := { b with indent := column }.startLine false c
  { b with out := c :: b.out }

/-- How far a block has been read: its characters so far, latest first, and
whether the last of them belongs to a line that is not at its end. -/
inductive BlockSoFar : Block → List Char → Bool → Prop
  | blankLines {b : Block} {breaks : List Char} (hout : b.out = []) (hlast : b.lastBreak = [])
      (hlines : b.blankLines = breaks) (hbreaks : ∀ c ∈ breaks, isBreak c) :
      BlockSoFar b breaks false
  | inLine {b : Block} {c : Char} {cs : List Char} (hout : b.out = c :: cs)
      (hlast : b.lastBreak = []) (hlines : b.blankLines = []) (hc : isBreak c = false) :
      BlockSoFar b (c :: cs) true
  | behindLine {b : Block} {c d : Char} {cs breaks : List Char} (hout : b.out = c :: cs)
      (hlast : b.lastBreak = [d]) (hlines : b.blankLines = breaks)
      (hbreaks : ∀ c ∈ breaks, isBreak c) (hd : isBreak d) (hc : isBreak c = false) :
      BlockSoFar b (breaks ++ d :: c :: cs) false

namespace BlockSoFar

variable {b : Block} {done : List Char} {inLine : Bool}

theorem eq (h : BlockSoFar b done inLine) : b.blankLines ++ (b.lastBreak ++ b.out) = done := by
  cases h with
  | blankLines hout hlast hlines _ => simp [hout, hlast, hlines]
  | inLine hout hlast hlines _ => simp [hout, hlast, hlines]
  | behindLine hout hlast hlines _ _ _ => simp [hout, hlast, hlines]

theorem blankLine (h : BlockSoFar b done false) {c : Char} (hc : isBreak c) (widest : Nat) :
    BlockSoFar { b with widest := widest, blankLines := c :: b.blankLines } (c :: done) false := by
  cases h with
  | blankLines hout hlast hlines hbreaks =>
      exact .blankLines hout hlast (by simp [hlines]) (by simpa [hc] using hbreaks)
  | @behindLine d e cs breaks hout hlast hlines hbreaks he hd =>
      rw [← List.cons_append]
      exact .behindLine hout hlast (by simp [hlines]) (by simpa [hc] using hbreaks) he hd

theorem endLine (h : BlockSoFar b done true) {d : Char} (hd : isBreak d) :
    BlockSoFar { b with lastBreak := [d] } (d :: done) false := by
  cases h with
  | @inLine c cs hout hlast hlines hc =>
      rw [← List.nil_append (d :: c :: cs)]
      exact .behindLine hout rfl hlines (by simp) hd hc

theorem char (h : BlockSoFar b done true) {c : Char} (hc : isBreak c = false) :
    BlockSoFar { b with out := c :: b.out } (c :: done) true := by
  cases h with
  | inLine hout hlast hlines _ => exact .inLine (by simp [hout]) hlast hlines hc

theorem openLine (h : BlockSoFar b done false) {c : Char} (hc : isBreak c = false)
    (column : Nat) : BlockSoFar (b.openLine column c) (c :: done) true := by
  have heq := h.eq
  exact .inLine (by simp [Block.openLine, Block.startLine, ← heq]) rfl rfl hc

end BlockSoFar

theorem blockFrom_spaces {b : Block} (k : Nat) (rest : List Char)
    (hk : b.indent = 0 ∨ place.column + k ≤ b.indent) :
    blockFrom false n start b false place (spaces k ++ rest) =
      blockFrom false n start b false (place.forward k) rest := by
  induction k generalizing place with
  | zero => rfl
  | succ k ih =>
      have hearly : b.indent = 0 ∨ place.column < b.indent := by omega
      have hk' : b.indent = 0 ∨ place.next.column + k ≤ b.indent := by
        rw [Place.column_next]
        omega
      rw [spaces_succ, List.cons_append, blockFrom]
      simp only [isSilent]
      simpa [hearly, Place.forward_next] using ih hk'

/-- The column of the lines is known, or the line that begins with `c` shows it. -/
def Block.AtColumn (b : Block) (column : Nat) (c : Char) : Prop :=
  b.indent = column ∨ (b.indent = 0 ∧ b.widest = 0 ∧ isInk c)

theorem blockFrom_openLine {b : Block} {c : Char} {rest : List Char}
    (hc : isPrintable c) (hbreak : isBreak c = false) (hb : b.AtColumn (n + 2) c)
    (hplace : place.column = n + 2) :
    blockFrom false (n + 1) start b false place (c :: rest) =
      blockFrom false (n + 1) start (b.openLine (n + 2) c) true place.next rest := by
  have hspace : (c == ' ' && (b.indent == 0 || decide (place.column < b.indent))) = false := by
    rcases hb with hb | ⟨-, -, hink⟩
    · simp [hb, hplace]
    · simp_all [isInk, isSpace]
  have htab : (c == '\t' && (b.indent == 0 || decide (place.column < b.indent))) = false := by
    simp [ne_tab_of_isPrintable hc]
  have hcolumn : b.column (n + 1) (max b.widest place.column) = n + 2 := by
    rcases hb with hb | ⟨hb, hwidest, -⟩
    · simp [Block.column, hb]
    · simp [Block.column, hb, hwidest, hplace]
  have hat : (place.column == n + 2) = true := by simp [hplace]
  rw [blockFrom]
  simp only [isSilent_of_isPrintable hc, hspace, htab, hbreak, hcolumn, hat, Bool.false_eq_true,
    if_false, if_true]
  rfl

theorem blockFrom_line {b : Block} {c : Char} (rest : List Char)
    (hc : isPrintable c) (hbreak : isBreak c = false) (hb : b.AtColumn (n + 2) c)
    (hplace : place.column = 0) :
    blockFrom false (n + 1) start b false place (spaces (n + 2) ++ c :: rest) =
      blockFrom false (n + 1) start (b.openLine (n + 2) c) true (place.forward (n + 2)).next
        rest := by
  have hspaces : b.indent = 0 ∨ place.column + (n + 2) ≤ b.indent := by
    rcases hb with hb | ⟨hb, -⟩
    · right
      omega
    · exact .inl hb
  rw [blockFrom_spaces (n + 2) _ hspaces, blockFrom_openLine hc hbreak hb]
  simp [hplace]

theorem blockFrom_indented {b : Block} {done cs : List Char} {inLine : Bool} (tail : List Char)
    (start place : Place) (hread : BlockSoFar b done inLine) (hb : b.indent = n + 2)
    (hplace : inLine = false → place.column = 0) (hprintable : ∀ c ∈ cs, isPrintable c) :
    ∃ (b' : Block) (inLine' : Bool) (p : Place), BlockSoFar b' (cs.reverse ++ done) inLine' ∧
      b'.indent = n + 2 ∧ (inLine' = false → p.column = 0) ∧
      blockFrom false (n + 1) start b inLine place
          (indented (n + 2) (fun c => [c]) (!inLine) cs ++ tail) =
        blockFrom false (n + 1) start b' inLine' p tail := by
  induction cs generalizing b done inLine place with
  | nil => exact ⟨b, inLine, place, hread, hb, hplace, rfl⟩
  | cons c cs ih =>
      have hc := hprintable c (by simp)
      have hcs : ∀ d ∈ cs, isPrintable d := fun d hd => hprintable d (by simp [hd])
      have hsilent := isSilent_of_isPrintable hc
      rw [indented_cons, List.reverse_cons, List.append_assoc, List.append_assoc,
        List.singleton_append]
      cases hbreak : isBreak c with
      | true =>
          have hcount := breakText_of_isPrintable hc hbreak
          rw [if_pos rfl, List.singleton_append, blockFrom]
          cases inLine with
          | true =>
              obtain ⟨b', inLine', p, hdone, hb', hp, hrun⟩ :=
                ih place.newLine (hread.endLine hbreak) hb (fun _ => rfl) hcs
              refine ⟨b', inLine', p, hdone, hb', hp, ?_⟩
              simpa [hsilent, hbreak, hcount] using hrun
          | false =>
              have hspace : c ≠ ' ' := by
                rintro rfl
                revert hbreak
                decide
              obtain ⟨b', inLine', p, hdone, hb', hp, hrun⟩ :=
                ih place.newLine (hread.blankLine hbreak (max b.widest place.column)) hb
                  (fun _ => rfl) hcs
              refine ⟨b', inLine', p, hdone, hb', hp, ?_⟩
              simpa [hsilent, hbreak, hcount, hspace, ne_tab_of_isPrintable hc] using hrun
      | false =>
          rw [if_neg Bool.false_ne_true]
          cases inLine with
          | true =>
              obtain ⟨b', inLine', p, hdone, hb', hp, hrun⟩ :=
                ih place.next (hread.char hbreak) hb (by simp) hcs
              refine ⟨b', inLine', p, hdone, hb', hp, ?_⟩
              rw [Bool.not_true, if_neg Bool.false_ne_true, List.nil_append,
                List.singleton_append, blockFrom]
              simpa [hsilent, hbreak] using hrun
          | false =>
              obtain ⟨b', inLine', p, hdone, hb', hp, hrun⟩ :=
                ih (place.forward (n + 2)).next (hread.openLine hbreak (n + 2)) rfl (by simp) hcs
              refine ⟨b', inLine', p, hdone, hb', hp, ?_⟩
              rw [Bool.not_false, if_pos rfl, List.append_assoc, List.singleton_append,
                blockFrom_line _ hc hbreak (.inl hb) (hplace rfl)]
              exact hrun

/-! ### The header and the end -/

def Chomping.sign : Chomping → List Char
  | strip => ['-']
  | clip => []
  | keep => ['+']

def Chomping.ofText (cs : List Char) : Chomping :=
  match cs.reverse with
  | [] => .strip
  | last :: others =>
      if !isBreak last then .strip
      else if others.isEmpty || others.head?.any isBreak then .keep
      else .clip

theorem chomping_eq_sign (cs : List Char) : chomping cs = (Chomping.ofText cs).sign := by
  unfold chomping Chomping.ofText
  cases cs.reverse with
  | nil => rfl
  | cons last others =>
      dsimp only
      split
      · rfl
      · split
        · rfl
        · rfl

/-- The space or break that begins a text needs the column in the header. -/
def needsColumn (cs : List Char) : Bool := cs.head?.any fun c => isSpace c || isBreak c

theorem blockHeader_eq (chomp : Chomping) (column : Bool) (rest : List Char) :
    ∃ p : Place,
      Lexer.blockHeader start
          ⟨place, (if column then ['2'] else []) ++ chomp.sign ++ '\n' :: rest⟩ =
        .ok ((chomp, if column then 2 else 0), ⟨p, '\n' :: rest⟩) := by
  cases column <;> cases chomp <;> exact ⟨_, rfl⟩

theorem restOfLine_break (rest : List Char) :
    ∃ p : Place, p.column = 0 ∧
      Lexer.restOfLine .blockScalar start ⟨place, '\n' :: rest⟩ = .ok ⟨p, rest⟩ :=
  ⟨_, rfl, rfl⟩

/-- The break behind the last line is written with the text, or comes behind it. -/
def finalBreak (cs : List Char) : List Char := if cs.getLast?.any isBreak then [] else ['\n']

theorem BlockSoFar.text_strip {b : Block} {done : List Char} (h : BlockSoFar b done true) :
    b.text .strip = done.reverse := by
  cases h with
  | inLine hout _ _ _ => simp [Block.text, hout]

theorem BlockSoFar.text_ofText {b : Block} {cs : List Char} (h : BlockSoFar b cs.reverse false)
    (hne : cs ≠ []) : b.text (Chomping.ofText cs) = cs := by
  have heq : b.text .keep = cs := by simp [Block.text, h.eq]
  unfold Chomping.ofText
  generalize hdone : cs.reverse = done at h ⊢
  cases h with
  | blankLines hout hlast hlines hbreaks =>
      cases done with
      | nil => simp_all
      | cons last others =>
          have hothers : (others.isEmpty || others.head?.any isBreak) = true := by
            cases others <;> simp_all
          simp [hbreaks last, hothers, heq]
  | @behindLine c d cs' breaks hout hlast hlines hbreaks hd hc =>
      cases breaks with
      | nil =>
          have hclip : b.text .clip = b.text .keep := by simp [Block.text, hlines]
          simp [hd, hc, hclip, heq]
      | cons last others =>
          have hothers : isBreak (others.head?.getD d) := by
            cases others <;> simp_all
          simp [hbreaks last, hothers, heq]

theorem BlockSoFar.ofText_of_inLine {b : Block} {cs : List Char}
    (h : BlockSoFar b cs.reverse true) :
    Chomping.ofText cs = .strip ∧ finalBreak cs = ['\n'] := by
  unfold Chomping.ofText finalBreak
  rw [List.getLast?_eq_head?_reverse]
  generalize cs.reverse = done at h ⊢
  cases h with
  | inLine _ _ _ hc => simp [hc]

theorem BlockSoFar.finalBreak_of_lineStart {b : Block} {cs : List Char}
    (h : BlockSoFar b cs.reverse false) (hne : cs ≠ []) : finalBreak cs = [] := by
  have hlast : cs.reverse ≠ [] := by simpa using hne
  unfold finalBreak
  rw [List.getLast?_eq_head?_reverse]
  generalize cs.reverse = done at h hlast ⊢
  cases h with
  | blankLines _ _ _ hbreaks =>
      cases done with
      | nil => exact absurd rfl hlast
      | cons last others => simp [hbreaks last]
  | @behindLine c d cs' breaks _ _ _ hbreaks hd _ =>
      cases breaks with
      | nil => simp [hd]
      | cons last others => simp [hbreaks last]

theorem blockFrom_finalBreak {b : Block} {cs : List Char} {inLine : Bool} (tail : List Char)
    (hread : BlockSoFar b cs.reverse inLine) (hne : cs ≠ [])
    (hplace : inLine = false → place.column = 0) :
    ∃ (b' : Block) (p : Place), b'.text (Chomping.ofText cs) = cs ∧ b'.indent = b.indent ∧
      p.column = 0 ∧
      blockFrom false (n + 1) start b inLine place (finalBreak cs ++ tail) =
        blockFrom false (n + 1) start b' false p tail := by
  cases inLine with
  | true =>
      obtain ⟨hchomp, hfinal⟩ := hread.ofText_of_inLine
      refine ⟨{ b with lastBreak := ['\n'] }, place.newLine, ?_, rfl, rfl, ?_⟩
      · have htext := hread.text_strip
        simpa [hchomp, Block.text] using htext
      · rw [hfinal, List.singleton_append, blockFrom]
        simp [isSilent, isBreak, breakText]
  | false =>
      refine ⟨b, place, hread.text_ofText hne, rfl, hplace rfl, ?_⟩
      rw [hread.finalBreak_of_lineStart hne]
      rfl

theorem blockFrom_lineStart {b : Block} {tail rest : List Char} {column : Nat}
    (htail : LineStart tail column rest) (hcolumn : column < b.indent) (hplace : place.column = 0) :
    ∃ (b' : Block) (p : Place), b'.text = b.text ∧ p.column = column ∧
      blockFrom false (n + 1) start b false place tail = .ok (b', ⟨p, rest⟩) := by
  rw [htail.eq, blockFrom_spaces column rest (.inr (by omega))]
  cases rest with
  | nil => exact ⟨b, place.forward column, rfl, by simp [hplace], by rw [blockFrom]⟩
  | cons c rest =>
      have hc := htail.isInk c rfl
      have hprintable := isPrintable_of_isInk hc
      have hspace : c ≠ ' ' := by
        rintro rfl
        revert hc
        decide
      have hindent : b.indent ≠ 0 := by omega
      refine ⟨_, place.forward column, rfl, by simp [hplace], ?_⟩
      rw [blockFrom]
      simp [isSilent_of_isPrintable hprintable, not_isBreak_of_isInk hc, hspace,
        ne_tab_of_isPrintable hprintable, Block.column, hindent, hplace]
      omega

theorem blockSoFar_unread (column : Nat) : BlockSoFar (.unread column) [] false :=
  .blankLines rfl rfl rfl (by simp)

/-- The lines of a block from the first one on. Without the column in the header
the first line shows it. -/
theorem blockFrom_lines {cs : List Char} (tail : List Char) (hplace : place.column = 0)
    (hprintable : ∀ c ∈ cs, isPrintable c) (hne : cs ≠ []) :
    ∃ (b : Block) (inLine : Bool) (p : Place), BlockSoFar b cs.reverse inLine ∧
      b.indent = n + 2 ∧ (inLine = false → p.column = 0) ∧
      blockFrom false (n + 1) start (.unread (if needsColumn cs then n + 2 else 0)) false place
          (indented (n + 2) (fun c => [c]) true cs ++ tail) =
        blockFrom false (n + 1) start b inLine p tail := by
  cases hcolumn : needsColumn cs with
  | true =>
      have hrun := blockFrom_indented tail start place (blockSoFar_unread (n + 2)) rfl
        (fun _ => hplace) hprintable
      rwa [List.append_nil] at hrun
  | false =>
      obtain ⟨c, cs, rfl⟩ := List.exists_cons_of_ne_nil hne
      have hc := hprintable c (by simp)
      have hcs : ∀ d ∈ cs, isPrintable d := fun d hd => hprintable d (by simp [hd])
      simp only [needsColumn, List.head?_cons, Option.any_some, Bool.or_eq_false_iff] at hcolumn
      have hink : isInk c := by simp [isInk, hc, hcolumn]
      obtain ⟨b, inLine, p, hdone, hb, hp, hrun⟩ :=
        blockFrom_indented tail start (place.forward (n + 2)).next
          ((blockSoFar_unread 0).openLine hcolumn.2 (n + 2)) rfl (by simp) hcs
      refine ⟨b, inLine, p, by simpa using hdone, hb, hp, ?_⟩
      have hlines : indented (n + 2) (fun c => [c]) true (c :: cs) ++ tail =
          spaces (n + 2) ++ c :: (indented (n + 2) (fun c => [c]) false cs ++ tail) := by
        simp [indented_cons, hcolumn.2]
      rw [hlines, if_neg Bool.false_ne_true,
        blockFrom_line _ hc hcolumn.2 (.inr ⟨rfl, rfl, hink⟩) hplace]
      exact hrun

/-- A literal block in a block at column `n` is read back. -/
theorem blockScalar_literalBlock {cs tail rest : List Char} {column : Nat}
    (hprintable : ∀ c ∈ cs, isPrintable c) (hne : cs ≠ []) (htail : LineStart tail column rest)
    (hcolumn : column ≤ n) :
    ∃ p : Place, p.column = column ∧
      Lexer.blockScalar .literal n start
          ⟨place, literalBlock (n + 2) cs ++ (finalBreak cs ++ tail)⟩ =
        .ok (.scalar .literal (String.ofList cs), ⟨p, rest⟩) := by
  generalize hlines : indented (n + 2) (fun c => [c]) true cs ++ (finalBreak cs ++ tail) = lines
  have hblock : literalBlock (n + 2) cs ++ (finalBreak cs ++ tail) =
      '|' :: ((if needsColumn cs then ['2'] else []) ++ (Chomping.ofText cs).sign ++
        '\n' :: lines) := by
    rw [← hlines]
    simp [literalBlock, chomping_eq_sign, needsColumn]
    rfl
  obtain ⟨q, hheader⟩ :=
    @blockHeader_eq start (place.forward 1) (Chomping.ofText cs) (needsColumn cs) lines
  obtain ⟨r, hr, hline⟩ := @restOfLine_break start q lines
  obtain ⟨b, inLine, p, hdone, hb, hp, hrun⟩ :=
    @blockFrom_lines n start r cs (finalBreak cs ++ tail) hr hprintable hne
  obtain ⟨b', p', htext, hb', hp', hfinal⟩ :=
    @blockFrom_finalBreak n start p b cs inLine tail hdone hne hp
  obtain ⟨b'', p'', htext', hp'', hend⟩ :=
    @blockFrom_lineStart n start p' b' tail rest column htail (by omega) hp'
  rw [hlines] at hrun
  have hread : blockFrom false (n + 1) start
      (.unread (if needsColumn cs = true then n + 2 else 0)) false r lines =
        .ok (b'', ⟨p'', rest⟩) := by
    calc
      _ = blockFrom false (n + 1) start b inLine p (finalBreak cs ++ tail) := hrun
      _ = blockFrom false (n + 1) start b' false p' tail := hfinal
      _ = .ok (b'', ⟨p'', rest⟩) := hend
  refine ⟨p'', hp'', ?_⟩
  have hleast : (max 1 ((n : Int) + 1)).toNat = n + 1 := by omega
  have hcolumns : (if (if needsColumn cs then 2 else 0) == 0 then 0
      else (max (n : Int) 0).toNat + if needsColumn cs then 2 else 0) =
        if needsColumn cs then n + 2 else 0 := by
    cases needsColumn cs <;> simp
  unfold Lexer.blockScalar
  simp only [hblock, Cursor.forward, List.drop_succ_cons, List.drop_zero, hheader, hline,
    Outcome.ok_bind, hleast, hcolumns]
  change (blockFrom false (n + 1) start (.unread _) false r lines >>= _) = _
  rw [hread, Outcome.ok_bind, htext', htext]
  rfl

end Yaml
end DocClaims
