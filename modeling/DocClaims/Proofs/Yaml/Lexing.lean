import DocClaims.Proofs.Outcomes
import DocClaims.Proofs.Yaml.PlainText
import Mathlib.Logic.Relation

/-!
# States of the lexer between tokens

The lexer is followed along a written text by what it will give: the tokens so
far and the columns of the blocks that are open. Blocks are closed late, with the
token behind them, so the statement about a value says where the next token stands
and which blocks are left once those of the value are closed.
-/

namespace DocClaims
namespace Yaml

/-! ### Open blocks -/

/-- The tokens so far and the columns of the open blocks, innermost first. -/
structure Blocks where
  tokens : List Token
  columns : List Nat

namespace Blocks

def add (b : Blocks) (ts : List Token) : Blocks := ⟨b.tokens ++ ts, b.columns⟩

def openAt (b : Blocks) (column : Nat) (token : Token) : Blocks :=
  if b.columns.head?.all (· < column) then ⟨b.tokens ++ [token], column :: b.columns⟩ else b

def closeFrom (tokens : List Token) (column : Int) : List Nat → Blocks
  | [] => ⟨tokens, []⟩
  | c :: cs =>
      if column < c then closeFrom (tokens ++ [.blockEnd]) column cs else ⟨tokens, c :: cs⟩

def close (b : Blocks) (column : Int) : Blocks := closeFrom b.tokens column b.columns

theorem closeFrom_close {m n : Int} (h : m ≤ n) (tokens : List Token) (cs : List Nat) :
    (closeFrom tokens n cs).close m = closeFrom tokens m cs := by
  induction cs generalizing tokens with
  | nil => rfl
  | cons c cs ih =>
      by_cases hc : n < c
      · have hm : m < c := by omega
        rw [closeFrom, if_pos hc, ih, closeFrom, if_pos hm]
      · rw [closeFrom, if_neg hc]
        rfl

theorem close_close {m n : Int} (h : m ≤ n) (b : Blocks) : (b.close n).close m = b.close m :=
  closeFrom_close h b.tokens b.columns

theorem close_of_head {b : Blocks} {m n : Nat} (h : b.columns.head? = some m) (hmn : m ≤ n) :
    b.close n = b := by
  obtain ⟨tokens, columns⟩ := b
  cases columns with
  | nil => simp at h
  | cons c cs =>
      obtain rfl : c = m := by simpa using h
      have hnot : ¬(n : Int) < c := by omega
      rw [close, closeFrom, if_neg hnot]

theorem columns_add (b : Blocks) (ts : List Token) : (b.add ts).columns = b.columns := rfl

theorem add_add (b : Blocks) (ts us : List Token) : (b.add ts).add us = b.add (ts ++ us) := by
  simp [add]

theorem openAt_of_head {b : Blocks} {n : Nat} {token : Token} (h : b.columns.head? = some n) :
    b.openAt n token = b := by
  simp [openAt, h]

theorem openAt_of_lt {b : Blocks} {m n : Nat} {token : Token} (h : b.columns.head? = some m)
    (hn : m < n) : b.openAt n token = ⟨b.tokens ++ [token], n :: b.columns⟩ := by
  simp [openAt, h, hn]

theorem head_openAt {b : Blocks} {n : Nat} {token : Token} (h : ∀ c ∈ b.columns.head?, c ≤ n) :
    (b.openAt n token).columns.head? = some n := by
  unfold openAt
  cases hhead : b.columns.head? with
  | none => simp
  | some c =>
      have hc := h c (by simp [hhead])
      by_cases hlt : c < n
      · simp [hlt]
      · have heq : c = n := by omega
        simp [hhead, heq]

theorem head_openAt_add {b : Blocks} {n : Nat} {token : Token}
    (h : ∀ c ∈ b.columns.head?, c ≤ n) (ts : List Token) :
    ((b.openAt n token).add ts).columns.head? = some n := by
  rw [columns_add]
  exact head_openAt h

theorem le_of_head {b : Blocks} {n : Nat} (h : b.columns.head? = some n) :
    ∀ c ∈ b.columns.head?, c ≤ n := by
  simp [h]

end Blocks

/-! ### States -/

namespace Lexer

/-- Outside of brackets, with the tokens and the blocks as given. -/
structure Holds (s : Lexer) (b : Blocks) : Prop where
  outerCandidates : s.outerCandidates = []
  count : s.count = s.tokens.length
  tokens : s.tokens.reverse.map (·.token) = b.tokens
  indents : s.indent :: s.outerIndents = b.columns.map Int.ofNat ++ [-1]

namespace Holds

variable {s : Lexer} {b : Blocks}

theorem inFlow (h : s.Holds b) : s.inFlow = false := by simp [Lexer.inFlow, h.outerCandidates]

theorem add (h : s.Holds b) (token : Token) (place : Place) :
    (s.add token place).Holds (b.add [token]) :=
  ⟨h.outerCandidates, by simp [Lexer.add, h.count], by simp [Lexer.add, Blocks.add, h.tokens],
    h.indents⟩

theorem indent_of_head (h : s.Holds b) {n : Nat} (hn : b.columns.head? = some n) :
    s.indent = n := by
  obtain ⟨tokens, columns⟩ := b
  cases columns with
  | nil => simp at hn
  | cons c cs =>
      have hc : c = n := by simpa using hn
      have hindents := h.indents
      simp only [List.map_cons, List.cons_append, List.cons.injEq] at hindents
      rw [hindents.1, hc]
      rfl

theorem opensBlock (h : s.Holds b) (column : Nat) :
    s.opensBlock column = b.columns.head?.all (· < column) := by
  obtain ⟨tokens, columns⟩ := b
  have hindents := h.indents
  cases columns with
  | nil =>
      simp only [List.map_nil, List.nil_append, List.cons.injEq] at hindents
      simp [Lexer.opensBlock, h.inFlow, hindents.1]
      omega
  | cons c cs =>
      simp only [List.map_cons, List.cons_append, List.cons.injEq] at hindents
      simp [Lexer.opensBlock, h.inFlow, hindents.1]

end Holds

theorem closeFrom_holds {tokens : List PlacedToken} {count : Nat} {column : Int} {place : Place}
    {indent : Int} {outers : List Int} {columns : List Nat} (hcount : count = tokens.length)
    (hindents : indent :: outers = columns.map Int.ofNat ++ [-1]) :
    ∃ ts count' indent' outers',
      closeFrom tokens count column place indent outers = (ts, count', indent', outers') ∧
        count' = ts.length ∧
        ts.reverse.map (·.token) =
          (Blocks.closeFrom (tokens.reverse.map (·.token)) column columns).tokens ∧
        indent' :: outers' =
          (Blocks.closeFrom (tokens.reverse.map (·.token)) column columns).columns.map Int.ofNat ++
            [-1] := by
  induction columns generalizing tokens count indent outers with
  | nil =>
      obtain ⟨rfl, rfl⟩ : indent = -1 ∧ outers = [] := by simpa using hindents
      exact ⟨tokens, count, -1, [], rfl, hcount, rfl, rfl⟩
  | cons c cs ih =>
      simp only [List.map_cons, List.cons_append, List.cons.injEq] at hindents
      obtain ⟨rfl, houters⟩ := hindents
      obtain ⟨outer, others, rfl⟩ : ∃ outer others, outers = outer :: others :=
        List.exists_cons_of_ne_nil (by rw [houters]; simp)
      by_cases hc : column < (c : Int)
      · obtain ⟨ts, count', indent', outers', hclose, hcount', htokens, hindents'⟩ :=
          @ih (⟨.blockEnd, place⟩ :: tokens) (count + 1) outer others (by simp [hcount]) houters
        refine ⟨ts, count', indent', outers', ?_, hcount', ?_, ?_⟩
        · rw [closeFrom]
          simpa [hc] using hclose
        · simpa [Blocks.closeFrom, hc] using htokens
        · simpa [Blocks.closeFrom, hc] using hindents'
      · refine ⟨tokens, count, c, outer :: others, ?_, hcount, ?_, ?_⟩
        · rw [closeFrom]
          simp [hc]
        · simp [Blocks.closeFrom, hc]
        · simp [Blocks.closeFrom, hc, houters]

theorem Holds.closeBlocks {s : Lexer} {b : Blocks} (h : s.Holds b) (column : Int) :
    (s.closeBlocks column).Holds (b.close column) := by
  obtain ⟨ts, count, indent, outers, hclose, hcount, htokens, hindents⟩ :=
    @closeFrom_holds s.tokens s.count column s.place s.indent s.outerIndents b.columns h.count
      h.indents
  rw [h.tokens] at htokens hindents
  simp only [Lexer.closeBlocks, h.inFlow, hclose, Bool.false_eq_true, if_false]
  exact ⟨h.outerCandidates, hcount, htokens, hindents⟩

theorem closeBlocks_frame (s : Lexer) (column : Int) :
    (s.closeBlocks column).cursor = s.cursor ∧ (s.closeBlocks column).candidate = s.candidate ∧
      (s.closeBlocks column).keyAllowed = s.keyAllowed := by
  unfold closeBlocks
  split
  · exact ⟨rfl, rfl, rfl⟩
  · exact ⟨rfl, rfl, rfl⟩

theorem closeBlocks_of_le {s : Lexer} {column : Int} (h : s.indent ≤ column) :
    s.closeBlocks column = s := by
  have hnot : ¬column < s.indent := by omega
  unfold closeBlocks
  split
  · rfl
  · have hclose : closeFrom s.tokens s.count column s.place s.indent s.outerIndents =
        (s.tokens, s.count, s.indent, s.outerIndents) := by
      cases s.outerIndents with
      | nil => rfl
      | cons outer others => rw [closeFrom, if_neg hnot]
    rw [hclose]

/-! ### Candidates -/

/-- The candidates that are left outside of brackets. None of them may be
required unless it still can be a key. -/
theorem dropStale_eq {s : Lexer} (houter : s.outerCandidates = [])
    (h : ∀ k ∈ s.candidate, KeyCandidate.isStale k s.place → k.required = false) :
    s.dropStale =
      .ok { s with candidate := s.candidate.filter fun k => !KeyCandidate.isStale k s.place } := by
  have hfresh : s.fresh? s.candidate =
      .ok (s.candidate.filter fun k => !KeyCandidate.isStale k s.place) := by
    cases hk : s.candidate with
    | none => rfl
    | some k =>
        cases hstale : KeyCandidate.isStale k s.place with
        | true =>
            have hrequired := h k hk hstale
            simp [fresh?, hstale, hrequired, Option.filter]
        | false => simp [fresh?, hstale, Option.filter]
  unfold dropStale
  rw [houter, hfresh]
  rfl

theorem dropStale_of_none {s : Lexer} (houter : s.outerCandidates = [])
    (hnone : s.candidate = none) : s.dropStale = .ok s := by
  rw [dropStale_eq houter (by simp [hnone])]
  obtain ⟨cursor, indent, outerIndents, candidate, outerCandidates, keyAllowed, tokens, count⟩ := s
  obtain rfl : candidate = none := hnone
  rfl

/-! ### Steps -/

/-- A step that is not the last and takes some of the text. -/
def Advances (s t : Lexer) : Prop :=
  s.step = .ok (t, false) ∧ t.cursor.rest.length < s.cursor.rest.length

abbrev Passes : Lexer → Lexer → Prop := Relation.ReflTransGen Advances

/-- Fuel for every character left is enough for the steps that follow. -/
theorem run_of_passes {s t : Lexer} (h : Passes s t) {fuel : Nat}
    (hfuel : s.cursor.rest.length < fuel) :
    ∃ fuel', t.cursor.rest.length < fuel' ∧ s.run fuel = t.run fuel' := by
  induction h with
  | refl => exact ⟨fuel, hfuel, rfl⟩
  | @tail u v _ hstep ih =>
      obtain ⟨fuel', hu, hrun⟩ := ih
      obtain ⟨n, rfl⟩ : ∃ n, fuel' = n + 1 := ⟨fuel' - 1, by omega⟩
      have hshorter := hstep.2
      refine ⟨n, by omega, ?_⟩
      rw [hrun, Lexer.run, hstep.1]

/-! ### Up to the next token -/

theorem toNextToken_spaces {allowed : Bool} {place : Place} (k : Nat) (rest : List Char) :
    toNextToken allowed false place (spaces k ++ rest) false =
      toNextToken allowed false (place.forward k) rest false := by
  induction k generalizing place with
  | zero => rfl
  | succ k ih =>
      rw [spaces_succ, List.cons_append, toNextToken]
      simp only [isSilent, isBreak]
      simpa [Place.forward_next] using @ih place.next

theorem toNextToken_tokenStart {allowed flow : Bool} {place : Place} {rest : List Char}
    (h : TokenStart rest) :
    toNextToken allowed flow place rest false = (allowed, ⟨place, rest⟩) := by
  cases rest with
  | nil => rfl
  | cons c rest =>
      have hc := isPrintable_of_isInk (h.isInk c rfl)
      have hgap := not_isGap_of_isInk (h.isInk c rfl)
      simp only [isGap, Bool.or_eq_false_iff] at hgap
      have hmark : (c.toNat == 0xFEFF) = false := by
        simp only [beq_eq_false_iff_ne]
        intro hn
        simp [isPrintable, hn] at hc
      have hsign : (c == '#') = false := by simpa using h.noComment c rfl
      rw [toNextToken]
      simp [isSilent_of_isPrintable hc, not_isBreak_of_isInk (h.isInk c rfl), hgap, hmark, hsign]

theorem toNextToken_break {allowed : Bool} {place : Place} {tail rest : List Char} {column : Nat}
    (h : LineStart tail column rest) :
    toNextToken allowed false place ('\n' :: tail) false =
      (true, ⟨place.newLine.forward column, rest⟩) := by
  have hbreak : toNextToken allowed false place ('\n' :: tail) false =
      toNextToken true false place.newLine tail false := by
    rw [toNextToken]
    simp [isSilent, isBreak]
  rw [hbreak, h.eq, toNextToken_spaces, toNextToken_tokenStart h.toTokenStart]

/-- The next token is the one that `rest` begins with, at the column; it may be a
key. With the blocks behind column `level` closed, the blocks are those of `b`. -/
def Arrives (s : Lexer) (level column : Nat) (rest : List Char) (b : Blocks) : Prop :=
  ∃ u b', s.skipToToken.dropStale = .ok u ∧ u.candidate = none ∧ u.keyAllowed = true ∧
    u.cursor.rest = rest ∧ u.place.column = column ∧ u.Holds b' ∧ b'.close level = b

theorem Arrives.mono {s : Lexer} {m n column : Nat} {rest : List Char} {b : Blocks}
    (h : s.Arrives n column rest b) (hmn : m ≤ n) : s.Arrives m column rest (b.close m) := by
  obtain ⟨u, b', hskip, hcandidate, hallowed, hrest, hcolumn, hholds, rfl⟩ := h
  exact ⟨u, b', hskip, hcandidate, hallowed, hrest, hcolumn, hholds,
    (Blocks.close_close (by omega) b').symm⟩

theorem arrives_of_tokenStart {s : Lexer} {b : Blocks} {level : Nat}
    (hrest : TokenStart s.cursor.rest) (hb : s.Holds b) (hcandidate : s.candidate = none)
    (hallowed : s.keyAllowed = true)
    (hclose : b.close level = b) :
    s.Arrives level s.place.column s.cursor.rest b := by
  have hskip : s.skipToToken = s := by
    unfold skipToToken
    rw [hb.inFlow, toNextToken_tokenStart hrest]
    rfl
  refine ⟨s, b, ?_, hcandidate, hallowed, rfl, rfl, hb, hclose⟩
  rw [hskip, dropStale_of_none hb.outerCandidates hcandidate]

theorem arrives_of_break {s : Lexer} {b : Blocks} {level column : Nat} {tail rest : List Char}
    (hrest : s.cursor.rest = '\n' :: tail) (htail : LineStart tail column rest) (hb : s.Holds b)
    (hcandidate : ∀ k ∈ s.candidate, k.required = false ∧ k.place.line ≤ s.place.line)
    (hclose : b.close level = b) : s.Arrives level column rest b := by
  have hskip : s.skipToToken =
      { s with keyAllowed := true, cursor := ⟨s.place.newLine.forward column, rest⟩ } := by
    unfold skipToToken
    rw [hb.inFlow, hrest, toNextToken_break htail]
  have hstale : s.candidate.filter
      (fun k => !KeyCandidate.isStale k (s.place.newLine.forward column)) = none := by
    cases hk : s.candidate with
    | none => rfl
    | some k =>
        have hline := (hcandidate k hk).2
        have hlt : k.place.line < s.place.line + 1 := by omega
        simp [Option.filter, KeyCandidate.isStale, hlt]
  have hdrop := @dropStale_eq
    { s with keyAllowed := true, cursor := ⟨s.place.newLine.forward column, rest⟩ }
    hb.outerCandidates (fun k hk _ => (hcandidate k hk).1)
  rw [← hskip] at hdrop
  refine ⟨_, b, hdrop, ?_, ?_, ?_, ?_, ?_, hclose⟩
  · rw [hskip]
    exact hstale
  · rw [hskip]
  · rw [hskip]
  · rw [hskip]
    simp [place]
  · rw [hskip]
    exact ⟨hb.outerCandidates, hb.count, hb.tokens, hb.indents⟩

theorem length_toNextToken_le (allowed flow : Bool) (place : Place) (cs : List Char)
    (inComment : Bool) :
    (toNextToken allowed flow place cs inComment).2.rest.length ≤ cs.length := by
  induction cs generalizing allowed place inComment with
  | nil => exact Nat.le_refl _
  | cons c cs ih =>
      have hmore (a : Bool) (p : Place) (i : Bool) :
          (toNextToken a flow p cs i).2.rest.length ≤ (c :: cs).length :=
        Nat.le_succ_of_le (ih a p i)
      rw [toNextToken]
      split
      · exact hmore _ _ _
      · split
        · exact hmore _ _ _
        · split
          · exact hmore _ _ _
          · split
            · exact hmore _ _ _
            · exact Nat.le_refl _

theorem cursor_of_dropStale {s t : Lexer} (h : s.dropStale = .ok t) : t.cursor = s.cursor := by
  unfold dropStale at h
  obtain ⟨outer, -, h⟩ := Outcome.bind_eq_ok_iff.1 h
  obtain ⟨candidate, -, h⟩ := Outcome.bind_eq_ok_iff.1 h
  rw [← Outcome.pure_eq_ok_iff.1 h]

/-- The next step of `s` reads the token of `u` that begins with `c`. -/
structure Settles (s u : Lexer) (c : Char) (rest : List Char) (b : Blocks) : Prop where
  holds : u.Holds b
  candidate : u.candidate = none
  text : u.cursor.rest = c :: rest
  length_le : (c :: rest).length ≤ s.cursor.rest.length
  step : s.step = (u.readToken c rest).bind fun t => t.dropStale.bind fun t => .ok (t, false)

theorem settles_of_arrives {s : Lexer} {column : Nat} {c : Char} {rest : List Char} {b : Blocks}
    (h : s.Arrives column column (c :: rest) b) :
    ∃ u : Lexer, Settles s u c rest b ∧ u.keyAllowed = true ∧ u.place.column = column := by
  obtain ⟨u, b', hskip, hcandidate, hallowed, hrest, hcolumn, hholds, rfl⟩ := h
  obtain ⟨hcursor, hcandidate', hallowed'⟩ := closeBlocks_frame u column
  refine ⟨u.closeBlocks column, ⟨hholds.closeBlocks column, by rw [hcandidate', hcandidate],
    by rw [hcursor, hrest], ?_, ?_⟩, by rw [hallowed', hallowed], ?_⟩
  · rw [← hrest, cursor_of_dropStale hskip]
    exact length_toNextToken_le _ _ _ _ _
  · unfold step
    rw [hskip, Outcome.ok_bind]
    dsimp only
    rw [hcolumn, hcursor, hrest]
    rfl
  · rw [place, hcursor, ← hcolumn]
    rfl

/-- Behind a colon or a dash, in the block at column `n`. -/
structure Behind (s : Lexer) (n : Nat) (rest : List Char) (b : Blocks) : Prop where
  holds : s.Holds b
  candidate : s.candidate = none
  text : s.cursor.rest = rest
  column : n < s.place.column
  level : b.columns.head? = some n

theorem Behind.skipToToken {s : Lexer} {n : Nat} {rest : List Char} {b : Blocks}
    (h : s.Behind n (' ' :: rest) b) (hstart : TokenStart rest) :
    s.skipToToken = { s with cursor := ⟨s.place.next, rest⟩ } := by
  unfold Lexer.skipToToken
  rw [h.holds.inFlow, h.text, show ' ' :: rest = spaces 1 ++ rest from rfl, toNextToken_spaces,
    toNextToken_tokenStart hstart]
  rfl

theorem Behind.settles {s : Lexer} {n : Nat} {c : Char} {rest : List Char} {b : Blocks}
    (h : s.Behind n (' ' :: c :: rest) b) (hstart : TokenStart (c :: rest)) :
    ∃ u : Lexer, Settles s u c rest b ∧ u.indent = n ∧ n < u.place.column := by
  have hskip := h.skipToToken hstart
  have hindent := h.holds.indent_of_head h.level
  have hcolumn : n < s.place.next.column := Nat.lt_succ_of_lt h.column
  have hle : s.indent ≤ (s.place.next.column : Int) := by omega
  have hholds : Holds { s with cursor := ⟨s.place.next, c :: rest⟩ } b :=
    ⟨h.holds.outerCandidates, h.holds.count, h.holds.tokens, h.holds.indents⟩
  refine ⟨{ s with cursor := ⟨s.place.next, c :: rest⟩ },
    ⟨hholds, h.candidate, rfl, by rw [h.text]; simp, ?_⟩, hindent, hcolumn⟩
  unfold step
  rw [hskip, dropStale_of_none hholds.outerCandidates h.candidate, Outcome.ok_bind]
  dsimp only
  rw [closeBlocks_of_le (by exact hle)]
  rfl

theorem Behind.arrives {s : Lexer} {n : Nat} {rest : List Char} {b : Blocks}
    (h : s.Behind n (' ' :: rest) b) (hstart : TokenStart rest) (hallowed : s.keyAllowed = true) :
    s.Arrives (s.place.column + 1) (s.place.column + 1) rest b := by
  have hskip := h.skipToToken hstart
  have hcolumn := h.column
  have hholds : Holds { s with cursor := ⟨s.place.next, rest⟩ } b :=
    ⟨h.holds.outerCandidates, h.holds.count, h.holds.tokens, h.holds.indents⟩
  refine ⟨{ s with cursor := ⟨s.place.next, rest⟩ }, b, ?_, h.candidate, hallowed, rfl, rfl, hholds,
    Blocks.close_of_head h.level (by omega)⟩
  rw [hskip, dropStale_of_none hholds.outerCandidates h.candidate]

theorem Behind.arrives_line {s : Lexer} {n column : Nat} {tail rest : List Char} {b : Blocks}
    (h : s.Behind n ('\n' :: tail) b) (htail : LineStart tail column rest) (hcolumn : n ≤ column) :
    s.Arrives column column rest b :=
  arrives_of_break h.text htail h.holds (by simp [h.candidate])
    (Blocks.close_of_head h.level hcolumn)

theorem Settles.advances {s u t t' : Lexer} {c : Char} {rest : List Char} {b : Blocks}
    (h : Settles s u c rest b) (hread : u.readToken c rest = .ok t) (hdrop : t.dropStale = .ok t')
    (hlength : t'.cursor.rest.length < (c :: rest).length) : Advances s t' := by
  refine ⟨?_, Nat.lt_of_lt_of_le hlength h.length_le⟩
  rw [h.step, hread]
  simp only [Except.bind]
  rw [hdrop]

end Lexer
end Yaml
end DocClaims
