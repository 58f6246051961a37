import DocClaims.Proofs.Yaml.BlockText
import DocClaims.Proofs.Yaml.Lexing
import DocClaims.Proofs.Yaml.QuotedText

/-!
# Tokens of scalars

A value that is written on the line of its key or dash, or in a literal block
behind it, gives one token for a scalar or two for empty brackets, and leaves the
lexer at the next line.
-/

namespace DocClaims
namespace Yaml
namespace Lexer

variable {s t u : Lexer} {b : Blocks} {n column : Nat} {c : Char} {cs rest tail : List Char}

/-! ### Parts that may be keys -/

/-- A candidate that begins at the current token; it is required only at the
column of a block. -/
structure NotedHere (u : Lexer) (k : KeyCandidate) : Prop where
  number : k.number = u.count
  place : k.place = u.place
  required : u.indent ≠ u.place.column → k.required = false

theorem noteCandidate_eq (hcandidate : u.candidate = none) :
    ∃ k : Option KeyCandidate, u.noteCandidate = .ok { u with candidate := k } ∧
      (∀ j ∈ k, NotedHere u j) ∧ (u.keyAllowed = true → k.isSome) := by
  by_cases hallowed : u.keyAllowed = true
  · refine ⟨some ⟨!u.inFlow && u.indent == u.place.column, u.count, u.place⟩, ?_, ?_, fun _ => rfl⟩
    · simp [noteCandidate, hallowed, dropCandidate, hcandidate]
    · rintro j ⟨⟩
      exact ⟨rfl, rfl, fun h => by simp [h]⟩
  · refine ⟨none, ?_, by simp, fun h => absurd h hallowed⟩
    rw [noteCandidate, if_neg hallowed, ← hcandidate]
    rfl

theorem candidatePart_eq {reader : PartReader Token} {token : Token} {c : Cursor}
    (hcandidate : u.candidate = none) (hread : reader u.place u.cursor = .ok (token, c)) :
    ∃ k : Option KeyCandidate, (∀ j ∈ k, NotedHere u j) ∧
      u.candidatePart reader =
        .ok { u.add token u.place with candidate := k, cursor := c, keyAllowed := false } := by
  obtain ⟨k, hnote, hk, -⟩ := noteCandidate_eq hcandidate
  refine ⟨k, hk, ?_⟩
  unfold candidatePart
  rw [hnote, Outcome.ok_bind]
  change (reader u.place u.cursor >>= _) = _
  rw [hread]
  rfl

/-! ### Behind a value -/

/-- A candidate that may be given up, at the latest on the line behind it. -/
structure Free (line : Nat) (k : KeyCandidate) : Prop where
  required : k.required = false
  line : k.place.line ≤ line

/-- In the block at column `n` a value begins behind the column. -/
theorem NotedHere.free {k : KeyCandidate} (h : NotedHere u k) (hb : u.Holds b)
    (hlevel : b.columns.head? = some n) (hcolumn : n < u.place.column) :
    Free u.place.line k := by
  refine ⟨h.required ?_, Nat.le_of_eq (congrArg Place.line h.place)⟩
  rw [hb.indent_of_head hlevel]
  omega

theorem Settles.arrives_over_break {next : List Char} {b' : Blocks} (h : Settles s u c rest b)
    (hread : u.readToken c rest = .ok t) (ht : t.Holds b') (hlevel : b'.columns.head? = some n)
    (hk : ∀ k ∈ t.candidate, Free t.place.line k) (htext : t.cursor.rest = '\n' :: tail)
    (htail : LineStart tail column next) (hlength : tail.length < rest.length) :
    ∃ t', Advances s t' ∧ t'.Arrives n column next b' := by
  have hdrop := @dropStale_eq t ht.outerCandidates (fun k hmem _ => (hk k hmem).required)
  refine ⟨_, h.advances hread hdrop ?_, ?_⟩
  · simpa [htext] using hlength
  · refine arrives_of_break htext htail ⟨ht.outerCandidates, ht.count, ht.tokens, ht.indents⟩ ?_
      (Blocks.close_of_head hlevel (Nat.le_refl _))
    intro k hmem
    have hfree := hk k (Option.mem_filter_iff.1 hmem).1
    exact ⟨hfree.required, hfree.line⟩

theorem Settles.arrives_at_token {b' : Blocks} (h : Settles s u c rest b)
    (hread : u.readToken c rest = .ok t) (ht : t.Holds b') (hlevel : b'.columns.head? = some n)
    (hk : ∀ k ∈ t.candidate, Free (t.place.line - 1) k ∧ 0 < t.place.line)
    (hallowed : t.keyAllowed = true) (htoken : TokenStart t.cursor.rest)
    (hlength : t.cursor.rest.length < (c :: rest).length) :
    ∃ t', Advances s t' ∧ t'.Arrives n t.place.column t.cursor.rest b' := by
  have hdrop := @dropStale_eq t ht.outerCandidates (fun k hmem _ => (hk k hmem).1.required)
  have hnone : t.candidate.filter (fun k => !KeyCandidate.isStale k t.place) = none := by
    cases hcandidate : t.candidate with
    | none => rfl
    | some k =>
        obtain ⟨hfree, hpos⟩ := hk k hcandidate
        have hlt : k.place.line < t.place.line := by
          have hline := hfree.line
          omega
        simp [Option.filter, KeyCandidate.isStale, hlt]
  refine ⟨_, h.advances hread hdrop hlength, ?_⟩
  exact arrives_of_tokenStart htoken ⟨ht.outerCandidates, ht.count, ht.tokens, ht.indents⟩ hnone
    hallowed (Blocks.close_of_head hlevel (Nat.le_refl _))

/-! ### Scalars of each style -/

theorem head_not_isGap_of_endsWord (h : endsWord cs = false) : cs.head?.any isGap = false := by
  cases cs with
  | nil => rfl
  | cons c cs =>
      simp only [endsWord, isGapOrBreak, Bool.or_eq_false_iff] at h
      exact h.1

theorem notMem_firstIndicators (h : PlainWord (c :: cs)) : c ∉ firstIndicators := by
  have hindicator := h.not_hasIndicator
  simp only [hasIndicator, startsLikeIndicator, Bool.or_eq_false_iff] at hindicator
  simpa using hindicator.1.2.1

theorem not_endsWord_of_plainWord (h : PlainWord (c :: cs)) (hc : c = '?' ∨ c = ':' ∨ c = '-') :
    endsWord (cs ++ tail) = false := by
  have hindicator := h.not_hasIndicator
  simp only [hasIndicator, startsLikeIndicator, Bool.or_eq_false_iff,
    Bool.and_eq_false_iff] at hindicator
  obtain ⟨⟨-, -, hends⟩, -⟩ := hindicator
  have hcs : endsWord cs = false := by
    rcases hc with rfl | rfl | rfl <;> simpa using hends
  cases cs with
  | nil => simp [endsWord] at hcs
  | cons d cs => exact hcs

theorem beginsPlain_of_plainWord (hflow : u.inFlow = false) (h : PlainWord (c :: cs)) :
    u.beginsPlain c (cs ++ tail) = true := by
  have hnot := notMem_firstIndicators h
  have hink := h.isInk_head c rfl
  have hgap : isGapOrBreak c = false := by
    simp [isGapOrBreak, not_isGap_of_isInk hink, not_isBreak_of_isInk hink]
  unfold beginsPlain
  split
  · next hdash =>
      have hends : endsWord (cs ++ tail) = false :=
        not_endsWord_of_plainWord h (.inr (.inr (by simpa using hdash)))
      rw [head_not_isGap_of_endsWord hends]
      rfl
  · split
    · next hor =>
        simp only [Bool.or_eq_true, beq_iff_eq] at hor
        have hends : endsWord (cs ++ tail) = false :=
          not_endsWord_of_plainWord h (hor.elim .inl fun h => .inr (.inl h))
        simp [hflow, hends]
    · simp [hgap, hnot]

theorem readToken_plain (hflow : u.inFlow = false) (hword : PlainWord (c :: cs))
    (hmark : (u.place.column == 0 && atDocumentMark (c :: (cs ++ tail))) = false) :
    u.readToken c (cs ++ tail) = u.plainPart := by
  have hbegins : u.beginsPlain c (cs ++ tail) = true := beginsPlain_of_plainWord hflow hword
  have hsign (d : Char) (hd : d = '?' ∨ d = ':' ∨ d = '-') :
      (c == d && endsWord (cs ++ tail)) = false := by
    cases hcd : c == d with
    | true =>
        obtain rfl : c = d := by simpa using hcd
        simp [not_endsWord_of_plainWord hword hd]
    | false => rfl
  have hnot := notMem_firstIndicators hword
  simp only [firstIndicators, List.mem_cons, List.not_mem_nil, or_false, not_or] at hnot
  unfold readToken
  simp [hmark, hflow, hsign, hbegins, hnot]

theorem plainPart_eq {p : PlainText} (hcandidate : u.candidate = none)
    (hread : plainFrom u.inFlow (u.indent + 1).toNat u.place [] .none u.place u.cursor.rest =
      .ok p) :
    ∃ k : Option KeyCandidate, (∀ j ∈ k, NotedHere u j) ∧ (u.keyAllowed = true → k.isSome) ∧
      u.plainPart =
        .ok { u.add (.scalar .plain (String.ofList p.text)) u.place with
          candidate := k, cursor := p.after, keyAllowed := p.broken } := by
  obtain ⟨k, hnote, hk, hsome⟩ := noteCandidate_eq hcandidate
  refine ⟨k, hk, hsome, ?_⟩
  unfold plainPart
  rw [hnote, Outcome.ok_bind]
  change (plainFrom u.inFlow (u.indent + 1).toNat u.place [] .none u.place u.cursor.rest >>= _) = _
  rw [hread]
  rfl

theorem tokenStart_of_plainWord {rest : List Char} (h : PlainWord cs) :
    TokenStart (cs ++ rest) := by
  obtain ⟨c, cs, rfl⟩ := List.exists_cons_of_ne_nil h.ne_nil
  apply tokenStart_cons (h.isInk_head c rfl)
  rintro rfl
  exact absurd (notMem_firstIndicators h) (by decide)

theorem Behind.plain (h : s.Behind n (' ' :: (cs ++ '\n' :: tail)) b) (hword : PlainWord cs)
    (htail : LineStart tail column rest) (hcolumn : column ≤ n) :
    ∃ t, Advances s t ∧ t.Arrives n column rest (b.add [.scalar .plain (String.ofList cs)]) := by
  obtain ⟨c, cs, rfl⟩ := List.exists_cons_of_ne_nil hword.ne_nil
  obtain ⟨u, hu, hindent, hplace⟩ := h.settles (tokenStart_of_plainWord hword)
  obtain ⟨p, rfl, hpline, hplain⟩ := @plainFrom_line (n + 1) u.place u.place (c :: cs) hword
    tail rest column htail (by omega) (by omega)
  have hsum : (u.indent + 1).toNat = n + 1 := by omega
  obtain ⟨k, hk, -, hpart⟩ := @plainPart_eq u ⟨c :: cs, true, ⟨p, rest⟩⟩ hu.candidate (by
    rw [hu.holds.inFlow, hu.text, hsum]
    exact hplain)
  have hmark : (u.place.column == 0 && atDocumentMark (c :: (cs ++ '\n' :: tail))) = false := by
    have hne : u.place.column ≠ 0 := by omega
    simp [hne]
  have hread := (readToken_plain hu.holds.inFlow hword hmark).trans hpart
  have hholds := hu.holds.add (.scalar .plain (String.ofList (c :: cs))) u.place
  refine hu.arrives_at_token hread ⟨hholds.outerCandidates, hholds.count, hholds.tokens,
    hholds.indents⟩ h.level ?_ rfl htail.toTokenStart ?_
  · intro j hj
    have hfree := (hk j hj).free hu.holds h.level hplace
    change Free (p.line - 1) j ∧ 0 < p.line
    rw [hpline]
    exact ⟨hfree, Nat.succ_pos _⟩
  · simp [htail.eq]
    omega

theorem Behind.quoted {style : Style} {quote : Char} {value : String}
    (h : s.Behind n (' ' :: quote :: cs) b) (hstart : TokenStart (quote :: cs))
    (hquote : ∀ u : Lexer, u.inFlow = false →
      u.readToken quote cs = u.candidatePart (quotedScalar style))
    (hread : ∀ place : Place, ∃ p : Place, place.line ≤ p.line ∧
      quotedScalar style place ⟨place, quote :: cs⟩ = .ok (.scalar style value, ⟨p, '\n' :: tail⟩))
    (htail : LineStart tail column rest) (hlength : tail.length < cs.length) :
    ∃ t, Advances s t ∧ t.Arrives n column rest (b.add [.scalar style value]) := by
  obtain ⟨u, hu, hindent, hplace⟩ := h.settles hstart
  obtain ⟨p, hline, hscalar⟩ := hread u.place
  have hcursor : u.cursor = ⟨u.place, quote :: cs⟩ := by rw [← hu.text]; rfl
  rw [← hcursor] at hscalar
  obtain ⟨k, hk, hpart⟩ := candidatePart_eq hu.candidate hscalar
  have hholds := hu.holds.add (.scalar style value) u.place
  refine hu.arrives_over_break ((hquote u hu.holds.inFlow).trans hpart) ⟨hholds.outerCandidates,
    hholds.count, hholds.tokens, hholds.indents⟩ h.level ?_ rfl htail hlength
  intro j hj
  have hfree := (hk j hj).free hu.holds h.level hplace
  exact ⟨hfree.required, Nat.le_trans hfree.line hline⟩

theorem readToken_singleQuote (hflow : u.inFlow = false) :
    u.readToken '\'' cs = u.candidatePart (quotedScalar .single) := by
  simp [readToken, hflow, atDocumentMark]

theorem readToken_doubleQuote (hflow : u.inFlow = false) :
    u.readToken '"' cs = u.candidatePart (quotedScalar .double) := by
  simp [readToken, hflow, atDocumentMark]

theorem Behind.single {value : String}
    (h : s.Behind n (' ' :: (singleQuoted (n + 2) value.toList ++ '\n' :: tail)) b)
    (hcs : SingleText value.toList) (htail : LineStart tail column rest) :
    ∃ t, Advances s t ∧ t.Arrives n column rest (b.add [.scalar .single value]) := by
  rw [singleQuoted_append] at h
  have hlength : tail.length < (singleRest (n + 2) false value.toList ('\n' :: tail)).length := by
    simp [singleRest]
    omega
  refine Behind.quoted h (tokenStart_cons (by decide) (by decide))
    (fun u hu => readToken_singleQuote hu) ?_ htail hlength
  intro place
  obtain ⟨p, hline, hread⟩ := @singleFrom_singleQuoted (n + 2) place place.next value.toList
    ('\n' :: tail) (by omega) hcs (Nat.succ_pos _) (by simp)
  refine ⟨p, hline, ?_⟩
  change (singleFrom place [] .none false place.next
    (singleRest (n + 2) false value.toList ('\n' :: tail)) >>= _) = _
  rw [hread, Outcome.ok_bind]
  dsimp only
  rw [String.ofList_toList]
  rfl

theorem Behind.double {value : String}
    (h : s.Behind n (' ' :: (doubleQuoted value.toList ++ '\n' :: tail)) b)
    (htail : LineStart tail column rest) :
    ∃ t, Advances s t ∧ t.Arrives n column rest (b.add [.scalar .double value]) := by
  have hquoted : doubleQuoted value.toList ++ '\n' :: tail =
      '"' :: (value.toList.flatMap escape ++ '"' :: '\n' :: tail) := by
    simp [doubleQuoted]
  rw [hquoted] at h
  refine Behind.quoted h (tokenStart_cons (by decide) (by decide))
    (fun u hu => readToken_doubleQuote hu) ?_ htail (by simp; omega)
  intro place
  obtain ⟨p, hline, hread⟩ := @doubleFrom_doubleQuoted place place.next value.toList
    ('\n' :: tail) [] [] (Nat.succ_pos _)
  refine ⟨p, Nat.le_of_eq hline.symm, ?_⟩
  change (doubleFrom place [] (.ofBlanks []) .none place.next
    (value.toList.flatMap escape ++ '"' :: '\n' :: tail) >>= _) = _
  rw [hread, Outcome.ok_bind]
  dsimp only
  rw [List.reverse_nil, List.nil_append, List.nil_append, String.ofList_toList]
  rfl

theorem Behind.literal {value : String}
    (h : s.Behind n
      (' ' :: (literalBlock (n + 2) value.toList ++ (finalBreak value.toList ++ tail))) b)
    (hcs : Unescaped value.toList) (hne : value.toList ≠ []) (htail : LineStart tail column rest)
    (hcolumn : column ≤ n) :
    ∃ t, Advances s t ∧ t.Arrives n column rest (b.add [.scalar .literal value]) := by
  obtain ⟨lines, hlines⟩ : ∃ lines, literalBlock (n + 2) value.toList ++
      (finalBreak value.toList ++ tail) = '|' :: lines := by
    simp [literalBlock]
  rw [hlines] at h
  obtain ⟨u, hu, hindent, hplace⟩ := h.settles (tokenStart_cons (by decide) (by decide))
  obtain ⟨p, rfl, hscalar⟩ := @blockScalar_literalBlock n u.place u.place value.toList tail rest
    column hcs.isPrintable hne htail hcolumn
  have hcursor : u.cursor = ⟨u.place, '|' :: lines⟩ := by rw [← hu.text]; rfl
  rw [hlines, ← hcursor, ← hindent, String.ofList_toList] at hscalar
  have hread : u.readToken '|' lines = .ok
      { u.add (.scalar .literal value) u.place with cursor := ⟨p, rest⟩, keyAllowed := true } := by
    have hpart : u.readToken '|' lines = u.blockPart .literal := by
      simp [readToken, hu.holds.inFlow, atDocumentMark]
    have hdrop : u.dropCandidate = .ok u := by simp [dropCandidate, hu.candidate]
    rw [hpart, blockPart, hdrop, Outcome.ok_bind, hscalar]
    rfl
  have hholds := hu.holds.add (.scalar .literal value) u.place
  refine hu.arrives_at_token hread ⟨hholds.outerCandidates, hholds.count, hholds.tokens,
    hholds.indents⟩ h.level ?_ rfl htail.toTokenStart ?_
  · intro j hj
    change j ∈ u.candidate at hj
    simp [hu.candidate] at hj
  · rw [← hlines, htail.eq]
    simp [literalBlock]
    omega

/-! ### Empty brackets -/

def brackets : List (Char × Char × Token × Token) :=
  [('[', ']', .flowListStart, .flowListEnd), ('\x7b', '\x7d', .flowTableStart, .flowTableEnd)]

theorem readToken_brackets {opening closing : Char} {first last : Token}
    (h : (opening, closing, first, last) ∈ brackets) (u : Lexer) (rest : List Char) :
    u.readToken opening rest = u.openFlow first ∧ u.readToken closing rest = u.closeFlow last := by
  simp only [brackets, List.mem_cons, Prod.mk.injEq, List.not_mem_nil, or_false] at h
  rcases h with ⟨rfl, rfl, rfl, rfl⟩ | ⟨rfl, rfl, rfl, rfl⟩
  all_goals simp [readToken, atDocumentMark]

theorem tokenStart_brackets {opening closing : Char} {first last : Token}
    (h : (opening, closing, first, last) ∈ brackets) (rest : List Char) :
    TokenStart (opening :: rest) ∧ TokenStart (closing :: rest) := by
  simp only [brackets, List.mem_cons, Prod.mk.injEq, List.not_mem_nil, or_false] at h
  rcases h with ⟨rfl, rfl, rfl, rfl⟩ | ⟨rfl, rfl, rfl, rfl⟩
  all_goals
    exact ⟨tokenStart_cons (by decide) (by decide), tokenStart_cons (by decide) (by decide)⟩

theorem fresh?_of_notedHere {k : Option KeyCandidate} (hk : ∀ j ∈ k, NotedHere u j)
    (hplace : t.place = u.place.next) : t.fresh? k = .ok k := by
  cases k with
  | none => rfl
  | some j =>
      have hj := (hk j rfl).place
      have hstale : KeyCandidate.isStale j t.place = false := by
        simp [KeyCandidate.isStale, hplace, hj, Place.next]
      simp [fresh?, hstale]

theorem step_closing {opening closing : Char} {first last : Token} {k : Option KeyCandidate}
    (hkind : (opening, closing, first, last) ∈ brackets) (houter : t.outerCandidates = [k])
    (hcandidate : t.candidate = none) (htext : t.cursor.rest = closing :: rest)
    (hfresh : t.fresh? k = .ok k) :
    t.dropStale = .ok t ∧
      t.step = (t.closeFlow last).bind fun t => t.dropStale.bind fun t => .ok (t, false) := by
  have hflow : t.inFlow = true := by simp [Lexer.inFlow, houter]
  have hdrop : t.dropStale = .ok t := by
    obtain ⟨cursor, indent, outerIndents, candidate, outerCandidates, keyAllowed, tokens,
      count⟩ := t
    obtain rfl : outerCandidates = [k] := houter
    obtain rfl : candidate = none := hcandidate
    simp only [dropStale, List.reverse_singleton, List.mapM_cons, List.mapM_nil, hfresh]
    rfl
  have hskip : t.skipToToken = t := by
    unfold skipToToken
    rw [hflow, htext, toNextToken_tokenStart (tokenStart_brackets hkind rest).2, ← htext]
    rfl
  have hclose : t.closeBlocks t.place.column = t := by simp [closeBlocks, hflow]
  refine ⟨hdrop, ?_⟩
  unfold step
  rw [hskip, hdrop, Outcome.ok_bind]
  dsimp only
  rw [hclose, htext]
  dsimp only
  rw [(readToken_brackets hkind t rest).2]
  rfl

/-- Behind an opening bracket; the brackets may be a key as a whole. -/
structure Inside (t : Lexer) (b : Blocks) (k : Option KeyCandidate) (rest : List Char) : Prop where
  holds : Holds { t with outerCandidates := [] } b
  outerCandidates : t.outerCandidates = [k]
  candidate : t.candidate = none
  text : t.cursor.rest = rest

theorem Settles.openFlow {opening closing : Char} {first last : Token}
    (h : Settles s u opening rest b) (hkind : (opening, closing, first, last) ∈ brackets) :
    ∃ t k, Inside t (b.add [first]) k rest ∧ t.place = u.place.next ∧
      (∀ j ∈ k, NotedHere u j) ∧ u.readToken opening rest = .ok t := by
  obtain ⟨k, hnote, hk, -⟩ := noteCandidate_eq h.candidate
  have hholds := h.holds.add first u.place
  refine ⟨{ u.add first u.place with
    cursor := u.cursor.forward 1, candidate := none, outerCandidates := [k], keyAllowed := true },
    k, ⟨⟨rfl, hholds.count, hholds.tokens, hholds.indents⟩, rfl, rfl, ?_⟩, rfl, hk, ?_⟩
  · simp [Cursor.forward, h.text]
  · rw [(readToken_brackets hkind u _).1, Lexer.openFlow, hnote, Outcome.ok_bind,
      ← h.holds.outerCandidates]
    rfl

theorem Inside.closeFlow {k : Option KeyCandidate} (h : Inside t b k (c :: rest)) (last : Token) :
    ∃ v : Lexer, v.Holds (b.add [last]) ∧ v.cursor.rest = rest ∧ v.place.line = t.place.line ∧
      v.candidate = k ∧ t.closeFlow last = .ok v := by
  have hadd := h.holds.add last t.place
  refine ⟨{ t.add last t.place with
    cursor := t.cursor.forward 1, candidate := k, outerCandidates := [], keyAllowed := false },
    ⟨rfl, hadd.count, hadd.tokens, hadd.indents⟩, ?_, rfl, rfl, ?_⟩
  · simp [Cursor.forward, h.text]
  · simp [Lexer.closeFlow, dropCandidate, h.candidate, h.outerCandidates, indicator, Lexer.add,
      place]

theorem Behind.brackets {opening closing : Char} {first last : Token}
    (h : s.Behind n (' ' :: opening :: closing :: '\n' :: tail) b)
    (hkind : (opening, closing, first, last) ∈ brackets) (htail : LineStart tail column rest) :
    ∃ t, Passes s t ∧ t.Arrives n column rest (b.add [first, last]) := by
  obtain ⟨u, hu, hindent, hplace⟩ := h.settles (tokenStart_brackets hkind _).1
  obtain ⟨t, k, ht, htplace, hk, hopen⟩ := hu.openFlow hkind
  have hfresh := fresh?_of_notedHere hk htplace
  obtain ⟨hdrop, hstep⟩ := step_closing hkind ht.outerCandidates ht.candidate ht.text hfresh
  have hadvance := hu.advances hopen hdrop (by simp [ht.text])
  obtain ⟨v, hv, hvtext, hvline, hvcandidate, hclose⟩ := ht.closeFlow last
  have hline : v.place.line = u.place.line := by
    rw [hvline, htplace]
    rfl
  have hfree : ∀ j ∈ v.candidate, Free u.place.line j := by
    rw [hvcandidate]
    intro j hj
    exact (hk j hj).free hu.holds h.level hplace
  have hdrop' := @dropStale_eq v hv.outerCandidates (fun j hj _ => (hfree j hj).required)
  have hstep' : t.step = .ok
      ({ v with candidate := v.candidate.filter fun k => !KeyCandidate.isStale k v.place },
        false) := by
    rw [hstep, hclose]
    simp only [Except.bind]
    rw [hdrop']
  rw [Blocks.add_add] at hv
  refine ⟨_, .tail (.single hadvance) ⟨hstep', ?_⟩, ?_⟩
  · simp [hvtext, ht.text]
  · refine arrives_of_break hvtext htail ⟨hv.outerCandidates, hv.count, hv.tokens, hv.indents⟩ ?_
      (Blocks.close_of_head h.level (Nat.le_refl _))
    intro j hj
    have hj' := hfree j (Option.mem_filter_iff.1 hj).1
    exact ⟨hj'.required, Nat.le_trans hj'.line (Nat.le_of_eq hline.symm)⟩

end Lexer
end Yaml
end DocClaims
