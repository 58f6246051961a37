import DocClaims.Proofs.Yaml.ScalarTokens

/-!
# Tokens of written data

What the lexer gives for data in block form. The tokens of a value do not depend
on what stands around it, but a list under a key opens no block of its own.
-/

namespace DocClaims
namespace Yaml

/-! ### Data and their tokens -/

/-- A key that is written as it is. -/
structure IsKey (key : String) : Prop where
  plain : Style.ofText key = .plain
  length_le : key.toList.length ≤ 1024

/-- Data without fractions, under keys that need no quotes. -/
inductive Regular : Datum → Prop
  | null : Regular .null
  | flag (b : Bool) : Regular (.flag b)
  | count (n : Nat) : Regular (.count n)
  | text (s : String) : Regular (.text s)
  | list {ds : List Datum} (h : ∀ d ∈ ds, Regular d) : Regular (.list ds)
  | table {es : List (String × Datum)} (hkeys : ∀ e ∈ es, IsKey e.1) (h : ∀ e ∈ es, Regular e.2) :
      Regular (.table es)

mutual

/-- The tokens of a value; under a key a list begins without a token. -/
def nodeTokens (underKey : Bool) : Datum → List Token
  | .text s => [.scalar (Style.ofText s) s]
  | .list [] => [.flowListStart, .flowListEnd]
  | .list (d :: ds) =>
      let ts := .dash :: (nodeTokens false d ++ itemTokens ds)
      if underKey then ts else .blockList :: (ts ++ [.blockEnd])
  | .table [] => [.flowTableStart, .flowTableEnd]
  | .table (e :: es) => .blockTable :: (entryToken e ++ entryTokens es ++ [.blockEnd])
  | d => [.scalar .plain ((atom? d).getD "")]

def itemTokens : List Datum → List Token
  | [] => []
  | d :: ds => .dash :: (nodeTokens false d ++ itemTokens ds)

def entryToken : String × Datum → List Token
  | (key, d) => .key :: .scalar .plain key :: .value :: nodeTokens true d

def entryTokens : List (String × Datum) → List Token
  | [] => []
  | e :: es => entryToken e ++ entryTokens es

end

theorem IsKey.plainWord {key : String} (h : IsKey key) : PlainWord key.toList := by
  rcases style_cases key with ⟨-, hword, -⟩ | ⟨hstyle, -⟩ | hstyle | ⟨hstyle, -⟩
  · exact hword
  all_goals
    rw [h.plain] at hstyle
    cases hstyle

namespace Lexer

variable {s u : Lexer} {b : Blocks} {n : Nat} {tail : List Char}

/-! ### Dashes -/

theorem Holds.openBlock (h : u.Holds b) (token : Token) :
    (u.openBlock token).Holds (b.openAt u.place.column token) := by
  have hopens := h.opensBlock u.place.column
  unfold Lexer.openBlock Blocks.openAt
  rw [hopens]
  split
  · have hadd := h.add token u.place
    exact ⟨hadd.outerCandidates, hadd.count, hadd.tokens, congrArg (List.cons _) hadd.indents⟩
  · exact h

theorem openBlock_frame (u : Lexer) (token : Token) :
    (u.openBlock token).cursor = u.cursor ∧ (u.openBlock token).candidate = u.candidate := by
  unfold openBlock
  split
  · exact ⟨rfl, rfl⟩
  · exact ⟨rfl, rfl⟩

theorem Arrives.dash (h : s.Arrives n n ('-' :: ' ' :: tail) b)
    (hcolumns : ∀ c ∈ b.columns.head?, c ≤ n) :
    ∃ t, Advances s t ∧ t.Behind n (' ' :: tail) ((b.openAt n .blockList).add [.dash]) ∧
      t.keyAllowed = true ∧ t.place.column = n + 1 := by
  obtain ⟨u, hu, hallowed, hcolumn⟩ := settles_of_arrives h
  obtain ⟨hcursor, hcandidate⟩ := openBlock_frame u .blockList
  have hholds := (hu.holds.openBlock .blockList).add .dash (u.openBlock .blockList).place
  rw [hcolumn] at hholds
  have hread : u.readToken '-' (' ' :: tail) = .ok
      { (u.openBlock .blockList).indicator .dash 1 with keyAllowed := true } := by
    have hdash : u.readToken '-' (' ' :: tail) = u.dash := by
      simp [readToken, atDocumentMark, endsWord, isGapOrBreak, isGap]
    have hdrop : (u.openBlock .blockList).dropCandidate = .ok (u.openBlock .blockList) := by
      simp [dropCandidate, hcandidate, hu.candidate]
    rw [hdash, Lexer.dash, hallowed, hdrop]
    simp
  have hdrop := @dropStale_of_none
    { (u.openBlock .blockList).indicator .dash 1 with keyAllowed := true } hholds.outerCandidates
    (hcandidate.trans hu.candidate)
  have htext : ((u.openBlock .blockList).cursor.forward 1).rest = ' ' :: tail := by
    simp [hcursor, Cursor.forward, hu.text]
  have hplace : ((u.openBlock .blockList).cursor.forward 1).place.column = n + 1 := by
    rw [hcursor, ← hcolumn]
    rfl
  refine ⟨_, hu.advances hread hdrop ?_, ⟨⟨hholds.outerCandidates, hholds.count, hholds.tokens,
    hholds.indents⟩, hcandidate.trans hu.candidate, htext, ?_, ?_⟩, rfl, hplace⟩
  · change ((u.openBlock .blockList).cursor.forward 1).rest.length < _
    rw [htext]
    simp
  · change n < ((u.openBlock .blockList).cursor.forward 1).place.column
    omega
  · exact Blocks.head_openAt hcolumns

/-! ### Keys -/

theorem Holds.indent_le (h : s.Holds b) (hcolumns : ∀ c ∈ b.columns.head?, c ≤ n) :
    s.indent ≤ n := by
  have hindents := h.indents
  cases hb : b.columns with
  | nil =>
      rw [hb] at hindents
      simp at hindents
      omega
  | cons c cs =>
      rw [hb] at hindents
      have hc := hcolumns c (by simp [hb])
      simp at hindents
      omega

theorem atDocumentMark_key {cs : List Char} (h : PlainWord cs) (tail : List Char) :
    atDocumentMark (cs ++ ':' :: tail) = false := by
  have hindicator := h.not_hasIndicator
  simp only [hasIndicator, Bool.or_eq_false_iff] at hindicator
  have hmark (d : Char) (hd : d ≠ ':') (hmarks : [d, d, d].isPrefixOf cs = false) :
      [d, d, d].isPrefixOf (cs ++ ':' :: tail) = false := by
    rcases cs with _ | ⟨a, _ | ⟨b, _ | ⟨c, cs⟩⟩⟩
    · simp [List.isPrefixOf, hd]
    · simp [List.isPrefixOf, hd]
    · simp [List.isPrefixOf, hd]
    · simpa [List.isPrefixOf] using hmarks
  have hdashes : "---".toList.isPrefixOf (cs ++ ':' :: tail) = false :=
    hmark '-' (by decide) hindicator.1.1.1
  have hdots : "...".toList.isPrefixOf (cs ++ ':' :: tail) = false :=
    hmark '.' (by decide) hindicator.1.1.2
  rw [atDocumentMark, hdashes, hdots]
  rfl

theorem insertAt_eq {last : PlacedToken} {older : List PlacedToken} (more : List PlacedToken)
    (htokens : s.tokens = last :: older) (hcount : s.count = s.tokens.length) :
    s.insertAt older.length more =
      { s with tokens := last :: (more.reverse ++ older), count := s.count + more.length } := by
  have hone : s.count - older.length = 1 := by
    rw [hcount, htokens, List.length_cons]
    omega
  simp [insertAt, hone, htokens]

theorem Holds.confirmKey {k : KeyCandidate} {token : Token} {place : Place}
    {older : List PlacedToken} (h : s.Holds (b.add [token]))
    (htokens : s.tokens = ⟨token, place⟩ :: older) (hk : k.number = older.length) :
    (s.confirmKey k).Holds ((b.openAt k.place.column .blockTable).add [.key, token]) ∧
      (s.confirmKey k).cursor = s.cursor ∧ (s.confirmKey k).candidate = none := by
  have holder : older.reverse.map (·.token) = b.tokens := by
    have hall := h.tokens
    rw [htokens, List.reverse_cons, List.map_append] at hall
    exact (List.append_inj' hall rfl).1
  have hcount := h.count
  have hinsert (more : List PlacedToken) :=
    @insertAt_eq { s with candidate := none } ⟨token, place⟩ older more htokens h.count
  have hopens : ({ s with candidate := none } : Lexer).opensBlock k.place.column =
      b.columns.head?.all (· < k.place.column) := h.opensBlock k.place.column
  unfold Lexer.confirmKey Blocks.openAt
  dsimp only
  rw [hk, hinsert, hinsert, hopens]
  split
  · refine ⟨⟨h.outerCandidates, ?_, ?_, congrArg (List.cons _) h.indents⟩, rfl, rfl⟩
    · simp [enterBlock, hcount, htokens]
    · simp [enterBlock, Blocks.add, ← holder]
  · refine ⟨⟨h.outerCandidates, ?_, ?_, h.indents⟩, rfl, rfl⟩
    · simp [hcount, htokens]
    · simp [Blocks.add, ← holder]

theorem dropStale_of_fresh {k : KeyCandidate} (houter : s.outerCandidates = [])
    (hcandidate : s.candidate = some k) (hfresh : KeyCandidate.isStale k s.place = false) :
    s.dropStale = .ok s := by
  have hkeep : s.candidate.filter (fun k => !KeyCandidate.isStale k s.place) = s.candidate := by
    simp [hcandidate, Option.filter, hfresh]
  rw [dropStale_eq houter, hkeep]
  intro j hj hstale
  obtain rfl : k = j := by simpa [hcandidate] using hj
  simp [hfresh] at hstale

theorem step_colon {k : KeyCandidate} {b' : Blocks} (hs : s.Holds b)
    (hcandidate : s.candidate = some k) (hfresh : KeyCandidate.isStale k s.place = false)
    (htext : s.cursor.rest = ':' :: tail) (htail : endsWord tail)
    (hindent : s.indent ≤ s.place.column) (hconfirm : (s.confirmKey k).Holds b')
    (hnone : (s.confirmKey k).candidate = none) :
    s.step = .ok ({ (s.confirmKey k).indicator .value 1 with keyAllowed := false }, false) := by
  have hdrop := dropStale_of_fresh hs.outerCandidates hcandidate hfresh
  have hskip : s.skipToToken = s := by
    unfold skipToToken
    rw [hs.inFlow, htext, toNextToken_tokenStart (tokenStart_cons (by decide) (by decide)), ← htext]
    rfl
  have hread : s.readToken ':' tail = s.colon := by
    simp [readToken, atDocumentMark, htail]
  have hcolon : s.colon =
      .ok { (s.confirmKey k).indicator .value 1 with keyAllowed := false } := by
    rw [colon, hcandidate]
    rfl
  have hdrop' := @dropStale_of_none
    { (s.confirmKey k).indicator .value 1 with keyAllowed := false } hconfirm.outerCandidates hnone
  unfold step
  rw [hskip, hdrop, Outcome.ok_bind]
  dsimp only
  rw [closeBlocks_of_le hindent, htext]
  dsimp only
  rw [hread, hcolon, Outcome.ok_bind, hdrop']
  rfl

/-- Directly before the colon of a key, whose scalar is the last token. -/
structure AtColon (s : Lexer) (n : Nat) (k : KeyCandidate) (key tail : List Char) : Prop where
  candidate : s.candidate = some k
  fresh : KeyCandidate.isStale k s.place = false
  column : k.place.column = n
  text : s.cursor.rest = ':' :: tail
  indent_le : s.indent ≤ n
  lt_column : n < s.place.column
  last : ∃ place older, s.tokens = ⟨.scalar .plain (String.ofList key), place⟩ :: older ∧
    k.number = older.length

theorem Arrives.word {cs : List Char} (h : s.Arrives n n (cs ++ ':' :: tail) b)
    (hcolumns : ∀ c ∈ b.columns.head?, c ≤ n) (hword : PlainWord cs) (hlength : cs.length ≤ 1024)
    (htail : endsWord tail) :
    ∃ t k, Advances s t ∧ t.AtColon n k cs tail ∧
      t.Holds (b.add [.scalar .plain (String.ofList cs)]) := by
  obtain ⟨c, cs, rfl⟩ := List.exists_cons_of_ne_nil hword.ne_nil
  obtain ⟨u, hu, hallowed, hcolumn⟩ := settles_of_arrives h
  have hindent := hu.holds.indent_le hcolumns
  obtain ⟨k, hk, hsome, hpart⟩ := @plainPart_eq u ⟨c :: cs, false,
    ⟨u.place.forward (c :: cs).length, ':' :: tail⟩⟩ hu.candidate (by
      rw [hu.holds.inFlow, hu.text]
      exact plainFrom_key hword htail (by omega))
  obtain ⟨k, rfl⟩ := Option.isSome_iff_exists.1 (hsome hallowed)
  have hnoted := hk k rfl
  have hmark : (u.place.column == 0 && atDocumentMark (c :: (cs ++ ':' :: tail))) = false := by
    have hnot := atDocumentMark_key hword tail
    rw [List.cons_append] at hnot
    simp [hnot]
  have hread := (readToken_plain hu.holds.inFlow hword hmark).trans hpart
  have hholds := hu.holds.add (.scalar .plain (String.ofList (c :: cs))) u.place
  have hfresh : KeyCandidate.isStale k (u.place.forward (c :: cs).length) = false := by
    rw [KeyCandidate.isStale, hnoted.place]
    simp at hlength
    simp
    omega
  have hdrop := @dropStale_of_fresh
    { u.add (.scalar .plain (String.ofList (c :: cs))) u.place with
      candidate := some k
      cursor := ⟨u.place.forward (c :: cs).length, ':' :: tail⟩
      keyAllowed := false }
    k hholds.outerCandidates rfl hfresh
  have hshorter : (':' :: tail).length < (c :: (cs ++ ':' :: tail)).length := by
    simp only [List.length_cons, List.length_append]
    omega
  refine ⟨_, k, hu.advances hread hdrop hshorter, ⟨rfl, hfresh, ?_, rfl, hindent, ?_, ?_⟩,
    ⟨hholds.outerCandidates, hholds.count, hholds.tokens, hholds.indents⟩⟩
  · rw [hnoted.place, hcolumn]
  · change n < (u.place.forward (c :: cs).length).column
    rw [Place.column_forward, hcolumn, List.length_cons]
    omega
  · exact ⟨u.place, u.tokens, rfl, by rw [hnoted.number, hu.holds.count]⟩

theorem Arrives.key {key : String} (h : s.Arrives n n (key.toList ++ ':' :: tail) b)
    (hcolumns : ∀ c ∈ b.columns.head?, c ≤ n) (hkey : IsKey key) (htail : endsWord tail) :
    ∃ t, Passes s t ∧
      t.Behind n tail ((b.openAt n .blockTable).add [.key, .scalar .plain key, .value]) := by
  obtain ⟨t, k, hadvance, hcolon, hholds⟩ := h.word hcolumns hkey.plainWord hkey.length_le htail
  rw [String.ofList_toList] at hholds
  obtain ⟨place, older, htokens, hnumber⟩ := hcolon.last
  rw [String.ofList_toList] at htokens
  obtain ⟨hconfirm, hcursor, hnone⟩ := hholds.confirmKey htokens hnumber
  rw [hcolon.column] at hconfirm
  have hle : t.indent ≤ t.place.column := by
    have hindent := hcolon.indent_le
    have hcolumn := hcolon.lt_column
    omega
  have hstep := step_colon hholds hcolon.candidate hcolon.fresh hcolon.text htail hle hconfirm hnone
  have hvalue := hconfirm.add .value (t.confirmKey k).place
  have htext : ((t.confirmKey k).cursor.forward 1).rest = tail := by
    simp [hcursor, Cursor.forward, hcolon.text]
  refine ⟨_, .tail (.single hadvance) ⟨hstep, ?_⟩, ⟨⟨hvalue.outerCandidates, hvalue.count, ?_,
    hvalue.indents⟩, hnone, htext, ?_, Blocks.head_openAt hcolumns⟩⟩
  · change ((t.confirmKey k).cursor.forward 1).rest.length < _
    rw [htext, hcolon.text]
    simp
  · rw [Blocks.add_add] at hvalue
    exact hvalue.tokens
  · change n < ((t.confirmKey k).cursor.forward 1).place.column
    rw [hcursor]
    exact Nat.lt_succ_of_lt hcolon.lt_column

end Lexer
end Yaml
end DocClaims
