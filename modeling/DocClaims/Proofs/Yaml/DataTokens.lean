import DocClaims.Proofs.Number.Digits
import DocClaims.Proofs.Yaml.BlockTokens

/-!
# Reading written data as tokens

Every part that the writer puts out leaves the lexer behind it, with the tokens of
the part. The parts of a list or a table follow by induction on the data.
-/

namespace DocClaims
namespace Yaml

/-! ### Words for single values -/

structure IsInert (c : Char) : Prop where
  isPrintable : isPrintable c
  isBreak : isBreak c = false
  isSpace : isSpace c = false
  ne_colon : c ≠ ':'
  ne_sign : c ≠ '#'
  ne_dash : c ≠ '-'
  ne_point : c ≠ '.'
  ne_question : c ≠ '?'
  noIndicator : c ∉ firstIndicators

theorem isInert_of_isAsciiDigit {c : Char} (h : Text.isAsciiDigit c) : IsInert c := by
  obtain ⟨n, hn, rfl⟩ : ∃ n < 10, c = Char.ofNat (48 + n) := by
    simp only [Text.isAsciiDigit, Bool.and_eq_true, decide_eq_true_eq] at h
    have hlow : 48 ≤ c.toNat := h.1
    have hhigh : c.toNat ≤ 57 := h.2
    refine ⟨c.toNat - 48, by omega, ?_⟩
    rw [Nat.add_sub_cancel' hlow, Char.ofNat_toNat]
  have hall : ∀ n < 10, isPrintable (Char.ofNat (48 + n)) ∧ isBreak (Char.ofNat (48 + n)) = false ∧
      isSpace (Char.ofNat (48 + n)) = false ∧ Char.ofNat (48 + n) ≠ ':' ∧
      Char.ofNat (48 + n) ≠ '#' ∧ Char.ofNat (48 + n) ≠ '-' ∧ Char.ofNat (48 + n) ≠ '.' ∧
      Char.ofNat (48 + n) ≠ '?' ∧ Char.ofNat (48 + n) ∉ firstIndicators := by decide
  obtain ⟨h1, h2, h3, h4, h5, h6, h7, h8, h9⟩ := hall n hn
  exact ⟨h1, h2, h3, h4, h5, h6, h7, h8, h9⟩

theorem hasInnerIndicator_of_isInert {before : Char} {cs : List Char} (h : ∀ c ∈ cs, IsInert c) :
    hasInnerIndicator before cs = false := by
  induction cs generalizing before with
  | nil => rfl
  | cons c cs ih =>
      have hc := h c (by simp)
      simp [hasInnerIndicator, hc.ne_colon, hc.ne_sign, ih fun d hd => h d (by simp [hd])]

theorem any_getLast?_eq_false {p : Char → Bool} {cs : List Char} (h : ∀ c ∈ cs, p c = false) :
    cs.getLast?.any p = false := by
  cases hlast : cs.getLast? with
  | none => rfl
  | some c => exact h c (List.mem_of_getLast? hlast)

theorem plainWord_of_isInert {cs : List Char} (hne : cs ≠ []) (h : ∀ c ∈ cs, IsInert c) :
    PlainWord cs := by
  refine ⟨hne, fun c hc => (h c hc).isPrintable, ?_⟩
  have hloose : ∀ c ∈ cs, (isSpace c || isBreak c) = false := by
    intro c hc
    rw [(h c hc).isSpace, (h c hc).isBreak]
    rfl
  have hlast := any_getLast?_eq_false hloose
  have hbreak : cs.any isBreak = false := by
    rw [List.any_eq_false]
    intro c hc
    simp [(h c hc).isBreak]
  obtain ⟨c, cs, rfl⟩ := List.exists_cons_of_ne_nil hne
  have hc := h c (by simp)
  have hhead : ((c :: cs).head?.any fun c => isSpace c || isBreak c) = false := hloose c (by simp)
  have hinner : hasInnerIndicator c cs = false :=
    hasInnerIndicator_of_isInert fun d hd => h d (by simp [hd])
  have hmarks : "---".toList.isPrefixOf (c :: cs) = false ∧
      "...".toList.isPrefixOf (c :: cs) = false := by
    simp [List.isPrefixOf, hc.ne_dash.symm, hc.ne_point.symm]
  have hstart : startsLikeIndicator (c :: cs) = false := by
    simp [startsLikeIndicator, hc.noIndicator, hc.ne_colon, hc.ne_question, hc.ne_dash]
  simp only [allowsPlain, hasLooseEnd, hasIndicator, hhead, hlast, hbreak, hmarks, hstart, hinner]
  rfl

theorem plainWord_decimalDigits (n : Nat) : PlainWord (Number.decimalDigits n) :=
  plainWord_of_isInert (Number.decimalDigits_ne_nil n)
    fun _ hc => isInert_of_isAsciiDigit (Number.isAsciiDigit_of_mem_decimalDigits hc)

/-- A value whose text is a single word. -/
inductive IsWord : Datum → Prop
  | null : IsWord .null
  | flag (b : Bool) : IsWord (.flag b)
  | count (n : Nat) : IsWord (.count n)

theorem IsWord.atom {d : Datum} (h : IsWord d) :
    ∃ word, atom? d = some word ∧ PlainWord word.toList := by
  cases h with
  | null => exact ⟨"null", rfl, by decide, List.all_eq_true.1 (by decide), by decide⟩
  | flag b =>
      cases b with
      | true => exact ⟨"true", rfl, by decide, List.all_eq_true.1 (by decide), by decide⟩
      | false => exact ⟨"false", rfl, by decide, List.all_eq_true.1 (by decide), by decide⟩
  | count n => exact ⟨toString (n : Int), rfl, plainWord_decimalDigits n⟩

theorem IsWord.written {d : Datum} (h : IsWord d) :
    ∃ word : String, PlainWord word.toList ∧ atom? d = some word ∧
      (∀ n, afterKey n d = ' ' :: (word.toList ++ ['\n'])) ∧
      (∀ n, afterDash n d = word.toList ++ ['\n']) ∧
      ∀ underKey, nodeTokens underKey d = [.scalar .plain word] := by
  obtain ⟨word, hatom, hword⟩ := h.atom
  refine ⟨word, hword, hatom, ?_, ?_, ?_⟩
  · intro n
    cases h <;> simp_all [afterKey, Datum.count]
  · intro n
    cases h <;> simp_all [afterDash, Datum.count]
  · intro underKey
    cases h <;> simp_all [nodeTokens, Datum.count]

theorem afterKey_nil (n : Nat) : afterKey n (.list []) = [' ', '[', ']', '\n'] := by
  simp [afterKey, atom?]

theorem afterDash_nil (n : Nat) : afterDash n (.list []) = ['[', ']', '\n'] := by
  simp [afterDash, atom?]

theorem afterKey_emptyTable (n : Nat) : afterKey n (.table []) = [' ', '\x7b', '\x7d', '\n'] := by
  simp [afterKey, atom?]

theorem afterDash_emptyTable (n : Nat) : afterDash n (.table []) = ['\x7b', '\x7d', '\n'] := by
  simp [afterDash, atom?]

namespace Lexer

variable {s : Lexer} {b : Blocks} {n column : Nat} {rest tail : List Char}

theorem Behind.scalarLine {value : String}
    (h : s.Behind n (' ' :: (scalarLine (n + 2) value ++ tail)) b)
    (htail : LineStart tail column rest) (hcolumn : column ≤ n) :
    ∃ t, Passes s t ∧ t.Arrives n column rest (b.add [.scalar (Style.ofText value) value]) := by
  unfold Yaml.scalarLine at h
  rcases style_cases value with
    ⟨hstyle, hword, -⟩ | ⟨hstyle, hcs⟩ | hstyle | ⟨hstyle, hcs, hne, -⟩
  · simp only [hstyle, List.append_assoc, List.singleton_append] at h ⊢
    obtain ⟨t, hadvance, harrives⟩ := h.plain hword htail hcolumn
    rw [String.ofList_toList] at harrives
    exact ⟨t, .single hadvance, harrives⟩
  · simp only [hstyle, List.append_assoc, List.singleton_append] at h ⊢
    obtain ⟨t, hadvance, harrives⟩ := h.single hcs htail
    exact ⟨t, .single hadvance, harrives⟩
  · simp only [hstyle, List.append_assoc, List.singleton_append] at h ⊢
    obtain ⟨t, hadvance, harrives⟩ := h.double htail
    exact ⟨t, .single hadvance, harrives⟩
  · simp only [hstyle, List.append_assoc] at h ⊢
    obtain ⟨t, hadvance, harrives⟩ := h.literal hcs hne htail hcolumn
    exact ⟨t, .single hadvance, harrives⟩

end Lexer

/-! ### Lists and tables -/

/-- Behind a key or a dash the data are read as their tokens, up to the next line
that is not indented further. -/
structure Reads (d : Datum) : Prop where
  underKey : ∀ {s : Lexer} {n column : Nat} {tail rest : List Char} {b : Blocks},
    s.Behind n (afterKey n d ++ tail) b → LineStart tail column rest → column ≤ n →
      ∃ t, s.Passes t ∧ t.Arrives n column rest (b.add (nodeTokens true d))
  behindDash : ∀ {s : Lexer} {n column : Nat} {tail rest : List Char} {b : Blocks},
    s.Behind n (' ' :: (afterDash n d ++ tail)) b → s.keyAllowed = true → s.place.column = n + 1 →
      LineStart tail column rest → column ≤ n →
      ∃ t, s.Passes t ∧ t.Arrives n column rest (b.add (nodeTokens false d))

theorem lineStart_item (n : Nat) (d : Datum) (ds : List Datum) (tail : List Char) :
    LineStart (items n (d :: ds) ++ tail) n
      ('-' :: ' ' :: (afterDash n d ++ (items n ds ++ tail))) := by
  constructor
  · exact tokenStart_cons (by decide) (by decide)
  · simp [items, item]

theorem reads_items {n column : Nat} {tail rest : List Char} {d : Datum} {ds : List Datum}
    (hd : Reads d) (hds : ∀ e ∈ ds, Reads e) (htail : LineStart tail column rest)
    (hcolumn : column ≤ n) {s : Lexer} {b : Blocks}
    (h : s.Arrives n n ('-' :: ' ' :: (afterDash n d ++ (items n ds ++ tail))) b)
    (hcolumns : ∀ c ∈ b.columns.head?, c ≤ n) :
    ∃ t, s.Passes t ∧ t.Arrives n column rest
      ((b.openAt n .blockList).add (.dash :: (nodeTokens false d ++ itemTokens ds))) := by
  induction ds generalizing d s b with
  | nil =>
      obtain ⟨t, hdash, hbehind, hallowed, hplace⟩ := h.dash hcolumns
      obtain ⟨u, hpasses, harrives⟩ :=
        hd.behindDash hbehind hallowed hplace (by simpa [items] using htail) hcolumn
      refine ⟨u, .head hdash hpasses, ?_⟩
      rw [Blocks.add_add] at harrives
      simpa [itemTokens] using harrives
  | cons e es ih =>
      obtain ⟨t, hdash, hbehind, hallowed, hplace⟩ := h.dash hcolumns
      obtain ⟨u, hpasses, harrives⟩ :=
        hd.behindDash hbehind hallowed hplace (lineStart_item n e es tail) (Nat.le_refl _)
      rw [Blocks.add_add] at harrives
      have hhead := @Blocks.head_openAt_add b n .blockList hcolumns ([.dash] ++ nodeTokens false d)
      obtain ⟨v, hpasses', harrives'⟩ :=
        ih (hds e (by simp)) (fun f hf => hds f (by simp [hf])) harrives (Blocks.le_of_head hhead)
      refine ⟨v, .head hdash (hpasses.trans hpasses'), ?_⟩
      rw [Blocks.openAt_of_head hhead, Blocks.add_add] at harrives'
      simpa [itemTokens] using harrives'

theorem endsWord_afterKey (n : Nat) (d : Datum) (tail : List Char) :
    endsWord (afterKey n d ++ tail) := by
  unfold afterKey
  split <;> rfl

theorem lineStart_entry {n : Nat} {e : String × Datum} (hkey : IsKey e.1)
    (es : List (String × Datum)) (tail : List Char) :
    LineStart (entries n (e :: es) ++ tail) n (entry n e ++ (entries n es ++ tail)) := by
  refine ⟨?_, by simp [entries]⟩
  rw [entry, List.append_assoc]
  exact Lexer.tokenStart_of_plainWord hkey.plainWord

theorem entryToken_eq (e : String × Datum) :
    entryToken e = .key :: .scalar .plain e.1 :: .value :: nodeTokens true e.2 := by
  obtain ⟨key, d⟩ := e
  rw [entryToken]

theorem reads_entries {n column : Nat} {tail rest : List Char} {e : String × Datum}
    {es : List (String × Datum)} (he : IsKey e.1 ∧ Reads e.2)
    (hes : ∀ f ∈ es, IsKey f.1 ∧ Reads f.2) (htail : LineStart tail column rest)
    (hcolumn : column ≤ n) {s : Lexer} {b : Blocks}
    (h : s.Arrives n n (entry n e ++ (entries n es ++ tail)) b)
    (hcolumns : ∀ c ∈ b.columns.head?, c ≤ n) :
    ∃ t, s.Passes t ∧ t.Arrives n column rest
      ((b.openAt n .blockTable).add (entryToken e ++ entryTokens es)) := by
  induction es generalizing e s b with
  | nil =>
      rw [entry, List.append_assoc, List.cons_append] at h
      obtain ⟨t, hkey, hbehind⟩ := h.key hcolumns he.1 (endsWord_afterKey n e.2 _)
      obtain ⟨u, hpasses, harrives⟩ :=
        he.2.underKey hbehind (by simpa [entries] using htail) hcolumn
      refine ⟨u, hkey.trans hpasses, ?_⟩
      rw [Blocks.add_add] at harrives
      simpa [entryToken_eq, entryTokens] using harrives
  | cons f fs ih =>
      rw [entry, List.append_assoc, List.cons_append] at h
      have hf := hes f (by simp)
      obtain ⟨t, hkey, hbehind⟩ := h.key hcolumns he.1 (endsWord_afterKey n e.2 _)
      obtain ⟨u, hpasses, harrives⟩ :=
        he.2.underKey hbehind (lineStart_entry hf.1 fs tail) (Nat.le_refl _)
      rw [Blocks.add_add] at harrives
      have hhead := @Blocks.head_openAt_add b n .blockTable hcolumns
        ([.key, .scalar .plain e.1, .value] ++ nodeTokens true e.2)
      obtain ⟨v, hpasses', harrives'⟩ :=
        ih hf (fun g hg => hes g (by simp [hg])) harrives (Blocks.le_of_head hhead)
      refine ⟨v, (hkey.trans hpasses).trans hpasses', ?_⟩
      rw [Blocks.openAt_of_head hhead, Blocks.add_add] at harrives'
      simpa [entryToken_eq, entryTokens] using harrives'

/-! ### Values -/

theorem reads_text (value : String) : Reads (.text value) where
  underKey h htail hcolumn := by
    rw [afterKey, List.cons_append] at h
    simpa [nodeTokens] using h.scalarLine htail hcolumn
  behindDash h _ _ htail hcolumn := by
    rw [afterDash] at h
    simpa [nodeTokens] using h.scalarLine htail hcolumn

theorem reads_word {d : Datum} (hd : IsWord d) : Reads d := by
  obtain ⟨word, hword, -, hkey, hdash, htokens⟩ := hd.written
  have hread {s : Lexer} {n column : Nat} {tail rest : List Char} {b : Blocks}
      (h : s.Behind n (' ' :: (word.toList ++ '\n' :: tail)) b) (htail : LineStart tail column rest)
      (hcolumn : column ≤ n) :
      ∃ t, s.Passes t ∧ t.Arrives n column rest (b.add [.scalar .plain word]) := by
    obtain ⟨t, hadvance, harrives⟩ := h.plain hword htail hcolumn
    rw [String.ofList_toList] at harrives
    exact ⟨t, .single hadvance, harrives⟩
  constructor
  · intro s n column tail rest b h htail hcolumn
    rw [htokens]
    exact hread (by simpa [hkey] using h) htail hcolumn
  · intro s n column tail rest b h _ _ htail hcolumn
    rw [htokens]
    exact hread (by simpa [hdash] using h) htail hcolumn

theorem reads_brackets {d : Datum} {opening closing : Char} {first last : Token}
    (hkind : (opening, closing, first, last) ∈ Lexer.brackets)
    (hkey : ∀ n, afterKey n d = [' ', opening, closing, '\n'])
    (hdash : ∀ n, afterDash n d = [opening, closing, '\n'])
    (htokens : ∀ underKey, nodeTokens underKey d = [first, last]) : Reads d where
  underKey h htail _ := by
    rw [hkey] at h
    rw [htokens]
    exact h.brackets hkind htail
  behindDash h _ _ htail _ := by
    rw [hdash] at h
    rw [htokens]
    exact h.brackets hkind htail

theorem reads_nil : Reads (.list []) :=
  @reads_brackets _ '[' ']' .flowListStart .flowListEnd (by simp [Lexer.brackets])
    afterKey_nil afterDash_nil (fun _ => by simp [nodeTokens])

theorem reads_emptyTable : Reads (.table []) :=
  @reads_brackets _ '\x7b' '\x7d' .flowTableStart .flowTableEnd (by simp [Lexer.brackets])
    afterKey_emptyTable afterDash_emptyTable (fun _ => by simp [nodeTokens])

theorem close_openAt {b : Blocks} {n : Nat} (hlevel : b.columns.head? = some n) (token : Token)
    (ts : List Token) :
    ((b.openAt (n + 2) token).add ts).close n = b.add (token :: (ts ++ [.blockEnd])) := by
  have hlt : (n : Int) < ((n + 2 : Nat) : Int) := by omega
  have hstop := @Blocks.close_of_head ⟨b.tokens ++ [token] ++ ts ++ [.blockEnd], b.columns⟩ n n
    hlevel (Nat.le_refl _)
  rw [Blocks.openAt_of_lt hlevel (by omega), Blocks.add, Blocks.close, Blocks.closeFrom, if_pos hlt]
  rw [Blocks.close] at hstop
  rw [hstop]
  simp [Blocks.add]

theorem reads_list {d : Datum} {ds : List Datum} (hd : Reads d) (hds : ∀ e ∈ ds, Reads e) :
    Reads (.list (d :: ds)) where
  underKey {s n column tail rest b} h htail hcolumn := by
    have hline : s.Behind n ('\n' :: (items n (d :: ds) ++ tail)) b := by
      simpa [afterKey, items] using h
    have harrives := hline.arrives_line (lineStart_item n d ds tail) (Nat.le_refl _)
    obtain ⟨t, hpasses, ht⟩ :=
      reads_items hd hds htail hcolumn harrives (Blocks.le_of_head h.level)
    rw [Blocks.openAt_of_head h.level] at ht
    exact ⟨t, hpasses, by simpa [nodeTokens] using ht⟩
  behindDash {s n column tail rest b} h hallowed hplace htail hcolumn := by
    have hline : s.Behind n
        (' ' :: '-' :: ' ' :: (afterDash (n + 2) d ++ (items (n + 2) ds ++ tail))) b := by
      simpa [afterDash] using h
    have harrives := hline.arrives (tokenStart_cons (by decide) (by decide)) hallowed
    rw [hplace] at harrives
    have hcolumns : ∀ c ∈ b.columns.head?, c ≤ n + 2 := by simp [h.level]
    obtain ⟨t, hpasses, ht⟩ := reads_items hd hds htail (by omega) harrives hcolumns
    have hclosed := ht.mono (show n ≤ n + 2 by omega)
    rw [close_openAt h.level] at hclosed
    exact ⟨t, hpasses, by simpa [nodeTokens] using hclosed⟩

theorem reads_table {e : String × Datum} {es : List (String × Datum)} (he : IsKey e.1 ∧ Reads e.2)
    (hes : ∀ f ∈ es, IsKey f.1 ∧ Reads f.2) : Reads (.table (e :: es)) := by
  have hentries {s : Lexer} {n column : Nat} {tail rest : List Char} {b : Blocks}
      (h : s.Arrives (n + 2) (n + 2) (entry (n + 2) e ++ (entries (n + 2) es ++ tail)) b)
      (hlevel : b.columns.head? = some n) (htail : LineStart tail column rest)
      (hcolumn : column ≤ n) (underKey : Bool) :
      ∃ t, s.Passes t ∧ t.Arrives n column rest
        (b.add (nodeTokens underKey (.table (e :: es)))) := by
    have hcolumns : ∀ c ∈ b.columns.head?, c ≤ n + 2 := by simp [hlevel]
    obtain ⟨t, hpasses, ht⟩ := reads_entries he hes htail (by omega) h hcolumns
    have hclosed := ht.mono (show n ≤ n + 2 by omega)
    rw [close_openAt hlevel] at hclosed
    exact ⟨t, hpasses, by simpa [nodeTokens] using hclosed⟩
  constructor
  · intro s n column tail rest b h htail hcolumn
    have hline : s.Behind n ('\n' :: (entries (n + 2) (e :: es) ++ tail)) b := by
      simpa [afterKey, entries] using h
    exact hentries (hline.arrives_line (lineStart_entry he.1 es tail) (by omega)) h.level htail
      hcolumn true
  · intro s n column tail rest b h hallowed hplace htail hcolumn
    have hline : s.Behind n
        (' ' :: (entry (n + 2) e ++ (entries (n + 2) es ++ tail))) b := by
      simpa [afterDash] using h
    have harrives := hline.arrives (lineStart_entry he.1 es tail).toTokenStart hallowed
    rw [hplace] at harrives
    exact hentries harrives h.level htail hcolumn false

/-- Regular data are read as their tokens. -/
theorem Regular.reads {d : Datum} (h : Regular d) : Reads d := by
  induction h with
  | null => exact reads_word .null
  | flag b => exact reads_word (.flag b)
  | count n => exact reads_word (.count n)
  | text s => exact reads_text s
  | @list ds _ ih =>
      cases ds with
      | nil => exact reads_nil
      | cons d ds => exact reads_list (ih d (by simp)) fun e he => ih e (by simp [he])
  | @table es hkeys _ ih =>
      cases es with
      | nil => exact reads_emptyTable
      | cons e es =>
          exact reads_table ⟨hkeys e (by simp), ih e (by simp)⟩
            fun f hf => ⟨hkeys f (by simp [hf]), ih f (by simp [hf])⟩

end Yaml
end DocClaims
