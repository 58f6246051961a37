import DocClaims.Proofs.Yaml.DataTokens

/-!
# Written documents as tokens

A written document holds no control characters, so that nothing keeps the lexer
from reading it to its end.
-/

namespace DocClaims
namespace Yaml

/-! ### Printable texts -/

def Printable (cs : List Char) : Prop := ∀ c ∈ cs, isPrintable c

namespace Printable

theorem append {cs ds : List Char} (hcs : Printable cs) (hds : Printable ds) :
    Printable (cs ++ ds) :=
  fun c hc => (List.mem_append.1 hc).elim (hcs c) (hds c)

theorem cons {c : Char} {cs : List Char} (hc : isPrintable c) (hcs : Printable cs) :
    Printable (c :: cs) :=
  List.forall_mem_cons.2 ⟨hc, hcs⟩

theorem nil : Printable [] := fun _ h => nomatch h

theorem spaces (n : Nat) : Printable (spaces n) := by
  intro c hc
  rw [List.eq_of_mem_replicate hc]
  rfl

theorem indented {indent : Nat} {write : Char → List Char} {fresh : Bool} {cs : List Char}
    (hcs : Printable cs) (hwrite : ∀ c ∈ cs, Printable (write c)) :
    Printable (indented indent write fresh cs) := by
  induction cs generalizing fresh with
  | nil => exact nil
  | cons c cs ih =>
      rw [indented_cons]
      have hrest : Printable (Yaml.indented indent write (isBreak c) cs) :=
        ih (fun d hd => hcs d (by simp [hd])) (fun d hd => hwrite d (by simp [hd]))
      refine append ?_ hrest
      split
      · exact cons (hcs c (by simp)) nil
      · refine append ?_ (hwrite c (by simp))
        split
        · exact spaces indent
        · exact nil

theorem doubleQuote {c : Char} (hc : isPrintable c) : Printable (doubleQuote c) := by
  unfold Yaml.doubleQuote
  split
  · exact cons rfl (cons rfl nil)
  · exact cons hc nil

theorem singleQuoted {indent : Nat} {cs : List Char} (hcs : Printable cs) :
    Printable (singleQuoted indent cs) := by
  have htext := @indented indent Yaml.doubleQuote false cs hcs fun c hc => doubleQuote (hcs c hc)
  unfold Yaml.singleQuoted
  refine append (append (append (cons rfl nil) htext) ?_) (cons rfl nil)
  split
  · exact spaces indent
  · exact nil

theorem upperHex (places n : Nat) : Printable (upperHex places n) := by
  induction places generalizing n with
  | zero => exact nil
  | succ places ih =>
      have hdigit : ∀ d < 16, isPrintable (upperHexDigit d) := by decide
      exact append (ih (n / 16)) (cons (hdigit _ (Nat.mod_lt _ (by decide))) nil)

theorem escape (c : Char) : Printable (escape c) := by
  unfold Yaml.escape
  split
  · dsimp only
    split
    · next letter hlookup =>
        have hletters : ∀ e ∈ escapeLetters, isPrintable e.2 := by decide
        obtain ⟨before, after, heq, -⟩ := List.lookup_eq_some_iff.1 hlookup
        have hmem : (c.toNat, letter) ∈ escapeLetters := by simp [heq]
        exact cons rfl (cons (hletters _ hmem) nil)
    · split
      · exact cons rfl (cons rfl (upperHex _ _))
      · split
        · exact cons rfl (cons rfl (upperHex _ _))
        · exact cons rfl (cons rfl (upperHex _ _))
  · next hplain =>
      simp only [Bool.or_eq_true, Bool.not_eq_true', not_or, Bool.not_eq_false] at hplain
      exact cons hplain.1.1.1 nil

theorem doubleQuoted (cs : List Char) : Printable (doubleQuoted cs) := by
  unfold Yaml.doubleQuoted
  refine append (append (cons rfl nil) ?_) (cons rfl nil)
  intro c hc
  obtain ⟨d, -, hd⟩ := List.mem_flatMap.1 hc
  exact escape d c hd

theorem literalBlock {indent : Nat} {cs : List Char} (hcs : Printable cs) :
    Printable (literalBlock indent cs) := by
  have htext := @indented indent (fun c => [c]) true cs hcs fun c hc => cons (hcs c hc) nil
  have hsign (chomp : Chomping) : Printable chomp.sign := by
    cases chomp
    · exact cons rfl nil
    · exact nil
    · exact cons rfl nil
  unfold Yaml.literalBlock
  rw [chomping_eq_sign]
  refine append (append (append (append (cons rfl nil) ?_) (hsign _)) (cons rfl nil)) htext
  split
  · exact cons rfl nil
  · exact nil

theorem scalarLine (indent : Nat) (s : String) : Printable (scalarLine indent s) := by
  unfold Yaml.scalarLine
  rcases style_cases s with ⟨hstyle, hword, -⟩ | ⟨hstyle, hcs⟩ | hstyle | ⟨hstyle, hcs, -⟩
  · simp only [hstyle]
    exact append hword.isPrintable (cons rfl nil)
  · simp only [hstyle]
    exact append (singleQuoted hcs.isPrintable) (cons rfl nil)
  · simp only [hstyle]
    exact append (doubleQuoted _) (cons rfl nil)
  · simp only [hstyle]
    apply append (literalBlock hcs.isPrintable)
    split
    · exact nil
    · exact cons rfl nil

end Printable

/-- What is written for the data is printable in every place. -/
structure WritesPrintable (d : Datum) : Prop where
  underKey : ∀ indent, Printable (afterKey indent d)
  behindDash : ∀ indent, Printable (afterDash indent d)

theorem printable_items {ds : List Datum} (h : ∀ d ∈ ds, WritesPrintable d) (indent : Nat) :
    Printable (items indent ds) := by
  induction ds with
  | nil => simpa [items] using Printable.nil
  | cons d ds ih =>
      have hd := (h d (by simp)).behindDash indent
      have hitem : Printable (item indent d) := by
        rw [item]
        exact (Printable.spaces indent).append (.cons rfl (.cons rfl hd))
      rw [items]
      exact hitem.append (ih fun e he => h e (by simp [he]))

theorem printable_entry {e : String × Datum} (hkey : IsKey e.1) (h : WritesPrintable e.2)
    (indent : Nat) : Printable (entry indent e) := by
  obtain ⟨key, d⟩ := e
  rw [entry]
  exact Printable.append hkey.plainWord.isPrintable (.cons rfl (h.underKey indent))

theorem printable_entries {es : List (String × Datum)}
    (h : ∀ e ∈ es, IsKey e.1 ∧ WritesPrintable e.2) (indent : Nat) :
    Printable (entries indent es) := by
  induction es with
  | nil => simpa [entries] using Printable.nil
  | cons e es ih =>
      have he := h e (by simp)
      rw [entries]
      exact ((Printable.spaces indent).append (printable_entry he.1 he.2 indent)).append
        (ih fun f hf => h f (by simp [hf]))

theorem writesPrintable_word {d : Datum} (hd : IsWord d) : WritesPrintable d := by
  obtain ⟨word, hword, -, hkey, hdash, -⟩ := hd.written
  have hline : Printable (word.toList ++ ['\n']) :=
    Printable.append hword.isPrintable (.cons rfl .nil)
  constructor
  · intro indent
    rw [hkey]
    exact .cons rfl hline
  · intro indent
    rw [hdash]
    exact hline

theorem writesPrintable_text (s : String) : WritesPrintable (.text s) := by
  constructor
  · intro indent
    rw [afterKey]
    exact .cons rfl (.scalarLine _ _)
  · intro indent
    rw [afterDash]
    exact .scalarLine _ _

theorem writesPrintable_nil : WritesPrintable (.list []) := by
  constructor
  · intro indent
    rw [afterKey_nil]
    exact .cons rfl (.cons rfl (.cons rfl (.cons rfl .nil)))
  · intro indent
    rw [afterDash_nil]
    exact .cons rfl (.cons rfl (.cons rfl .nil))

theorem writesPrintable_emptyTable : WritesPrintable (.table []) := by
  constructor
  · intro indent
    rw [afterKey_emptyTable]
    exact .cons rfl (.cons rfl (.cons rfl (.cons rfl .nil)))
  · intro indent
    rw [afterDash_emptyTable]
    exact .cons rfl (.cons rfl (.cons rfl .nil))

theorem writesPrintable_list {d : Datum} {ds : List Datum}
    (h : ∀ e ∈ d :: ds, WritesPrintable e) : WritesPrintable (.list (d :: ds)) := by
  constructor
  · intro indent
    rw [afterKey, ← items]
    exact .cons rfl (printable_items h indent)
  · intro indent
    have hd := (h d (by simp)).behindDash (indent + 2)
    have hds := @printable_items ds (fun e he => h e (by simp [he])) (indent + 2)
    rw [afterDash]
    exact .cons rfl (.cons rfl (hd.append hds))

theorem writesPrintable_table {e : String × Datum} {es : List (String × Datum)}
    (h : ∀ f ∈ e :: es, IsKey f.1 ∧ WritesPrintable f.2) : WritesPrintable (.table (e :: es)) := by
  constructor
  · intro indent
    rw [afterKey, ← entries]
    exact .cons rfl (printable_entries h _)
  · intro indent
    have he := h e (by simp)
    rw [afterDash]
    exact (printable_entry he.1 he.2 _).append
      (printable_entries (fun f hf => h f (by simp [hf])) _)

theorem Regular.writesPrintable {d : Datum} (h : Regular d) : WritesPrintable d := by
  induction h with
  | null => exact writesPrintable_word .null
  | flag b => exact writesPrintable_word (.flag b)
  | count n => exact writesPrintable_word (.count n)
  | text s => exact writesPrintable_text s
  | @list ds _ ih =>
      cases ds with
      | nil => exact writesPrintable_nil
      | cons d ds => exact writesPrintable_list ih
  | @table es hkeys _ ih =>
      cases es with
      | nil => exact writesPrintable_emptyTable
      | cons e es => exact writesPrintable_table fun f hf => ⟨hkeys f hf, ih f hf⟩

theorem controlPosition?_of_printable {cs : List Char} (h : Printable cs) (position : Nat) :
    controlPosition? position cs = none := by
  induction cs generalizing position with
  | nil => rfl
  | cons c cs ih =>
      rw [controlPosition?]
      simp [h c (by simp), ih fun d hd => h d (by simp [hd])]

/-! ### The end of the text -/

theorem Lexer.step_of_end {s : Lexer} {b : Blocks} (h : s.Arrives 0 0 [] b) :
    ∃ t, s.step = .ok (t, true) ∧
      t.tokens.reverse.map (·.token) = (b.close (-1)).tokens ++ [.streamEnd] := by
  obtain ⟨u, b', hskip, hcandidate, -, hrest, hcolumn, hholds, rfl⟩ := h
  obtain ⟨hcursor, hcandidate', -⟩ := closeBlocks_frame u ((0 : Nat) : Int)
  have hplace : (u.closeBlocks ((0 : Nat) : Int)).place.column = 0 := by
    rw [place, hcursor]
    exact hcolumn
  have hblocks := hholds.closeBlocks ((0 : Nat) : Int)
  generalize hv : u.closeBlocks ((0 : Nat) : Int) = v at *
  -- the place of the end is where the lexer stands
  have hcursor' : ({ v with cursor := ⟨v.place, []⟩ } : Lexer) = v := by
    have htext : v.cursor = ⟨v.place, []⟩ := by
      rw [hcursor, ← hrest, place, hcursor]
    rw [← htext]
  have hclosed := hblocks.closeBlocks (-1)
  obtain ⟨-, hnone, -⟩ := closeBlocks_frame v (-1)
  rw [hcandidate', hcandidate] at hnone
  have hfinish : v.finish =
      .ok { (v.closeBlocks (-1)).add .streamEnd v.place with keyAllowed := false } := by
    have hdrop : (v.closeBlocks (-1)).dropCandidate = .ok (v.closeBlocks (-1)) := by
      simp [dropCandidate, hnone]
    unfold finish
    rw [hplace]
    simp only [beq_self_eq_true, if_true, hcursor', hdrop]
    rfl
  have hadd := hclosed.add .streamEnd v.place
  have hstale := @dropStale_of_none
    { (v.closeBlocks (-1)).add .streamEnd v.place with keyAllowed := false } hadd.outerCandidates
    hnone
  refine ⟨{ (v.closeBlocks (-1)).add .streamEnd v.place with keyAllowed := false }, ?_,
    hadd.tokens⟩
  unfold step
  rw [hskip, Outcome.ok_bind]
  dsimp only
  rw [hcolumn]
  rw [hv, hcursor, hrest]
  dsimp only
  rw [hfinish, Outcome.ok_bind, hstale]
  rfl

/-- The tokens of a written table. -/
theorem tokens_of_write {e : String × Datum} {es : List (String × Datum)}
    (h : Regular (.table (e :: es))) :
    ∃ ts, TokenStream.ofText (write (.table (e :: es))).toList = ⟨ts, none⟩ ∧
      ts.map (·.token) = nodeTokens true (.table (e :: es)) ++ [.streamEnd] := by
  cases h with
  | table hkeys hes =>
  have hreads : ∀ f ∈ e :: es, IsKey f.1 ∧ Reads f.2 := fun f hf => ⟨hkeys f hf, (hes f hf).reads⟩
  have hprintable : Printable (entries 0 (e :: es)) :=
    printable_entries (fun f hf => ⟨hkeys f hf, (hes f hf).writesPrintable⟩) 0
  have hline := @lineStart_entry 0 e (hkeys e (by simp)) es []
  have hstart : (Lexer.start (entries 0 (e :: es))).Arrives 0 0
      (entry 0 e ++ (entries 0 es ++ [])) ⟨[], []⟩ := by
    have htext : entries 0 (e :: es) = entry 0 e ++ (entries 0 es ++ []) := by
      simpa using hline.eq
    rw [htext]
    exact Lexer.arrives_of_tokenStart hline.toTokenStart ⟨rfl, rfl, rfl, rfl⟩ rfl rfl rfl
  obtain ⟨t, hpasses, harrives⟩ := @reads_entries 0 0 [] [] e es (hreads e (by simp))
    (fun f hf => hreads f (by simp [hf])) ⟨⟨by simp, by simp⟩, rfl⟩ (Nat.le_refl _) _ _ hstart
    (by simp)
  obtain ⟨u, hstep, htokens⟩ := Lexer.step_of_end harrives
  obtain ⟨fuel, hfuel, hrun⟩ := Lexer.run_of_passes hpasses (Nat.lt_succ_self _)
  obtain ⟨k, rfl⟩ : ∃ k, fuel = k + 1 := ⟨fuel - 1, by omega⟩
  refine ⟨u.tokens.reverse, ?_, ?_⟩
  · have htext : (write (.table (e :: es))).toList = entries 0 (e :: es) := String.toList_ofList
    rw [htext, TokenStream.ofText, controlPosition?_of_printable hprintable]
    have hlast : t.run (k + 1) = ⟨u.tokens.reverse, none⟩ := by rw [Lexer.run, hstep]
    exact hrun.trans hlast
  · rw [htokens]
    simp [Blocks.openAt, Blocks.add, Blocks.close, Blocks.closeFrom, nodeTokens]

end Yaml
end DocClaims
