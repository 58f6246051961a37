import DocClaims.Proofs.Markup.Elements
import DocClaims.Proofs.Scanner.Grouping

/-!
# Elements with raw text

What stands in an element for raw text is text, whatever it looks like, up to the end tag of the
element. A scanner to which the element is no verbatim container enters none, and finds the text
as one unit.
-/

namespace DocClaims
namespace Markup

variable {name content : String} {text : String} {cs rest : List Char} {c : Char}

/-- What may stand in an element for raw text: no carriage return, no NUL and, in any letter case,
no opening of the end tag. -/
structure IsRawText (name : String) (cs : List Char) : Prop where
  return_not_mem : '\r' ∉ cs
  nul_not_mem : Char.ofNat 0 ∉ cs
  not_closes : ¬("</" ++ name).toList <:+: cs.map lowerAsciiChar

namespace IsRawText

theorem of_suffix (h : IsRawText name cs) (hsuffix : rest <:+ cs) : IsRawText name rest where
  return_not_mem := fun hmem => h.return_not_mem (hsuffix.subset hmem)
  nul_not_mem := fun hmem => h.nul_not_mem (hsuffix.subset hmem)
  not_closes := fun hcloses => h.not_closes (hcloses.trans (hsuffix.map lowerAsciiChar).isInfix)

end IsRawText

/-- An end tag and what follows it. -/
def endTagBefore (name : String) (rest : List Char) : List Char :=
  '<' :: '/' :: (name.toList ++ '>' :: rest)

theorem map_lowerAsciiChar_of_lower (h : ∀ c ∈ cs, Text.isAsciiLower c) :
    cs.map lowerAsciiChar = cs := by
  have hmap := List.map_congr_left fun c hc => lowerAsciiChar_of_lower (h c hc)
  exact hmap.trans (List.map_id' cs)

/-! ### Tokens in raw text -/

theorem tokensFrom_rawPlain (hreturn : c ≠ '\r') (hnul : c.toNat ≠ 0)
    (hopener : c = '<' → rest.head? ≠ some '/') :
    tokensFrom (some name) (c :: rest) =
      .chars (c :: rest.takeWhile isRawPlain) :: tokensFrom (some name) (rest.dropWhile isRawPlain) := by
  rw [tokensFrom, if_neg (by simpa using hnul)]
  · exact fun _ hc => absurd hc hreturn
  · exact fun hc => absurd hc hreturn
  · rintro behind rfl rfl
    exact hopener rfl rfl

theorem tokensFrom_rawOpener (h : closesRaw name rest = false) :
    tokensFrom (some name) ('<' :: '/' :: rest) =
      .chars ['<'] :: tokensFrom (some name) ('/' :: rest) := by
  rw [tokensFrom, if_neg (by simp [h])]

theorem tokensFrom_rawEnd (hname : ∀ c ∈ name.toList, Text.isAsciiLower c) (rest : List Char) :
    tokensFrom (some name) (endTagBefore name rest) = .endTag name :: tokensFrom none rest := by
  have hcloses : closesRaw name (name.toList ++ '>' :: rest) = true := by
    have htake : (name.toList ++ '>' :: rest).take name.length = name.toList := List.take_left' rfl
    have hdrop : (name.toList ++ '>' :: rest).drop name.length = '>' :: rest := List.drop_left' rfl
    rw [closesRaw, htake, hdrop, beginsWithLower, map_lowerAsciiChar_of_lower hname,
      List.isPrefixOf_iff_prefix.2 List.prefix_rfl]
    rfl
  have htag := readTag_toList hname rest
  rw [endTagBefore, tokensFrom, if_pos hcloses]
  split
  · next other hother =>
      obtain rfl := Option.some.inj (hother.symm.trans htag)
      rfl
  · next hnone => simp [htag] at hnone

/-- No end tag of the element that begins in the raw text goes on behind it. -/
theorem not_closesRaw (hname : ∀ c ∈ name.toList, Text.isAsciiLower c)
    (h : IsRawText name ('<' :: '/' :: cs)) (rest : List Char) :
    closesRaw name (cs ++ endTagBefore name rest) = false := by
  refine Bool.eq_false_iff.2 fun hcloses => h.not_closes ?_
  rw [closesRaw, Bool.and_eq_true, beginsWithLower, List.isPrefixOf_iff_prefix] at hcloses
  have hbegins : name.toList <+: cs.map lowerAsciiChar ++
      (endTagBefore name rest).map lowerAsciiChar := by
    rw [← List.map_append]
    exact hcloses.1.trans ((List.take_prefix _ _).map lowerAsciiChar)
  have hinside : name.toList <+: cs.map lowerAsciiChar := by
    rcases List.prefix_or_prefix_of_prefix hbegins (List.prefix_append _ _) with hinside | hlonger
    · exact hinside
    · obtain ⟨behind, hbehind⟩ := hlonger
      rw [← hbehind, List.prefix_append_right_inj] at hbegins
      cases behind with
      | nil => exact ⟨[], by simpa using hbehind.symm⟩
      | cons d behind =>
          -- the name would have the bracket of the end tag in it
          obtain rfl : d = '<' := (List.cons_prefix_cons.1 hbegins).1
          have hbracket := hname '<' (by simp [← hbehind])
          exact absurd hbracket (by decide)
  have hopener : ("</" ++ name).toList <+: ('<' :: '/' :: cs).map lowerAsciiChar := by
    rw [String.toList_append]
    exact (List.prefix_append_right_inj ['<', '/']).2 hinside
  exact hopener.isInfix

/-- Raw text is read in runs, of which none goes on into the end tag. -/
theorem tokensFrom_rawRun (h : IsRawText name (c :: cs))
    (hopener : c = '<' → cs.head? ≠ some '/') (rest : List Char) :
    tokensFrom (some name) (c :: cs ++ endTagBefore name rest) =
      .chars (c :: cs.takeWhile isRawPlain) ::
        tokensFrom (some name) (cs.dropWhile isRawPlain ++ endTagBefore name rest) := by
  have hreturn : c ≠ '\r' := fun hc => h.return_not_mem (by simp [hc])
  have hnul : c.toNat ≠ 0 := by
    intro hc
    apply h.nul_not_mem
    rw [← hc, Char.ofNat_toNat]
    exact List.mem_cons_self
  have hslash : c = '<' → (cs ++ endTagBefore name rest).head? ≠ some '/' := by
    intro hc hhead
    cases cs with
    | nil => simp [endTagBefore] at hhead
    | cons d cs => exact hopener hc hhead
  have hsplit : cs ++ endTagBefore name rest =
      cs.takeWhile isRawPlain ++ (cs.dropWhile isRawPlain ++ endTagBefore name rest) := by
    rw [← List.append_assoc, List.takeWhile_append_dropWhile]
  have hplain : ∀ d ∈ cs.takeWhile isRawPlain, isRawPlain d := fun d => List.mem_takeWhile_imp
  have hends : ∀ d ∈ (cs.dropWhile isRawPlain ++ endTagBefore name rest).head?,
      isRawPlain d = false := by
    intro d hd
    rw [List.head?_append] at hd
    rcases Option.or_eq_some_iff.1 hd with hd | ⟨-, hd⟩
    · exact eq_false_of_head?_dropWhile d hd
    · obtain rfl : '<' = d := Option.some.inj hd
      rfl
  rw [List.cons_append, tokensFrom_rawPlain hreturn hnul hslash, hsplit,
    takeWhile_append_eq_left_iff.2 ⟨hplain, hends⟩, dropWhile_append_eq_right hplain hends]

/-! ### Raw text as a text -/

/-- The characters of raw text are added to the text before them. -/
theorem eventsFrom_rawText (hname : ∀ c ∈ name.toList, Text.isAsciiLower c)
    (h : IsRawText name cs) (text : String) (rest : List Char) :
    eventsFrom text (tokensFrom (some name) (cs ++ endTagBefore name rest)) =
      eventsFrom (text ++ String.ofList cs) (tokensFrom (some name) (endTagBefore name rest)) := by
  -- by the length of the text, since a run of it is read at once
  induction hn : cs.length using Nat.strongRecOn generalizing cs text with
  | ind n ih =>
      cases cs with
      | nil => simp
      | cons c cs =>
          by_cases hopener : c = '<' ∧ cs.head? = some '/'
          · obtain ⟨rfl, hslash⟩ := hopener
            obtain ⟨behind, rfl⟩ := List.head?_eq_some_iff.1 hslash
            have hlater : IsRawText name ('/' :: behind) := h.of_suffix (List.suffix_cons _ _)
            have hread := ih _ (by simp [← hn]) hlater (text ++ String.ofList ['<']) rfl
            rw [List.cons_append, List.cons_append,
              tokensFrom_rawOpener (not_closesRaw hname h rest), eventsFrom, ← List.cons_append,
              hread, String.append_assoc, ← String.ofList_append, List.singleton_append]
          · have hsuffix : cs.dropWhile isRawPlain <:+ c :: cs :=
              (List.dropWhile_suffix _).trans (List.suffix_cons _ _)
            have hshorter : (cs.dropWhile isRawPlain).length < n := by
              have hle := length_dropWhile_le isRawPlain cs
              rw [← hn, List.length_cons]
              omega
            have hread := ih _ hshorter (h.of_suffix hsuffix)
              (text ++ String.ofList (c :: cs.takeWhile isRawPlain)) rfl
            rw [tokensFrom_rawRun h (not_and.1 hopener), eventsFrom, hread, String.append_assoc,
              ← String.ofList_append, List.cons_append, List.takeWhile_append_dropWhile]

/-- What is read of an element for raw text. -/
theorem tokenize_rawText (hraw : name ∈ rawTextNames) (h : IsRawText name content.toList) :
    tokenize (element name content) = .start name :: (textEvent content ++ [.finish name]) := by
  have hnames : rawTextNames.all fun raw => raw.toList ≠ [] ∧ raw.toList.all Text.isAsciiLower := by
    decide
  have hletters := of_decide_eq_true (List.all_eq_true.1 hnames name hraw)
  have hne := hletters.1
  have hlower := List.all_eq_true.1 hletters.2
  have hchars := toList_element_append name content []
  have hmark (cs : List Char) : dropByteOrderMark ('<' :: cs) = '<' :: cs := rfl
  rw [List.append_nil, ← endTagBefore] at hchars
  rw [tokenize, tokens, hchars, hmark, tokensFrom_startTag_name hne hlower,
    if_pos (List.contains_iff_mem.2 hraw), events, eventsFrom, eventsFrom_rawText hlower h,
    tokensFrom_rawEnd hlower, tokensFrom, String.empty_append, String.ofList_toList]
  rfl

end Markup

namespace Scanner

open Markup

variable {scanner : Scanner} {name content : String} {before : List Event}

theorem inContainer_of_forall (h : ∀ e ∈ before, scanner.isVerbatimStart e = false) :
    scanner.inContainer before = false := by
  rw [inContainer]
  cases hfind : before.find? fun e => scanner.isVerbatimStart e || scanner.isVerbatimEnd e with
  | none => rfl
  | some e => exact h e (List.mem_of_find?_eq_some hfind)

/-- Outside of verbatim containers a text is a unit of its own, with the marker or without. -/
theorem units_textElement (h : scanner.isVerbatim name = false) (content : String) :
    scanner.units (.start name :: (textEvent content ++ [.finish name])) = emit content := by
  have hblank : emit "" = [] := rfl
  rw [units, unitsFrom, h, textEvent]
  split
  · next hempty =>
      obtain rfl : content = "" := String.isEmpty_iff.1 hempty
      simp [unitsFrom, h]
  · cases hmarker : Text.contains content scanner.marker with
    | true => simp [unitsFrom, h, hmarker]
    | false => simp [unitsFrom, h, hmarker, hblank]

/-- What stands in an element for raw text is one text, or none if there is nothing, and is not
looked into. A scanner to which the element is no container is never in a container there, and
finds the text as it stands, unless it is blank. -/
theorem scan_rawText (hname : name ∈ ["script", "style"]) (h : IsRawText name content.toList) :
    tokenize (element name content) =
        .start name :: ((if content = "" then [] else [.text content]) ++ [.finish name]) ∧
      ∀ scanner : Scanner, scanner.isVerbatim name = false →
        (∀ before, before <+: tokenize (element name content) →
          scanner.inContainer before.reverse = false) ∧
        scanner.scan (element name content) = if Text.allBlank content then [] else [content] := by
  have hevents := tokenize_rawText hname h
  refine ⟨?_, fun scanner hother => ⟨?_, ?_⟩⟩
  · simpa [textEvent] using hevents
  · intro before hbefore
    apply inContainer_of_forall
    intro e he
    have hmem := hbefore.subset (List.mem_reverse.1 he)
    rw [hevents, List.mem_cons, List.mem_append, List.mem_singleton] at hmem
    rcases hmem with rfl | hmem | rfl
    · exact hother
    · rw [textEvent] at hmem
      split at hmem
      · cases hmem
      · obtain rfl := List.mem_singleton.1 hmem
        rfl
    · rfl
  · rw [scan, hevents, units_textElement hother, emit]

/-- Nothing in a script is a tag, a comment, a reference or the end of the script. -/
theorem scan_rawText_nearMisses :
    let script := "if (a <b) '<pre><!--&lt;</SCR' </ script></scrip<"
    let scanner := ofTags ["code", "PRE"] "Magento\\"
    IsRawText "script" script.toList ∧ scanner.isVerbatim "script" = false ∧
      tokenize (element "script" script) =
        [.start "script", .text script, .finish "script"] ∧
      scanner.inContainer [.text script, .start "script"] = false ∧
      scanner.scan (element "script" script) = [script] := by
  intro script scanner
  have hraw : IsRawText "script" script.toList := ⟨by decide, by decide, by decide +kernel⟩
  have hother : scanner.isVerbatim "script" = false := by decide
  obtain ⟨hevents, hscans⟩ := scan_rawText (by decide) hraw
  obtain ⟨houtside, hunits⟩ := hscans scanner hother
  refine ⟨hraw, hother, hevents, ?_, ?_⟩
  · apply houtside [.start "script", .text script]
    rw [hevents]
    exact ⟨[.finish "script"], rfl⟩
  · rw [hunits, if_neg (by decide)]

end Scanner
end DocClaims
