import DocClaims.Proofs.Pattern.Words
import DocClaims.Scanner

/-!
# Elements with plain text

An element that holds nothing but plain text is read as its start tag, the text and its end
tag. The texts of such elements, one after the other, are text units when the element is a
verbatim container.
-/

namespace DocClaims
namespace Markup

variable {name content : String} {contents : List String} {cs rest : List Char} {c : Char} {tag : Tag}

/-- An element of the name with the text in it. -/
def element (name content : String) : String :=
  "<" ++ name ++ ">" ++ content ++ "</" ++ name ++ ">"

/-- What is read of the element. -/
def elementEvents (name content : String) : List Event :=
  [.start name, .text content, .finish name]

/-- A name in small letters, of an element whose content is no raw text. -/
structure IsElementName (name : String) : Prop where
  ne_nil : name.toList ≠ []
  isAsciiLower : ∀ c ∈ name.toList, Text.isAsciiLower c
  not_mem_raw : name ∉ rawTextNames

/-- There is a text, and nothing in it is read as markup. -/
structure IsPlainText (content : String) : Prop where
  ne_nil : content.toList ≠ []
  isPlain : ∀ c ∈ content.toList, isPlain c

/-! ### Tags -/

theorem isAsciiLetter_of_lower (h : Text.isAsciiLower c) : Text.isAsciiLetter c := by
  rw [Text.isAsciiLetter, h]
  rfl

theorem lowerAsciiChar_of_lower (h : Text.isAsciiLower c) : lowerAsciiChar c = c := by
  rw [Text.isAsciiLower, Bool.and_eq_true, decide_eq_true_eq] at h
  have hupper : Text.isAsciiUpper c = false := by
    rw [Text.isAsciiUpper, Bool.and_eq_false_iff, decide_eq_false_iff_not, decide_eq_false_iff_not]
    exact .inr fun hlast => absurd (Char.le_trans h.1 hlast) (by decide)
  rw [lowerAsciiChar, hupper]
  rfl

theorem nameWith_of_lower (h : Text.isAsciiLower c) (read : List Char) :
    TagState.nameWith .name read c = c :: read := by
  have hnull : c.toNat ≠ 0 := by
    rw [Text.isAsciiLower, Bool.and_eq_true, decide_eq_true_eq] at h
    have hlow : 'a'.toNat ≤ c.toNat := UInt32.le_iff_toNat_le.1 h.1
    exact Nat.ne_of_gt (Nat.lt_of_lt_of_le (by decide) hlow)
  simp [TagState.nameWith, lowerAsciiChar_of_lower h, hnull]

/-- The name of a tag in small letters is read up to the bracket that closes the tag. -/
theorem readTag_name (h : ∀ c ∈ cs, Text.isAsciiLower c) (read rest : List Char) :
    readTag .name read (cs ++ '>' :: rest) =
      some ⟨String.ofList (read.reverse ++ cs), false, rest⟩ := by
  induction cs generalizing read with
  | nil =>
      rw [List.append_nil]
      rfl
  | cons c cs ih =>
      obtain ⟨hc, hcs⟩ := List.forall_mem_cons.1 h
      have hother : ∀ d, Text.isAsciiLower d = false → (c == d) = false := by
        intro d hd
        apply beq_false_of_ne
        rintro rfl
        rw [hc] at hd
        cases hd
      have hstep : TagState.step .name c = .goOn .name := by
        simp [TagState.step, isTagBlank, hother '\t' rfl, hother '\n' rfl, hother '\r' rfl,
          hother '\x0c' rfl, hother ' ' rfl, hother '/' rfl, hother '>' rfl]
      rw [List.cons_append, readTag, hstep]
      dsimp only
      rw [nameWith_of_lower hc, ih hcs, List.reverse_cons, List.append_assoc, List.singleton_append]

theorem tokensFrom_startTag (hc : Text.isAsciiLetter c)
    (htag : readTag .name [] (c :: rest) = some tag) :
    tokensFrom none ('<' :: c :: rest) = .startTag tag.name tag.selfClosing ::
      tokensFrom (if !tag.selfClosing && rawTextNames.contains tag.name then some tag.name else none)
        tag.rest := by
  have hother : c ≠ '!' ∧ c ≠ '?' ∧ c ≠ '/' := by
    refine ⟨?_, ?_, ?_⟩
    all_goals
      rintro rfl
      cases hc
  rw [tokensFrom, if_pos hc]
  · split
    · next other hother =>
        obtain rfl : other = tag := Option.some.inj (hother.symm.trans htag)
        rfl
    · next hnone => simp [htag] at hnone
  all_goals simp [hother]

theorem tokensFrom_endTag (hc : Text.isAsciiLetter c)
    (htag : readTag .name [] (c :: rest) = some tag) :
    tokensFrom none ('<' :: '/' :: c :: rest) = .endTag tag.name :: tokensFrom none tag.rest := by
  rw [tokensFrom, if_pos hc]
  · split
    · next other hother =>
        obtain rfl : other = tag := Option.some.inj (hother.symm.trans htag)
        rfl
    · next hnone => simp [htag] at hnone
  · rintro rfl
    cases hc

theorem readTag_toList (hlower : ∀ c ∈ name.toList, Text.isAsciiLower c) (rest : List Char) :
    readTag .name [] (name.toList ++ '>' :: rest) = some ⟨name, false, rest⟩ := by
  have hread := readTag_name hlower [] rest
  rwa [List.reverse_nil, List.nil_append, String.ofList_toList] at hread

/-- A name in small letters begins with a letter, and is read as the name of a tag. -/
theorem exists_letter_readTag (hne : name.toList ≠ []) (hlower : ∀ c ∈ name.toList, Text.isAsciiLower c)
    (rest : List Char) :
    ∃ c letters, name.toList = c :: letters ∧ Text.isAsciiLetter c ∧
      readTag .name [] (c :: (letters ++ '>' :: rest)) = some ⟨name, false, rest⟩ := by
  obtain ⟨c, letters, hletters⟩ := List.exists_cons_of_ne_nil hne
  have hread := readTag_toList hlower rest
  rw [hletters] at hread
  rw [hletters, List.forall_mem_cons] at hlower
  exact ⟨c, letters, hletters, isAsciiLetter_of_lower hlower.1, hread⟩

theorem tokensFrom_startTag_name (hne : name.toList ≠ [])
    (hlower : ∀ c ∈ name.toList, Text.isAsciiLower c) (rest : List Char) :
    tokensFrom none ('<' :: (name.toList ++ '>' :: rest)) = .startTag name false ::
      tokensFrom (if rawTextNames.contains name then some name else none) rest := by
  obtain ⟨c, letters, hletters, hletter, htag⟩ := exists_letter_readTag hne hlower rest
  rw [hletters, List.cons_append, tokensFrom_startTag hletter htag]
  rfl

theorem tokensFrom_endTag_name (hne : name.toList ≠ [])
    (hlower : ∀ c ∈ name.toList, Text.isAsciiLower c) (rest : List Char) :
    tokensFrom none ('<' :: '/' :: (name.toList ++ '>' :: rest)) =
      .endTag name :: tokensFrom none rest := by
  obtain ⟨c, letters, hletters, hletter, htag⟩ := exists_letter_readTag hne hlower rest
  rw [hletters, List.cons_append, tokensFrom_endTag hletter htag]

theorem tokensFrom_plain (hc : isPlain c) :
    tokensFrom none (c :: rest) =
      .chars (c :: rest.takeWhile isPlain) :: tokensFrom none (rest.dropWhile isPlain) := by
  obtain ⟨hamp, ⟨hbracket, hreturn⟩, hnull⟩ : c ≠ '&' ∧ (c ≠ '<' ∧ c ≠ '\r') ∧ c.toNat ≠ 0 := by
    simpa [isPlain, isRawPlain] using hc
  rw [tokensFrom, if_neg (by simpa using hnull)]
  all_goals simp [hamp, hbracket, hreturn]

/-! ### Elements -/

theorem toList_element_append (name content : String) (rest : List Char) :
    (element name content).toList ++ rest =
      '<' :: (name.toList ++ '>' :: (content.toList ++ '<' :: '/' :: (name.toList ++ '>' :: rest))) := by
  simp [element]

theorem tokensFrom_element (hname : IsElementName name) (hcontent : IsPlainText content)
    (rest : List Char) :
    tokensFrom none ((element name content).toList ++ rest) =
      .startTag name false :: .chars content.toList :: .endTag name :: tokensFrom none rest := by
  obtain ⟨d, chars, hchars⟩ := List.exists_cons_of_ne_nil hcontent.ne_nil
  have hplain := hcontent.isPlain
  rw [hchars, List.forall_mem_cons] at hplain
  have hbracket : ∀ e ∈ ('<' :: '/' :: (name.toList ++ '>' :: rest)).head?, isPlain e = false := by
    rintro _ ⟨⟩
    rfl
  have hraw : (if rawTextNames.contains name then some name else none) = none := by
    simpa using hname.not_mem_raw
  rw [toList_element_append, tokensFrom_startTag_name hname.ne_nil hname.isAsciiLower, hraw, hchars,
    List.cons_append, tokensFrom_plain hplain.1, takeWhile_append_eq_left_iff.2 ⟨hplain.2, hbracket⟩,
    dropWhile_append_eq_right hplain.2 hbracket,
    tokensFrom_endTag_name hname.ne_nil hname.isAsciiLower]

theorem eventsFrom_element (hcontent : IsPlainText content) (tokens : List Token) :
    eventsFrom "" (.startTag name false :: .chars content.toList :: .endTag name :: tokens) =
      elementEvents name content ++ eventsFrom "" tokens := by
  have hempty : content.isEmpty = false := by simpa using hcontent.ne_nil
  simp [eventsFrom, textEvent, elementEvents, hempty]

theorem events_tokensFrom_elements (hname : IsElementName name)
    (hcontents : ∀ content ∈ contents, IsPlainText content) :
    eventsFrom "" (tokensFrom none (String.join (contents.map (element name))).toList) =
      contents.flatMap (elementEvents name) := by
  induction contents with
  | nil => simp [tokensFrom, eventsFrom, textEvent]
  | cons content contents ih =>
      obtain ⟨hcontent, hrest⟩ := List.forall_mem_cons.1 hcontents
      rw [List.map_cons, String.join_cons, String.toList_append, tokensFrom_element hname hcontent,
        eventsFrom_element hcontent, ih hrest, List.flatMap_cons]

/-- Elements with plain text, one after the other, give three events each. -/
theorem tokenize_elements (hname : IsElementName name)
    (hcontents : ∀ content ∈ contents, IsPlainText content) :
    tokenize (String.join (contents.map (element name))) =
      contents.flatMap (elementEvents name) := by
  have hmark : dropByteOrderMark (String.join (contents.map (element name))).toList =
      (String.join (contents.map (element name))).toList := by
    cases contents with
    | nil => rfl
    | cons content contents =>
        rw [List.map_cons, String.join_cons, String.toList_append, toList_element_append]
        rfl
  rw [tokenize, tokens, hmark]
  exact events_tokensFrom_elements hname hcontents

end Markup

namespace Scanner

open Markup

variable {scanner : Scanner} {name : String} {contents : List String}

theorem unitsFrom_elementEvents (h : scanner.isVerbatim name) (content : String)
    (events : List Event) :
    scanner.unitsFrom false "" (elementEvents name content ++ events) =
      emit content ++ scanner.unitsFrom false "" events := by
  simp [elementEvents, unitsFrom, h]

theorem units_elementEvents (h : scanner.isVerbatim name) (contents : List String) :
    scanner.units (contents.flatMap (elementEvents name)) = contents.filter (!Text.allBlank ·) := by
  rw [units]
  induction contents with
  | nil => rfl
  | cons content contents ih =>
      rw [List.flatMap_cons, unitsFrom_elementEvents h, ih, List.filter_cons, emit]
      cases Text.allBlank content <;> rfl

/-- In a verbatim container every text is a unit of its own, unless it is blank. -/
theorem scan_elements (hverbatim : scanner.isVerbatim name) (hname : IsElementName name)
    (hcontents : ∀ content ∈ contents, IsPlainText content) :
    scanner.scan (String.join (contents.map (element name))) =
      contents.filter (!Text.allBlank ·) := by
  rw [scan, tokenize_elements hname hcontents, units_elementEvents hverbatim]

end Scanner
end DocClaims
