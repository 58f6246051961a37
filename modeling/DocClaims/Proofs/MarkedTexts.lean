import DocClaims.Proofs.Extraction
import DocClaims.Proofs.Markup.Elements
import DocClaims.Proofs.Rules.JoinedNames

/-!
# Marked texts

Texts with the marker are collected even outside of verbatim containers. Two of them with
nothing but tags between them are one unit, unless a container ends between them. So the names
of both are claimed, but for a name that runs on from the first text into the second.
-/

namespace DocClaims
namespace Scanner

open Markup

section

variable (scanner : Scanner)

/-- Neither a verbatim tag nor a text with the marker. -/
def isPlain : Event → Bool
  | .text s => !Text.contains s scanner.marker
  | .start name | .finish name => !scanner.isVerbatim name

/-- Two texts with the marker and only tags between them, both outside of containers. What
comes before them and behind them is plain. -/
structure MarkedPair (before between after : List Event) (s t : String) : Prop where
  before_plain : ∀ e ∈ before, scanner.isPlain e
  after_plain : ∀ e ∈ after, scanner.isPlain e
  tags : ∀ e ∈ between, isText e = false
  first_marked : Text.contains s scanner.marker
  second_marked : Text.contains t scanner.marker
  outside : scanner.inContainer between.reverse = false

end

variable {scanner : Scanner} {before between after : List Event} {s t unit : String}

theorem mem_emit_iff : unit ∈ emit s ↔ unit = s ∧ Text.allBlank s = false := by
  rw [emit]
  split
  · next hblank => simp [hblank]
  · next hblank => simp [hblank]

theorem emit_empty : emit "" = [] := rfl

/-! ### Units of plain events -/

/-- Plain events give units without the marker. -/
theorem exists_unitsFrom_append (h : ∀ e ∈ before, scanner.isPlain e) (rest : List Event) :
    ∃ units, (∀ unit ∈ units, Text.contains unit scanner.marker = false) ∧
      scanner.unitsFrom false "" (before ++ rest) = units ++ scanner.unitsFrom false "" rest := by
  induction before with
  | nil => exact ⟨[], by simp, rfl⟩
  | cons e before ih =>
      obtain ⟨units, hunits, hbehind⟩ := ih fun e he => h e (List.mem_cons_of_mem _ he)
      have hplain := h e List.mem_cons_self
      cases e with
      | start name | finish name =>
          rw [isPlain, Bool.not_eq_true'] at hplain
          refine ⟨units, hunits, ?_⟩
          simpa [unitsFrom, hplain] using hbehind
      | text s =>
          rw [isPlain, Bool.not_eq_true'] at hplain
          refine ⟨emit s ++ units, ?_, ?_⟩
          · intro unit hunit
            rcases List.mem_append.1 hunit with hfirst | hlater
            · rw [(mem_emit_iff.1 hfirst).1, hplain]
            · exact hunits unit hlater
          · simp [unitsFrom, hplain, hbehind, emit_empty]

/-- Plain events leave what has been collected as it is. -/
theorem exists_unitsFrom_plain (h : ∀ e ∈ after, scanner.isPlain e) (buffer : String) :
    ∃ units, (∀ unit ∈ units, Text.contains unit scanner.marker = false) ∧
      scanner.unitsFrom false buffer after = emit buffer ++ units := by
  induction after with
  | nil => exact ⟨[], by simp, by simp [unitsFrom]⟩
  | cons e after ih =>
      have hplain := h e List.mem_cons_self
      have hafter : ∀ e ∈ after, scanner.isPlain e := fun e he => h e (List.mem_cons_of_mem _ he)
      cases e with
      | start name | finish name =>
          obtain ⟨units, hunits, hbehind⟩ := ih hafter
          rw [isPlain, Bool.not_eq_true'] at hplain
          refine ⟨units, hunits, ?_⟩
          simpa [unitsFrom, hplain] using hbehind
      | text s =>
          obtain ⟨units, hunits, hwhole⟩ := exists_unitsFrom_append h []
          rw [List.append_nil, unitsFrom, emit_empty, List.append_nil] at hwhole
          rw [isPlain, Bool.not_eq_true'] at hplain
          refine ⟨units, hunits, ?_⟩
          rw [← hwhole]
          simp [unitsFrom, hplain, emit_empty]

/-- Between two texts the scanner goes in and out of containers, and gives what it has collected
where one ends. -/
theorem unitsFrom_tags_append (h : ∀ e ∈ between, isText e = false) (before : List Event)
    (buffer : String) (rest : List Event) :
    scanner.unitsFrom (scanner.inContainer before) buffer (between ++ rest) =
      if between.any scanner.isVerbatimEnd then
        emit buffer ++ scanner.unitsFrom (scanner.inContainer (between.reverse ++ before)) "" rest
      else scanner.unitsFrom (scanner.inContainer (between.reverse ++ before)) buffer rest := by
  induction between generalizing before buffer with
  | nil => rfl
  | cons e between ih =>
      have hbetween : ∀ e ∈ between, isText e = false := fun e he =>
        h e (List.mem_cons_of_mem _ he)
      have hreverse : (e :: between).reverse ++ before = between.reverse ++ e :: before := by simp
      rw [hreverse]
      cases e with
      | text s => cases h (.text s) List.mem_cons_self
      | start name =>
          have hrest := ih hbetween (.start name :: before) buffer
          rw [inContainer_start] at hrest
          exact hrest
      | finish name =>
          cases hname : scanner.isVerbatim name with
          | false =>
              have hrest := ih hbetween (.finish name :: before) buffer
              rw [inContainer_finish, hname, Bool.not_false, Bool.and_true] at hrest
              simpa [unitsFrom, isVerbatimEnd, hname] using hrest
          | true =>
              have hrest := ih hbetween (.finish name :: before) ""
              rw [inContainer_finish, hname, Bool.not_true, Bool.and_false] at hrest
              simp only [emit_empty, List.nil_append, ite_self] at hrest
              simp [unitsFrom, isVerbatimEnd, hname, hrest]

/-- The units of the two texts stand between units without the marker. -/
theorem MarkedPair.exists_units (h : scanner.MarkedPair before between after s t) :
    ∃ front behind, (∀ unit ∈ front ++ behind, Text.contains unit scanner.marker = false) ∧
      scanner.units (before ++ .text s :: (between ++ .text t :: after)) =
        front ++ ((if between.any scanner.isVerbatimEnd then emit s ++ emit t
          else emit (s ++ t)) ++ behind) := by
  obtain ⟨front, hfront, hbefore⟩ :=
    exists_unitsFrom_append h.before_plain (.text s :: (between ++ .text t :: after))
  have hbetween : scanner.unitsFrom (scanner.inContainer []) s (between ++ .text t :: after) = _ :=
    unitsFrom_tags_append h.tags [] s (.text t :: after)
  have houtside : scanner.inContainer [] = false := rfl
  rw [List.append_nil, h.outside, houtside] at hbetween
  have hfirst : scanner.unitsFrom false "" (.text s :: (between ++ .text t :: after)) =
      scanner.unitsFrom false s (between ++ .text t :: after) := by
    simp [unitsFrom, h.first_marked]
  have hsecond (buffer : String) : scanner.unitsFrom false buffer (.text t :: after) =
      scanner.unitsFrom false (buffer ++ t) after := by
    simp [unitsFrom, h.second_marked]
  rw [units, hbefore, hfirst, hbetween, hsecond, hsecond]
  by_cases hcut : between.any scanner.isVerbatimEnd
  · obtain ⟨behind, hbehind, hafter⟩ := exists_unitsFrom_plain h.after_plain ("" ++ t)
    refine ⟨front, behind, List.forall_mem_append.2 ⟨hfront, hbehind⟩, ?_⟩
    rw [if_pos hcut, if_pos hcut, hafter, String.empty_append, List.append_assoc]
  · obtain ⟨behind, hbehind, hafter⟩ := exists_unitsFrom_plain h.after_plain (s ++ t)
    refine ⟨front, behind, List.forall_mem_append.2 ⟨hfront, hbehind⟩, ?_⟩
    rw [if_neg hcut, if_neg hcut, hafter]

end Scanner

open Markup Rule

variable {tags : List String} {markup source extractedAt : String} {before between after : List Event}
  {s t : String} {claim : Claim}

/-- A text with the marker is not blank. -/
theorem emit_of_contains (h : Text.contains s qualifiedMarker) : Scanner.emit s = [s] := by
  have hmem : 'M' ∈ s.toList := (Text.contains_iff.1 h).subset (by decide)
  rw [Scanner.emit, if_neg]
  intro hblank
  have hall := List.all_eq_true.1 hblank 'M' hmem
  cases hall

theorem contains_append (h : Text.contains s qualifiedMarker) :
    Text.contains (s ++ t) qualifiedMarker := by
  rw [Text.contains_iff] at h ⊢
  rw [String.toList_append]
  exact h.trans (List.prefix_append _ _).isInfix

/-- Only units with the marker have names. -/
theorem contains_extract_iff_of_qualified {scanner : Scanner}
    (hrule : claim.category.rule = qualifiedName) :
    (extract scanner markup source extractedAt).contains claim ↔
      ∃ unit ∈ scanner.scan markup, claim ∈ qualifiedName.claims unit := by
  rw [contains_extract_iff]
  constructor
  · rintro ⟨unit, hunit, rule, -, hclaim⟩
    have hsame := rule_of_accept (mem_claims_iff.1 hclaim).2
    rw [← hsame, hrule] at hclaim
    exact ⟨unit, hunit, hclaim⟩
  · rintro ⟨unit, hunit, hclaim⟩
    exact ⟨unit, hunit, qualifiedName, by decide, hclaim⟩

/-- The names of a document with two marked texts are those of the two texts, read as one unless
a container ends between them. -/
theorem contains_extract_of_markedPair
    (hevents : tokenize markup = before ++ .text s :: (between ++ .text t :: after))
    (h : (Scanner.ofTags tags qualifiedMarker).MarkedPair before between after s t)
    (hrule : claim.category.rule = qualifiedName) :
    (extract (.ofTags tags qualifiedMarker) markup source extractedAt).contains claim ↔
      if between.any (Scanner.ofTags tags qualifiedMarker).isVerbatimEnd then
        claim ∈ qualifiedName.claims s ∨ claim ∈ qualifiedName.claims t
      else claim ∈ qualifiedName.claims (s ++ t) := by
  obtain ⟨front, behind, hplain, hunits⟩ := h.exists_units
  have hfirst : Text.contains s qualifiedMarker := h.first_marked
  have hsecond : Text.contains t qualifiedMarker := h.second_marked
  have hnone : ∀ unit ∈ front ++ behind, qualifiedName.claims unit = [] := fun unit hunit =>
    claims_qualifiedName_of_not_contains (hplain unit hunit)
  -- the units around those of the two texts have no names
  have hmiddle (middle : List String) :
      (∃ unit ∈ front ++ (middle ++ behind), claim ∈ qualifiedName.claims unit) ↔
        ∃ unit ∈ middle, claim ∈ qualifiedName.claims unit := by
    constructor
    · rintro ⟨unit, hunit, hclaim⟩
      simp only [List.mem_append] at hunit hnone
      rcases hunit with hfront | hmiddle | hbehind
      · rw [hnone unit (.inl hfront)] at hclaim
        cases hclaim
      · exact ⟨unit, hmiddle, hclaim⟩
      · rw [hnone unit (.inr hbehind)] at hclaim
        cases hclaim
    · rintro ⟨unit, hunit, hclaim⟩
      exact ⟨unit, List.mem_append_right _ (List.mem_append_left _ hunit), hclaim⟩
  rw [contains_extract_iff_of_qualified hrule, Scanner.scan, hevents, hunits, hmiddle,
    emit_of_contains hfirst, emit_of_contains hsecond, emit_of_contains (contains_append hfirst)]
  split
  · simp
  · simp

/-! ### Items of a list -/

theorem isPlainText_of_all {content : String} (hne : content.toList ≠ [])
    (h : content.toList.all isPlain) : IsPlainText content :=
  ⟨hne, List.all_eq_true.1 h⟩

theorem tokenize_items (hs : IsPlainText s) (ht : IsPlainText t) :
    tokenize (element "li" s ++ element "li" t) =
      [.start "li"] ++ .text s :: ([.finish "li", .start "li"] ++ .text t :: [.finish "li"]) := by
  have hname : IsElementName "li" := ⟨by decide, List.all_eq_true.1 (by decide), by decide⟩
  have hcontents : ∀ content ∈ [s, t], IsPlainText content := by simp [hs, ht]
  have hjoin : String.join ([s, t].map (element "li")) = element "li" s ++ element "li" t := by
    simp [String.join_cons]
  rw [← hjoin, tokenize_elements hname hcontents]
  rfl

theorem markedPair_items (hs : Text.contains s qualifiedMarker)
    (ht : Text.contains t qualifiedMarker) :
    (Scanner.ofTags Scanner.defaultVerbatimTags qualifiedMarker).MarkedPair [.start "li"]
      [.finish "li", .start "li"] [.finish "li"] s t where
  before_plain := by decide
  after_plain := by decide
  tags := by decide
  first_marked := hs
  second_marked := ht
  outside := by decide

/-- Of two marked texts every name is claimed if a container ends between them. If none does, a
name of the first text is claimed unless something other than backslashes goes on behind it, and
a name of the second unless a marker begins in the run before it. All in all the names of the
joined text are claimed then. -/
theorem contains_extract_names
    (hevents : tokenize markup = before ++ .text s :: (between ++ .text t :: after))
    (h : (Scanner.ofTags tags qualifiedMarker).MarkedPair before between after s t) :
    let scanner := Scanner.ofTags tags qualifiedMarker
    let set := extract scanner markup source extractedAt
    (∀ claim ∈ qualifiedName.claims s, set.contains claim ↔
      between.any scanner.isVerbatimEnd ∨ (∀ c ∈ firstRun t, c = '\\') ∨
        claim ∈ qualifiedName.claims (beforeLastRun s) ∨
        claim ∈ qualifiedName.claims (behindFirstRun t)) ∧
    (∀ claim ∈ qualifiedName.claims t, set.contains claim ↔
      between.any scanner.isVerbatimEnd ∨
        (∀ i < (lastRun s).length, ¬qualifiedMarker.toList <+: (lastRun s ++ firstRun t).drop i) ∨
        claim ∈ qualifiedName.claims (beforeLastRun s) ∨
        claim ∈ qualifiedName.claims (behindFirstRun t)) ∧
    ∀ claim, claim.category.rule = qualifiedName →
      (set.contains claim ↔
        if between.any scanner.isVerbatimEnd then
          claim ∈ qualifiedName.claims s ∨ claim ∈ qualifiedName.claims t
        else claim ∈ qualifiedName.claims (s ++ t)) := by
  intro scanner set
  have hset : ∀ claim, claim.category.rule = qualifiedName →
      (set.contains claim ↔
        if between.any scanner.isVerbatimEnd then
          claim ∈ qualifiedName.claims s ∨ claim ∈ qualifiedName.claims t
        else claim ∈ qualifiedName.claims (s ++ t)) :=
    fun claim hrule => contains_extract_of_markedPair hevents h hrule
  refine ⟨fun claim hclaim => ?_, fun claim hclaim => ?_, hset⟩
  · rw [hset claim (rule_of_accept (mem_claims_iff.1 hclaim).2), ← mem_claims_append_left_iff hclaim]
    split
    · next hcut => exact iff_of_true (.inl hclaim) (.inl hcut)
    · next hcut => exact (or_iff_right hcut).symm
  · rw [hset claim (rule_of_accept (mem_claims_iff.1 hclaim).2), ← mem_claims_append_right_iff hclaim]
    split
    · next hcut => exact iff_of_true (.inr hclaim) (.inl hcut)
    · next hcut => exact (or_iff_right hcut).symm

/-- Behind a semicolon the name of the first item does not go on in the second. -/
theorem contains_extract_names_items :
    let scanner := Scanner.ofTags Scanner.defaultVerbatimTags qualifiedMarker
    let set := extract scanner (element "li" "Magento\\A\\Bc; " ++ element "li" "Magento\\D\\Ef")
      "page" "now"
    scanner.MarkedPair [.start "li"] [.finish "li", .start "li"] [.finish "li"]
        "Magento\\A\\Bc; " "Magento\\D\\Ef" ∧
      ⟨.classes, "Magento\\A\\Bc"⟩ ∈ qualifiedName.claims "Magento\\A\\Bc; " ∧
      set.contains ⟨.classes, "Magento\\A\\Bc"⟩ ∧
      ⟨.classes, "Magento\\D\\Ef"⟩ ∈ qualifiedName.claims "Magento\\D\\Ef" ∧
      set.contains ⟨.classes, "Magento\\D\\Ef"⟩ := by
  intro scanner set
  have hpair : scanner.MarkedPair [.start "li"] [.finish "li", .start "li"] [.finish "li"]
      "Magento\\A\\Bc; " "Magento\\D\\Ef" := markedPair_items (by decide) (by decide)
  have hevents := tokenize_items (s := "Magento\\A\\Bc; ") (t := "Magento\\D\\Ef")
    (isPlainText_of_all (by decide) (by decide)) (isPlainText_of_all (by decide) (by decide))
  have hfirst : ⟨.classes, "Magento\\A\\Bc"⟩ ∈ qualifiedName.claims "Magento\\A\\Bc; " := by
    apply mem_claims_qualifiedName_iff.2
    exact ⟨firstRun_mem_namesIn (t := "Magento\\A\\Bc; ") (by decide), by decide⟩
  have hsecond : ⟨.classes, "Magento\\D\\Ef"⟩ ∈ qualifiedName.claims "Magento\\D\\Ef" := by
    apply mem_claims_qualifiedName_iff.2
    exact ⟨firstRun_mem_namesIn (t := "Magento\\D\\Ef") (by decide), by decide⟩
  obtain ⟨hleft, hright, -⟩ := contains_extract_names hevents hpair
  have hwhole : beforeLastRun "Magento\\A\\Bc; " = "Magento\\A\\Bc; " := by decide
  have hrun : lastRun "Magento\\A\\Bc; " = [] := by decide
  refine ⟨hpair, hfirst, (hleft _ hfirst).2 ?_, hsecond, (hright _ hsecond).2 ?_⟩
  · rw [hwhole]
    exact .inr (.inr (.inl hfirst))
  · rw [hrun]
    exact .inr (.inl fun i hi => absurd hi (Nat.not_lt_zero i))

/-- Where one item follows the other at once, their names are read as one. -/
theorem not_contains_extract_items :
    let scanner := Scanner.ofTags Scanner.defaultVerbatimTags qualifiedMarker
    let set := extract scanner (element "li" "Magento\\A\\Bc" ++ element "li" "Magento\\D\\Ef")
      "page" "now"
    tokenize (element "li" "Magento\\A\\Bc" ++ element "li" "Magento\\D\\Ef") =
        [.start "li"] ++ .text "Magento\\A\\Bc" ::
          ([.finish "li", .start "li"] ++ .text "Magento\\D\\Ef" :: [.finish "li"]) ∧
      scanner.MarkedPair [.start "li"] [.finish "li", .start "li"] [.finish "li"]
        "Magento\\A\\Bc" "Magento\\D\\Ef" ∧
      ⟨.classes, "Magento\\A\\Bc"⟩ ∈ qualifiedName.claims "Magento\\A\\Bc" ∧
      set.contains ⟨.classes, "Magento\\A\\Bc"⟩ = false := by
  intro scanner set
  have hpair : scanner.MarkedPair [.start "li"] [.finish "li", .start "li"] [.finish "li"]
      "Magento\\A\\Bc" "Magento\\D\\Ef" := markedPair_items (by decide) (by decide)
  have hevents : tokenize (element "li" "Magento\\A\\Bc" ++ element "li" "Magento\\D\\Ef") = _ :=
    tokenize_items (isPlainText_of_all (by decide) (by decide))
      (isPlainText_of_all (by decide) (by decide))
  have hclaim : ⟨.classes, "Magento\\A\\Bc"⟩ ∈ qualifiedName.claims "Magento\\A\\Bc" := by
    apply mem_claims_qualifiedName_iff.2
    exact ⟨firstRun_mem_namesIn (t := "Magento\\A\\Bc") (by decide), by decide⟩
  refine ⟨hevents, hpair, hclaim, ?_⟩
  rw [Bool.eq_false_iff]
  intro hcontains
  have hjoined := (contains_extract_of_markedPair hevents hpair rfl).1 hcontains
  rw [if_neg (by decide), mem_claims_qualifiedName_iff, namesIn_alone (by decide)] at hjoined
  exact absurd hjoined.1 (by decide)

end DocClaims
