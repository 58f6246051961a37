import DocClaims.Rule
import DocClaims.Proofs.Pattern.Fits
import Mathlib.Data.List.Infix

/-!
# Values of rules

What a rule finds stands in the text and matches the pattern of its values as a whole. Names
between word boundaries keep these when they stand alone, because they begin and end with
word characters.
-/

namespace DocClaims

/-- The rule that finds claims of the category. -/
def Category.rule : Category → Rule
  | .classes | .interfaces => .qualifiedName
  | .methods => .method
  | .events => .event
  | .tables => .table
  | .aclResources => .aclResource
  | .configPaths => .configPath
  | .filePaths => .filePath

/-- What the category asks of a value beside its pattern. -/
def Category.Allows : Category → String → Prop
  | .classes, value => ¬"Interface".toList <:+ Rule.lastSegment value
  | .interfaces, value => "Interface".toList <:+ Rule.lastSegment value
  | .methods, value =>
      2 < value.utf8ByteSize ∧ value ∉ ["function", "public", "private", "protected"]
  | .events, value =>
      '_' ∈ value.toList ∧ value ∉ ["the_core", "full_page", "per_website", "primary_key"] ∧
        ∃ keyword ∈ ["save", "delete", "load", "login", "logout", "customer", "before", "after"],
          keyword.toList <:+: value.toList
  | .configPaths, value => '/' ∈ value.toList ∧ ¬"http".toList <+: value.toList
  | .tables, _ | .aclResources, _ | .filePaths, _ => True

namespace Rule

open Pattern CharSet

/-- What is found by the rule: the name of a method without its call, else all that
the rule's pattern matches. -/
def valuePattern : Rule → Pattern
  | method =>
      one lowerSet ++ run 0 (oneOf [.range 'a' 'z', .range 'A' 'Z', .range '0' '9', .one '_'])
  | rule => rule.pattern

variable {rule : Rule} {value : String} {c : Category} {s t u : List Char}

theorem accept_event_eq_some_iff :
    event.accept value = some c ↔ c = .events ∧ Category.events.Allows value := by
  have hunder : Text.contains value "_" ↔ '_' ∈ value.toList :=
    Text.contains_iff.trans (List.singleton_infix_iff _ _)
  have hdenied : eventDenylist.contains value ↔
      value ∈ ["the_core", "full_page", "per_website", "primary_key"] := List.contains_iff_mem
  have hkeyword : eventKeywords.any (Text.contains value) ↔
      ∃ keyword ∈ ["save", "delete", "load", "login", "logout", "customer", "before", "after"],
        keyword.toList <:+: value.toList := by
    simp only [eventKeywords, List.any_eq_true, Text.contains_iff]
  rw [accept, Category.Allows, ← hunder, ← hdenied, ← hkeyword]
  cases Text.contains value "_" <;> cases eventDenylist.contains value <;>
    cases eventKeywords.any (Text.contains value) <;> simp [eq_comm]

theorem accept_configPath_eq_some_iff :
    configPath.accept value = some c ↔ c = .configPaths ∧ Category.configPaths.Allows value := by
  have hslash : Text.contains value "/" ↔ '/' ∈ value.toList :=
    Text.contains_iff.trans (List.singleton_infix_iff _ _)
  rw [accept, Category.Allows, ← hslash, ← List.isPrefixOf_iff_prefix]
  cases Text.contains value "/" <;> cases "http".toList.isPrefixOf value.toList <;>
    simp [eq_comm]

/-- A rule accepts the values that a category of it allows. -/
theorem accept_eq_some_iff : rule.accept value = some c ↔ c.rule = rule ∧ c.Allows value := by
  cases rule with
  | qualifiedName =>
      rw [accept]
      simp only [List.isSuffixOf_iff_suffix]
      split <;> cases c <;> simp_all [Category.rule, Category.Allows]
  | method => cases c <;> simp [accept, Category.rule, Category.Allows, methodKeywords]
  | event =>
      rw [accept_event_eq_some_iff]
      cases c <;> simp [Category.rule]
  | configPath =>
      rw [accept_configPath_eq_some_iff]
      cases c <;> simp [Category.rule]
  | table | aclResource | filePath => cases c <;> simp [accept, Category.rule, Category.Allows]

theorem mem_claims_iff {text : String} {claim : Claim} :
    claim ∈ rule.claims text ↔
      claim.value.toList ∈ rule.pattern.values text.toList ∧
        rule.accept claim.value = some claim.category := by
  rw [claims, List.mem_filterMap]
  constructor
  · rintro ⟨found, hfound, hclaim⟩
    obtain ⟨c, hc, rfl⟩ := Option.map_eq_some_iff.1 hclaim
    exact ⟨by rwa [String.toList_ofList], hc⟩
  · rintro ⟨hfound, haccept⟩
    refine ⟨_, hfound, ?_⟩
    dsimp only
    rw [String.ofList_toList, haccept]
    rfl

theorem rule_of_accept (h : rule.accept value = some c) : c.rule = rule :=
  (accept_eq_some_iff.1 h).1

/-- A rule of one category claims the values that it accepts. -/
theorem claims_of_accept
    (h : ∀ value, rule.accept value = none ∨ rule.accept value = some c) (text : String) :
    rule.claims text = (((rule.pattern.values text.toList).map String.ofList).filter
      (rule.accept · = some c)).map (Claim.mk c) := by
  rw [claims, ← List.filterMap_eq_filter, List.filterMap_map, List.map_filterMap]
  refine congrArg (List.filterMap · _) (funext fun found => ?_)
  rcases h (String.ofList found) with hnone | hsome
  · simp [Option.guard, hnone]
  · simp [Option.guard, hsome]

/-! ### Classes of characters -/

/-- Small letters and underscores. -/
def isSnakeChar (c : Char) : Bool := Text.isAsciiLower c || c == '_'

theorem has_lowerSet (c : Char) : lowerSet.has c = Text.isAsciiLower c := by
  simp [lowerSet, has, Item.has, Text.isAsciiLower]

theorem has_lowerUnderSet (c : Char) : lowerUnderSet.has c = isSnakeChar c := by
  simp [lowerUnderSet, has, Item.has, isSnakeChar, Text.isAsciiLower]

/-- Letters, digits and underscores are visible ASCII characters. -/
theorem visible_of_isAsciiWordChar {c : Char} (h : Text.isAsciiWordChar c) :
    33 ≤ c.toNat ∧ c.toNat < 127 := by
  simp only [Text.isAsciiWordChar, Text.isAsciiLetter, Text.isAsciiLower, Text.isAsciiUpper,
    Text.isAsciiDigit, Bool.or_eq_true, Bool.and_eq_true, decide_eq_true_eq, beq_iff_eq,
    Char.le_def, UInt32.le_iff_toNat_le] at h
  obtain ((⟨hlow, hhigh⟩ | ⟨hlow, hhigh⟩) | ⟨hlow, hhigh⟩) | rfl := h
  case inr => decide
  all_goals
    exact ⟨Nat.le_trans (by decide) hlow, Nat.lt_of_le_of_lt hhigh (by decide)⟩

theorem isWordChar_of_isAsciiWordChar {c : Char} (h : Text.isAsciiWordChar c) :
    Text.isWordChar c := by
  have hascii : c.toNat < 128 := Nat.lt_trans (visible_of_isAsciiWordChar h).2 (by decide)
  rw [Text.isWordChar, if_pos hascii, h]

/-! ### Names between word boundaries -/

theorem isWordChar_of_lowerSet {c : Char} (h : lowerSet.has c) : Text.isWordChar c := by
  rw [has_lowerSet] at h
  apply isWordChar_of_isAsciiWordChar
  rw [Text.isAsciiWordChar, Text.isAsciiLetter, h]
  rfl

theorem isWordChar_of_lowerUnderSet {c : Char} (h : lowerUnderSet.has c) : Text.isWordChar c := by
  have hc : lowerSet.has c ∨ c = '_' := by
    simpa [lowerUnderSet, lowerSet, has, Item.has] using h
  rcases hc with hlower | rfl
  · exact isWordChar_of_lowerSet hlower
  · rfl

/-- The first and the last of the characters belong to words. -/
structure WordEnds (s : List Char) : Prop where
  first : isWord s.head?
  last : isWord s.getLast?

theorem isWord_or {c d : Option Char} (h : isWord c) : isWord (c.or d) := by
  cases c with
  | none => cases h
  | some c => exact h

theorem isWord_head?_append (h : isWord s.head?) : isWord (s ++ t).head? := by
  cases s with
  | nil => cases h
  | cons c s => exact h

theorem isWord_getLast?_append (h : isWord t.getLast?) : isWord (s ++ t).getLast? := by
  rw [List.getLast?_append]
  cases hlast : t.getLast? with
  | none =>
      rw [hlast] at h
      cases h
  | some c => rwa [hlast] at h

theorem wordEnds_of_forall (hlength : 1 ≤ s.length) (h : ∀ c ∈ s, Text.isWordChar c) :
    WordEnds s := by
  have hne : s ≠ [] := List.length_pos_iff.1 hlength
  constructor
  · rw [List.head?_eq_some_head hne]
    exact h _ (List.head_mem hne)
  · rw [List.getLast?_eq_some_getLast hne]
    exact h _ (List.getLast_mem hne)

/-- Between boundaries a name is matched when it stands alone. -/
theorem matchesWhole_between {g : Pattern} (hplain : g.isPlain)
    (hends : ∀ {b s a m m'}, g.Fits b s a m m' → WordEnds s) {b a : Option Char}
    {mark : Option (List Char)} (h : (boundary ++ (group g ++ boundary)).Fits b s a none mark) :
    (boundary ++ (group g ++ boundary)).matchesWhole (mark.getD s) := by
  obtain ⟨_, _, _, rfl, ⟨⟨rfl, -⟩, rfl⟩, t, _, _, rfl, ⟨⟨k, hfits⟩, rfl⟩, ⟨rfl, -⟩, rfl⟩ := h
  obtain ⟨hfirst, hlast⟩ := hends hfits
  have hbefore : boundary.Fits none [] (t.head?.or none) none none := by
    refine ⟨⟨rfl, ?_⟩, rfl⟩
    rw [Option.or_none, hfirst]
    decide
  have hbehind : boundary.Fits (t.getLast?.or none) [] none (some t) (some t) := by
    refine ⟨⟨rfl, ?_⟩, rfl⟩
    rw [Option.or_none, hlast]
    decide
  have hname : (group g).Fits none t none none (some t) :=
    ⟨⟨none, (hfits.anywhere hplain).2 none none none⟩, rfl⟩
  exact matchesWhole_iff.2 ⟨some t, [], t, none, rfl, hbefore, t, [], some t,
    (List.append_nil t).symm, hname, hbehind⟩

theorem wordEnds_of_run {least : Nat} {set : CharSet} {b a : Option Char}
    {m m' : Option (List Char)} (h : (run (least + 1) set).Fits b s a m m')
    (hset : ∀ c, set.has c → Text.isWordChar c) : WordEnds s :=
  wordEnds_of_forall (Nat.le_trans (Nat.le_add_left 1 least) h.1.1) fun c hc => hset c (h.1.2 c hc)

theorem wordEnds_tableName {stem : String} {b a : Option Char} {m m' : Option (List Char)}
    (hstem : isWord stem.toList.head?) (h : (tableName stem).Fits b s a m m') : WordEnds s := by
  obtain ⟨_, t, _, rfl, ⟨rfl, rfl⟩, ht⟩ := h
  have hlast := (wordEnds_of_run ht fun _ => isWordChar_of_lowerUnderSet).last
  exact ⟨isWord_head?_append hstem, isWord_getLast?_append hlast⟩

/-- What was found is matched by the pattern of values when it stands alone. -/
theorem matchesWhole_of_mem_values {text found : List Char}
    (h : found ∈ rule.pattern.values text) : rule.valuePattern.matchesWhole found := by
  obtain ⟨b, s, a, mark, -, hfits, rfl⟩ := exists_fits_of_mem_valuesFrom h
  cases rule with
  | qualifiedName | aclResource | filePath =>
      obtain ⟨rfl, halone⟩ := hfits.anywhere rfl
      exact matchesWhole_iff.2 ⟨none, halone none none none⟩
  | method =>
      obtain ⟨t, call, _, rfl, ⟨⟨k, hname⟩, rfl⟩, hcall⟩ := hfits
      obtain ⟨rfl, -⟩ := hcall.anywhere rfl
      exact matchesWhole_iff.2 ⟨none, (hname.anywhere rfl).2 none none none⟩
  | event =>
      refine matchesWhole_between rfl ?_ hfits
      rintro b s a m m' ⟨t, _, _, rfl, ht, under, u, _, rfl, -, hu⟩
      have hstart := wordEnds_of_run ht fun _ => isWordChar_of_lowerSet
      have hend := wordEnds_of_run hu fun _ => isWordChar_of_lowerUnderSet
      exact ⟨isWord_head?_append hstart.first,
        isWord_getLast?_append (isWord_getLast?_append hend.last)⟩
  | table =>
      refine matchesWhole_between rfl ?_ hfits
      rintro b s a m m' (h | h | h | h)
      all_goals exact wordEnds_tableName (by decide) h
  | configPath =>
      refine matchesWhole_between rfl ?_ hfits
      rintro b s a m m' ⟨t, _, _, rfl, ht, slash, _, _, rfl, -, u, _, _, rfl, hu, hmore⟩
      have hstart := wordEnds_of_run ht fun _ => isWordChar_of_lowerSet
      refine ⟨isWord_head?_append hstart.first, isWord_getLast?_append (isWord_getLast?_append ?_)⟩
      rcases hmore with ⟨slash', v, _, rfl, -, hv⟩ | ⟨rfl, -⟩
      · have hend := wordEnds_of_run hv fun _ => isWordChar_of_lowerUnderSet
        exact isWord_getLast?_append (isWord_getLast?_append hend.last)
      · have hend := wordEnds_of_run hu fun _ => isWordChar_of_lowerUnderSet
        rw [List.append_nil]
        exact hend.last

end Rule
end DocClaims
