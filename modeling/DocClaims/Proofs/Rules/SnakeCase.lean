import DocClaims.Proofs.Pattern.Words
import DocClaims.Proofs.Rules

/-!
# Names of events and tables

Events and tables are whole words of small letters and underscores that begin with a letter
and have an underscore inside. A table begins with the name of its family; an event is told
by its keywords. So a word may be both.
-/

namespace DocClaims
namespace Rule

open Pattern CharSet

variable {g : Pattern} {passes : List Char → Bool} {s stem more text : List Char}

/-! ### Whole words -/

/-- Between boundaries a pattern of word characters matches the words that it fits. -/
theorem readBy_between (hplain : g.isPlain)
    (hfits : ∀ {b s a m m'}, g.Fits b s a m m' →
      s ≠ [] ∧ (∀ c ∈ s, Text.isWordChar c) ∧ passes s)
    (hpasses : ∀ {s}, passes s → ∃ b a m m', g.Fits b s a m m') :
    (boundary ++ (group g ++ boundary)).ReadBy (Reader.word.keep passes) := by
  apply ReadBy.of_fits
  · intro b s rest h
    obtain ⟨hread, hs⟩ := Option.filter_eq_some_iff.1 h
    obtain ⟨hbefore, hne, hword, hbehind⟩ := Reader.read?_word_eq_some_iff.1 hread
    obtain ⟨_, _, _, _, hfit⟩ := hpasses hs
    have hends := wordEnds_of_forall (List.length_pos_iff.2 hne) hword
    have hfirst : boundary.Fits b [] (s.head?.or rest.head?) none none := by
      refine ⟨⟨rfl, ?_⟩, rfl⟩
      rw [hbefore, isWord_or hends.first]
      decide
    have hlast : boundary.Fits (s.getLast?.or b) [] rest.head? (some s) (some s) := by
      refine ⟨⟨rfl, ?_⟩, rfl⟩
      rw [hbehind, isWord_or hends.last]
      decide
    have hname : (group g).Fits b s rest.head? none (some s) :=
      ⟨⟨none, (hfit.anywhere hplain).2 b _ none⟩, rfl⟩
    exact ⟨some s, [], s, none, rfl, hfirst, s, [], some s, (List.append_nil s).symm, hname, hlast⟩
  · rintro b _ rest mark ⟨_, _, _, rfl, ⟨⟨rfl, hfirst⟩, rfl⟩, s, _, _, rfl, ⟨⟨k, hfit⟩, rfl⟩,
      ⟨rfl, hlast⟩, rfl⟩
    obtain ⟨hne, hword, hs⟩ := hfits hfit
    have hends := wordEnds_of_forall (List.length_pos_iff.2 hne) hword
    rw [List.append_nil, isWord_or hends.first, ne_eq, Bool.not_eq_true] at hfirst
    rw [isWord_or hends.last, ne_comm, ne_eq, Bool.not_eq_true] at hlast
    have hread : Reader.word.read? b (s ++ rest) = some s :=
      Reader.read?_word_eq_some_iff.2 ⟨hfirst, hne, hword, hlast⟩
    rw [List.append_nil, List.nil_append]
    exact ⟨Option.filter_eq_some_iff.2 ⟨hread, hs⟩, rfl⟩

/-! ### Names -/

/-- Small letters, an underscore, and then small letters and underscores. -/
def isSnakeCase (cs : List Char) : Bool :=
  !(cs.takeWhile Text.isAsciiLower).isEmpty &&
    match cs.dropWhile Text.isAsciiLower with
    | '_' :: more => !more.isEmpty && more.all isSnakeChar
    | _ => false

/-- What the names of tables begin with. -/
def tableFamilies : List String := ["customer_", "eav_", "sales_", "quote_"]

/-- There is something behind the name of a family. -/
def isOfFamily (cs : List Char) : Bool :=
  tableFamilies.any fun family => family.toList.isPrefixOf cs && family.toList.length < cs.length

theorem isSnakeCase_iff :
    isSnakeCase s ↔ ∃ stem more, s = stem ++ '_' :: more ∧ stem ≠ [] ∧ more ≠ [] ∧
      (∀ c ∈ stem, Text.isAsciiLower c) ∧ ∀ c ∈ more, isSnakeChar c := by
  constructor
  · intro h
    rw [isSnakeCase, Bool.and_eq_true, Bool.not_eq_true', List.isEmpty_eq_false_iff] at h
    obtain ⟨hstem, hmore⟩ := h
    split at hmore
    · next more hbehind =>
        rw [Bool.and_eq_true, Bool.not_eq_true', List.isEmpty_eq_false_iff, List.all_eq_true] at hmore
        refine ⟨s.takeWhile Text.isAsciiLower, more, ?_, hstem, hmore.1, ?_, hmore.2⟩
        · rw [← hbehind, List.takeWhile_append_dropWhile]
        · exact fun c => List.mem_takeWhile_imp
    · cases hmore
  · rintro ⟨stem, more, rfl, hstem, hmore, hletters, hrest⟩
    have hbehind : ('_' :: more).dropWhile Text.isAsciiLower = '_' :: more := rfl
    have htake : ('_' :: more).takeWhile Text.isAsciiLower = [] := rfl
    rw [isSnakeCase, List.takeWhile_append_of_pos hletters, List.dropWhile_append_of_pos hletters,
      hbehind, htake, List.append_nil]
    simpa [hstem, hmore] using hrest

theorem isSnakeChar_of_isSnakeCase (h : isSnakeCase s) : ∀ c ∈ s, isSnakeChar c := by
  obtain ⟨stem, more, rfl, -, -, hstem, hmore⟩ := isSnakeCase_iff.1 h
  intro c hc
  rcases List.mem_append.1 hc with hfirst | hsecond
  · rw [isSnakeChar, hstem c hfirst]
    rfl
  · rcases List.mem_cons.1 hsecond with rfl | hlater
    · rfl
    · exact hmore c hlater

theorem isWordChar_of_isSnakeCase (h : isSnakeCase s) : ∀ c ∈ s, Text.isWordChar c := by
  intro c hc
  apply isWordChar_of_lowerUnderSet
  rw [has_lowerUnderSet]
  exact isSnakeChar_of_isSnakeCase h c hc

theorem all_lowerSet_iff : (∀ c ∈ s, lowerSet.has c) ↔ ∀ c ∈ s, Text.isAsciiLower c := by
  simp only [has_lowerSet]

theorem all_lowerUnderSet_iff : (∀ c ∈ s, lowerUnderSet.has c) ↔ ∀ c ∈ s, isSnakeChar c := by
  simp only [has_lowerUnderSet]

theorem readBy_event : event.pattern.ReadBy (Reader.word.keep isSnakeCase) := by
  apply readBy_between rfl
  · rintro b _ a m m' ⟨stem, _, _, rfl, ⟨⟨hstem, hletters⟩, -⟩, _, more, _, rfl, ⟨rfl, -⟩,
      ⟨hmore, hrest⟩, -⟩
    have hsnake : isSnakeCase (stem ++ ("_".toList ++ more)) :=
      isSnakeCase_iff.2 ⟨stem, more, rfl, List.length_pos_iff.1 hstem, List.length_pos_iff.1 hmore,
        all_lowerSet_iff.1 hletters, all_lowerUnderSet_iff.1 hrest⟩
    refine ⟨?_, isWordChar_of_isSnakeCase hsnake, hsnake⟩
    simp
  · intro s h
    obtain ⟨stem, more, rfl, hstem, hmore, hletters, hrest⟩ := isSnakeCase_iff.1 h
    refine ⟨none, none, none, none, stem, '_' :: more, none, rfl, ?_, ['_'], more, none, rfl,
      ⟨rfl, rfl⟩, ?_⟩
    · exact ⟨⟨List.length_pos_iff.2 hstem, all_lowerSet_iff.2 hletters⟩, rfl⟩
    · exact ⟨⟨List.length_pos_iff.2 hmore, all_lowerUnderSet_iff.2 hrest⟩, rfl⟩

/-- The names of families are in snake case, up to what follows them. -/
theorem isSnakeCase_of_family {family : String} (h : family ∈ tableFamilies) (hmore : more ≠ [])
    (hrest : ∀ c ∈ more, isSnakeChar c) : isSnakeCase (family.toList ++ more) := by
  have hstem : ∀ stem : String, stem.toList.all Text.isAsciiLower → stem.toList ≠ [] →
      isSnakeCase ((stem ++ "_").toList ++ more) := by
    intro stem hletters hne
    refine isSnakeCase_iff.2 ⟨stem.toList, more, ?_, hne, hmore, List.all_eq_true.1 hletters, hrest⟩
    simp
  simp only [tableFamilies, List.mem_cons, List.not_mem_nil, or_false] at h
  rcases h with rfl | rfl | rfl | rfl
  · exact hstem "customer" rfl (by decide)
  · exact hstem "eav" rfl (by decide)
  · exact hstem "sales" rfl (by decide)
  · exact hstem "quote" rfl (by decide)

theorem isOfFamily_iff :
    isOfFamily s ↔ ∃ family ∈ tableFamilies, ∃ more, s = family.toList ++ more ∧ more ≠ [] := by
  rw [isOfFamily, List.any_eq_true]
  refine exists_congr fun family => and_congr_right fun _ => ?_
  rw [Bool.and_eq_true, List.isPrefixOf_iff_prefix, decide_eq_true_eq]
  constructor
  · rintro ⟨⟨more, rfl⟩, hlength⟩
    refine ⟨more, rfl, ?_⟩
    rintro rfl
    simp at hlength
  · rintro ⟨more, rfl, hmore⟩
    have hpos := List.length_pos_iff.2 hmore
    exact ⟨⟨more, rfl⟩, by rw [List.length_append]; omega⟩

def isTableName (cs : List Char) : Bool := isSnakeCase cs && isOfFamily cs

theorem fits_families_iff {b a : Option Char} {m m' : Option (List Char)} :
    (either (tableName "customer_") (either (tableName "eav_")
        (either (tableName "sales_") (tableName "quote_")))).Fits b s a m m' ↔
      ∃ family ∈ tableFamilies, (tableName family).Fits b s a m m' := by
  simp only [tableFamilies, List.mem_cons, List.not_mem_nil, or_false, exists_eq_or_imp,
    exists_eq_left]
  rfl

theorem readBy_table : table.pattern.ReadBy (Reader.word.keep isTableName) := by
  apply readBy_between rfl
  · intro b s a m m' h
    obtain ⟨family, hfamily, _, more, _, rfl, ⟨rfl, -⟩, ⟨hmore, hrest⟩, -⟩ := fits_families_iff.1 h
    have hne := List.length_pos_iff.1 hmore
    have hsnake := isSnakeCase_of_family hfamily hne (all_lowerUnderSet_iff.1 hrest)
    have hof := isOfFamily_iff.2 ⟨family, hfamily, more, rfl, hne⟩
    refine ⟨by simp [hne], isWordChar_of_isSnakeCase hsnake, ?_⟩
    rw [isTableName, hsnake, hof]
    rfl
  · intro s h
    obtain ⟨hsnake, hof⟩ := Bool.and_eq_true_iff.1 h
    obtain ⟨family, hfamily, more, rfl, hmore⟩ := isOfFamily_iff.1 hof
    refine ⟨none, none, none, none, fits_families_iff.2 ⟨family, hfamily, family.toList, more, none,
      rfl, ⟨rfl, rfl⟩, ⟨List.length_pos_iff.2 hmore, ?_⟩, rfl⟩⟩
    intro c hc
    rw [has_lowerUnderSet]
    exact isSnakeChar_of_isSnakeCase hsnake c (List.mem_append_right _ hc)

/-! ### Claims -/

/-- The words of a text that pass, in the order of the text, as claims of the category. -/
def wordClaims (c : Category) (passes : List Char → Bool) (text : String) : List Claim :=
  ((words text.toList).filter (passes ·.chars)).map fun word => ⟨c, String.ofList word.chars⟩

theorem mem_wordClaims_iff {c : Category} {text : String} {claim : Claim} :
    claim ∈ wordClaims c passes text ↔ claim.category = c ∧ passes claim.value.toList ∧
      ∃ word : Stretch, word.IsWordOf text.toList ∧ word.chars = claim.value.toList := by
  rw [wordClaims, List.mem_map]
  constructor
  · rintro ⟨word, hword, rfl⟩
    obtain ⟨hmem, hpasses⟩ := List.mem_filter.1 hword
    rw [String.toList_ofList]
    exact ⟨rfl, hpasses, word, mem_words_iff.1 hmem, rfl⟩
  · rintro ⟨rfl, hpasses, word, hword, hchars⟩
    rw [← hchars] at hpasses
    refine ⟨word, List.mem_filter.2 ⟨mem_words_iff.2 hword, hpasses⟩, ?_⟩
    rw [hchars, String.ofList_toList]

theorem claims_eq_wordClaims {rule : Rule} {c : Category}
    (hread : rule.pattern.ReadBy (Reader.word.keep passes))
    (haccept : ∀ value, rule.accept value = none ∨ rule.accept value = some c) (text : String) :
    rule.claims text =
      wordClaims c (fun cs => passes cs && rule.accept (String.ofList cs) == some c) text := by
  rw [claims_of_accept haccept, hread.values_eq, Reader.scan, Reader.scanFrom_keep_word,
    List.map_map, List.filter_map, List.map_map, List.filter_filter, wordClaims]
  congr 2
  funext word
  rw [Bool.and_comm, Bool.eq_iff_iff]
  simp

theorem claims_event_eq (text : String) :
    event.claims text = wordClaims .events
      (fun cs => isSnakeCase cs && event.accept (String.ofList cs) == some .events) text := by
  apply claims_eq_wordClaims readBy_event
  intro value
  rw [accept]
  split
  · exact .inl rfl
  · split
    · exact .inl rfl
    · exact .inr rfl

theorem claims_table_eq (text : String) :
    table.claims text = wordClaims .tables (fun cs => isSnakeCase cs && isOfFamily cs) text := by
  rw [claims_eq_wordClaims readBy_table fun _ => .inr rfl]
  congr 1
  funext cs
  rw [isTableName]
  simp [accept]

theorem accept_customer {value : String} (h : "customer_".toList <+: value.toList) :
    event.accept value = some .events := by
  have hunder : Text.contains value "_" := by
    refine Text.contains_iff.2 (List.IsInfix.trans ?_ h.isInfix)
    exact ⟨"customer".toList, [], rfl⟩
  have hcustomer : Text.contains value "customer" := by
    refine Text.contains_iff.2 (List.IsInfix.trans ?_ h.isInfix)
    exact ⟨[], "_".toList, rfl⟩
  have hallowed : value ∉ eventDenylist := by
    intro hmem
    have hnone : ∀ denied ∈ eventDenylist, ¬"customer_".toList <+: denied.toList := by decide
    exact hnone value hmem h
  simp [accept, hunder, hallowed, eventKeywords, hcustomer]

/-- The rules for events and tables claim whole words: the same words where a name of one kind
could be of the other. -/
theorem claims_event_and_table (text : String) :
    (∀ word : Stretch, word ∈ words text.toList ↔ word.IsWordOf text.toList) ∧
    (words text.toList).Pairwise (fun word later => word.finish ≤ later.start) ∧
    event.claims text = ((words text.toList).filter fun word =>
        isSnakeCase word.chars && event.accept (String.ofList word.chars) == some .events).map
      (fun word => ⟨.events, String.ofList word.chars⟩) ∧
    table.claims text = ((words text.toList).filter fun word =>
        isSnakeCase word.chars && isOfFamily word.chars).map
      (fun word => ⟨.tables, String.ofList word.chars⟩) ∧
    (∀ value, ⟨.tables, value⟩ ∈ table.claims text →
      event.accept value = some .events ∨ "customer_".toList <+: value.toList →
        ⟨.events, value⟩ ∈ event.claims text) ∧
    (∀ value, ⟨.events, value⟩ ∈ event.claims text → isOfFamily value.toList →
      ⟨.tables, value⟩ ∈ table.claims text) ∧
    ∀ claim, claim ∈ event.claims text ∨ claim ∈ table.claims text →
      ∃ word : Stretch, word.IsWordOf text.toList ∧ word.chars = claim.value.toList := by
  refine ⟨fun word => mem_words_iff, Reader.pairwise_scanFrom _ _, claims_event_eq text,
    claims_table_eq text, ?_, ?_, ?_⟩
  · intro value htable hevent
    rw [claims_table_eq, mem_wordClaims_iff, Bool.and_eq_true] at htable
    obtain ⟨-, ⟨hsnake, -⟩, hword⟩ := htable
    have haccept : event.accept value = some .events := by
      rcases hevent with haccept | hcustomer
      · exact haccept
      · exact accept_customer hcustomer
    rw [claims_event_eq, mem_wordClaims_iff]
    exact ⟨rfl, by simp [hsnake, haccept], hword⟩
  · intro value hevent hfamily
    rw [claims_event_eq, mem_wordClaims_iff, Bool.and_eq_true] at hevent
    obtain ⟨-, ⟨hsnake, -⟩, hword⟩ := hevent
    rw [claims_table_eq, mem_wordClaims_iff]
    exact ⟨rfl, by simp [hsnake, hfamily], hword⟩
  · rintro claim (hevent | htable)
    · rw [claims_event_eq, mem_wordClaims_iff] at hevent
      exact hevent.2.2
    · rw [claims_table_eq, mem_wordClaims_iff] at htable
      exact htable.2.2

theorem claims_event_and_table_login :
    let text := "\"customer_login\", sales_order_save; quote_item2"
    ⟨.tables, "customer_login"⟩ ∈ table.claims text ∧
      ⟨.events, "customer_login"⟩ ∈ event.claims text ∧
      ⟨.events, "sales_order_save"⟩ ∈ event.claims text ∧
      ⟨.tables, "sales_order_save"⟩ ∈ table.claims text := by
  intro text
  have hlogin : (Stretch.mk 1 "customer_login".toList).IsWordOf text.toList :=
    ⟨by decide, by decide, List.all_eq_true.1 (by decide), by decide, by decide⟩
  have hsave : (Stretch.mk 18 "sales_order_save".toList).IsWordOf text.toList :=
    ⟨by decide, by decide, List.all_eq_true.1 (by decide), by decide, by decide⟩
  have htable : ⟨.tables, "customer_login"⟩ ∈ table.claims text := by
    rw [claims_table_eq, mem_wordClaims_iff]
    exact ⟨rfl, by decide, _, hlogin, rfl⟩
  have hevent : ⟨.events, "sales_order_save"⟩ ∈ event.claims text := by
    rw [claims_event_eq, mem_wordClaims_iff]
    exact ⟨rfl, by decide, _, hsave, rfl⟩
  obtain ⟨-, -, -, -, htoEvent, htoTable, -⟩ := claims_event_and_table text
  exact ⟨htable, htoEvent _ htable (.inr (by decide)), hevent, htoTable _ hevent (by decide)⟩

end Rule
end DocClaims
