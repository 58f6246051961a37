import DocClaims.Extraction
import DocClaims.Proofs.ClaimSets
import DocClaims.Proofs.Rules
import DocClaims.Proofs.Scanner.Grouping

/-!
# Claims of documents

The claims of a document are those that some rule finds in some unit, in whatever order
and however often the units are classified. Each claim stands in the texts of the document
and is what its category asks for.
-/

namespace DocClaims

namespace Markup

/-- The texts among the events, in order. -/
def texts (events : List Event) : List String :=
  events.filterMap fun e => match e with | .text s => some s | _ => none

end Markup

variable {scanner : Scanner} {markup source extractedAt unit : String} {claim : Claim}

/-- A unit is made of texts that follow one another. -/
theorem Scanner.exists_texts_of_mem_scan (h : unit ∈ scanner.scan markup) :
    ∃ texts, texts <:+: Markup.texts (tokenize markup) ∧ unit = String.join texts := by
  have hstart : Collecting scanner [] false [] := ⟨rfl, .nil, by simp⟩
  have hunits : scanner.scan markup = unitsOf (scanner.groups (tokenize markup)) :=
    unitsFrom_eq hstart
  rw [hunits] at h
  obtain ⟨group, hgroup, rfl⟩ := List.mem_map.1 (List.mem_filter.1 h).1
  refine ⟨group.map Piece.text, ?_, rfl⟩
  have hinfix := (List.infix_of_mem_flatten hgroup).map Piece.text
  rw [groups, List.flatten_splitBy, pieces, map_text_piecesFrom] at hinfix
  exact hinfix

theorem extract_eq_ofClaims (scanner : Scanner) (markup source extractedAt : String) :
    extract scanner markup source extractedAt =
      .ofClaims source extractedAt ((scanner.scan markup).flatMap classify) := by
  rw [ClaimSet.ofClaims, ClaimSet.insertAll, List.foldl_flatMap]
  rfl

theorem mem_classify_iff : claim ∈ classify unit ↔ ∃ rule ∈ Rule.all, claim ∈ rule.claims unit :=
  List.mem_flatMap

theorem contains_extract_iff :
    (extract scanner markup source extractedAt).contains claim ↔
      ∃ unit ∈ scanner.scan markup, ∃ rule ∈ Rule.all, claim ∈ rule.claims unit := by
  rw [extract_eq_ofClaims, ClaimSet.contains_ofClaims]
  simp [mem_classify_iff]

theorem ofClaims_eq_of_mem_iff {units others : List String}
    (h : ∀ unit, unit ∈ units ↔ unit ∈ others) :
    ClaimSet.ofClaims source extractedAt (units.flatMap classify) =
      .ofClaims source extractedAt (others.flatMap classify) :=
  ClaimSet.ofClaims_congr fun claim => by simp only [List.mem_flatMap, h]

theorem accept_of_contains (h : (extract scanner markup source extractedAt).contains claim) :
    claim.category.rule.accept claim.value = some claim.category := by
  obtain ⟨unit, -, rule, -, hclaim⟩ := contains_extract_iff.1 h
  have haccept := (Rule.mem_claims_iff.1 hclaim).2
  rwa [Rule.rule_of_accept haccept]

/-- The claims of a document: what is among them, that the order and the repetition of its
units do not count, where each of them stands and what it looks like. -/
theorem extract_spec (scanner : Scanner) (markup source extractedAt : String) :
    (∀ claim, (extract scanner markup source extractedAt).contains claim ↔
      ∃ unit ∈ scanner.scan markup, ∃ rule ∈ Rule.all, claim ∈ rule.claims unit) ∧
    (∀ units : List String, (∀ unit, unit ∈ units ↔ unit ∈ scanner.scan markup) →
      extract scanner markup source extractedAt =
        .ofClaims source extractedAt (units.flatMap classify)) ∧
    (∀ claim, (extract scanner markup source extractedAt).contains claim →
      (∃ texts, texts <:+: Markup.texts (tokenize markup) ∧
        String.join texts ∈ scanner.scan markup ∧
        claim.value.toList <:+: (String.join texts).toList) ∧
      claim.category.rule.valuePattern.matchesWhole claim.value.toList ∧
      claim.category.Allows claim.value) ∧
    ∀ value, ¬((extract scanner markup source extractedAt).contains ⟨.classes, value⟩ ∧
      (extract scanner markup source extractedAt).contains ⟨.interfaces, value⟩) := by
  refine ⟨fun claim => contains_extract_iff, ?_, ?_, ?_⟩
  · intro units hunits
    rw [extract_eq_ofClaims, ofClaims_eq_of_mem_iff fun unit => (hunits unit).symm]
  · intro claim h
    obtain ⟨unit, hunit, rule, -, hclaim⟩ := contains_extract_iff.1 h
    obtain ⟨hfound, haccept⟩ := Rule.mem_claims_iff.1 hclaim
    obtain ⟨texts, htexts, rfl⟩ := Scanner.exists_texts_of_mem_scan hunit
    obtain ⟨hrule, hallowed⟩ := Rule.accept_eq_some_iff.1 haccept
    refine ⟨⟨texts, htexts, hunit, Pattern.infix_of_mem_values hfound⟩, ?_, hallowed⟩
    rw [hrule]
    exact Rule.matchesWhole_of_mem_values hfound
  · rintro value ⟨hclass, hinterface⟩
    have haccept : some Category.classes = some Category.interfaces :=
      (accept_of_contains hclass).symm.trans (accept_of_contains hinterface)
    cases haccept

end DocClaims
