import DocClaims.Proofs.Extraction
import DocClaims.Proofs.Markup.Elements
import DocClaims.Proofs.Rules.Written

/-!
# Documents of claims

The claims of a document, written out in elements of their own, make up a document that has
them again: each element is a text unit, in which the rule of the claim finds it.
-/

namespace DocClaims

open Markup

variable {scanner : Scanner} {rule : Rule} {text : String} {claim : Claim} {claims : List Claim}

/-- The claim as a document may write it. -/
def Claim.written (claim : Claim) : String := claim.category.rule.written claim.value

/-- A document with an element for each claim. -/
def documentOf (claims : List Claim) : String :=
  String.join ((claims.map Claim.written).map (element "code"))

theorem isElementName_code : IsElementName "code" :=
  ⟨by decide, List.all_eq_true.1 (by decide), by decide⟩

theorem isVerbatim_code :
    (Scanner.ofTags Scanner.defaultVerbatimTags qualifiedMarker).isVerbatim "code" := by decide

theorem written_eq (h : claim ∈ rule.claims text) :
    claim.written = rule.written claim.value := by
  rw [Claim.written, Rule.rule_of_accept (Rule.mem_claims_iff.1 h).2]

/-! ### What is written -/

theorem Rule.claims_empty (rule : Rule) : rule.claims "" = [] := by
  rw [claims, Pattern.values, Pattern.valuesFrom_of_rest_eq_nil rfl]
  rfl

theorem isPlain_and_not_isBlank {c : Char} (h : (CharSet.oneOf Rule.writtenItems).has c) :
    isPlain c ∧ Text.isBlank c = false := by
  have hne : ∀ d, (CharSet.oneOf Rule.writtenItems).has d = false → c ≠ d := by
    rintro d hd rfl
    rw [hd] at h
    cases h
  have hrange : '(' ≤ c ∧ c ≤ ':' ∨ 'A' ≤ c ∧ c ≤ 'z' := by
    simpa [Rule.writtenItems, CharSet.has, CharSet.Item.has] using h
  simp only [Char.le_def, UInt32.le_iff_toNat_le] at hrange
  have hvisible : 33 ≤ c.toNat ∧ c.toNat < 127 := by
    rcases hrange with ⟨hlow, hhigh⟩ | ⟨hlow, hhigh⟩
    all_goals exact ⟨Nat.le_trans (by decide) hlow, Nat.lt_of_le_of_lt hhigh (by decide)⟩
  refine ⟨?_, Rule.not_isBlank_of_visible hvisible.1 hvisible.2⟩
  have hnull : c.toNat ≠ 0 := by omega
  simp [isPlain, isRawPlain, hne '&' rfl, hne '<' rfl, hne '\r' rfl, hnull]

theorem isPlainText_written (h : claim ∈ rule.claims text) : IsPlainText claim.written := by
  rw [written_eq h]
  refine ⟨?_, fun c hc => (isPlain_and_not_isBlank (Rule.has_of_mem_written h c hc)).1⟩
  intro hnil
  have hclaims := Rule.claims_written h
  rw [String.toList_eq_nil_iff.1 hnil, Rule.claims_empty] at hclaims
  cases hclaims

theorem not_allBlank_written (h : claim ∈ rule.claims text) :
    Text.allBlank claim.written = false := by
  obtain ⟨c, chars, hchars⟩ := List.exists_cons_of_ne_nil (isPlainText_written h).ne_nil
  have hc : c ∈ (rule.written claim.value).toList := by
    rw [← written_eq h, hchars]
    exact List.mem_cons_self
  have hblank := (isPlain_and_not_isBlank (Rule.has_of_mem_written h c hc)).2
  rw [Text.allBlank, hchars, List.all_cons, hblank, Bool.false_and]

theorem scan_documentOf (hverbatim : scanner.isVerbatim "code")
    (h : ∀ claim ∈ claims, ∃ (rule : Rule) (text : String), claim ∈ rule.claims text) :
    scanner.scan (documentOf claims) = claims.map Claim.written := by
  have hplain : ∀ content ∈ claims.map Claim.written, IsPlainText content := by
    rw [List.forall_mem_map]
    intro claim hclaim
    obtain ⟨rule, text, hfound⟩ := h claim hclaim
    exact isPlainText_written hfound
  rw [documentOf, Scanner.scan_elements hverbatim isElementName_code hplain, List.filter_eq_self,
    List.forall_mem_map]
  intro claim hclaim
  obtain ⟨rule, text, hfound⟩ := h claim hclaim
  rw [not_allBlank_written hfound]
  rfl

/-- Each claim is found again where it is written out, and a document of the claims of another
one has them all. -/
theorem contains_extract_documentOf :
    (∀ (rule : Rule) (text : String) (claim : Claim), claim ∈ rule.claims text →
      rule.claims (rule.written claim.value) = [claim]) ∧
    (Scanner.ofTags Scanner.defaultVerbatimTags qualifiedMarker).isVerbatim "code" ∧
    ∀ (scanner again : Scanner) (markup source extractedAt : String) (claims : List Claim),
      again.isVerbatim "code" →
      (∀ claim, claim ∈ claims ↔ (extract scanner markup source extractedAt).contains claim) →
      again.scan (documentOf claims) = claims.map Claim.written ∧
      ∀ claim, (extract scanner markup source extractedAt).contains claim →
        (extract again (documentOf claims) source extractedAt).contains claim := by
  refine ⟨fun rule text claim => Rule.claims_written, isVerbatim_code, ?_⟩
  intro scanner again markup source extractedAt claims hverbatim hclaims
  have hfound : ∀ claim ∈ claims, ∃ (rule : Rule) (text : String), claim ∈ rule.claims text := by
    intro claim hclaim
    obtain ⟨unit, -, rule, -, hfound⟩ := contains_extract_iff.1 ((hclaims claim).1 hclaim)
    exact ⟨rule, unit, hfound⟩
  have hscan := scan_documentOf hverbatim hfound
  refine ⟨hscan, fun claim hclaim => ?_⟩
  obtain ⟨unit, -, rule, hrule, hfound⟩ := contains_extract_iff.1 hclaim
  have hunit : claim.written ∈ again.scan (documentOf claims) := by
    rw [hscan]
    exact List.mem_map_of_mem ((hclaims claim).2 hclaim)
  refine contains_extract_iff.2 ⟨claim.written, hunit, rule, hrule, ?_⟩
  rw [written_eq hfound, Rule.claims_written hfound]
  exact List.mem_singleton_self claim

/-- A call and an event, which is the name of a table, too, in a text about them. -/
def loginText : String := "setCustomer($id) fires customer_login."

theorem contains_extract_documentOf_login :
    let scanner := Scanner.ofTags Scanner.defaultVerbatimTags qualifiedMarker
    let set := extract scanner (element "code" loginText) "page" "now"
    ⟨.methods, "setCustomer"⟩ ∈ Rule.method.claims loginText ∧
      Rule.method.claims "setCustomer()" = [⟨.methods, "setCustomer"⟩] ∧
      ∀ claim ∈ [Claim.mk .methods "setCustomer", ⟨.events, "customer_login"⟩,
          ⟨.tables, "customer_login"⟩],
        set.contains claim ∧
          (extract scanner (documentOf set.toList) "page" "now").contains claim := by
  intro scanner set
  have hmethod : ⟨.methods, "setCustomer"⟩ ∈ Rule.method.claims loginText := by decide +kernel
  have hplain : IsPlainText loginText := ⟨by decide, List.all_eq_true.1 (by decide)⟩
  have hscan : scanner.scan (element "code" loginText) = [loginText] := by
    have hjoin : element "code" loginText = String.join ([loginText].map (element "code")) := by
      simp [String.join]
    rw [hjoin, Scanner.scan_elements isVerbatim_code isElementName_code
      (List.forall_mem_singleton.2 hplain)]
    rfl
  have hset (claim : Claim) (hclaim : claim ∈ classify loginText) : set.contains claim := by
    obtain ⟨rule, hrule, hfound⟩ := mem_classify_iff.1 hclaim
    exact contains_extract_iff.2
      ⟨loginText, by rw [hscan]; exact List.mem_singleton_self _, rule, hrule, hfound⟩
  obtain ⟨halone, hverbatim, hagain⟩ := contains_extract_documentOf
  obtain ⟨-, hcontains⟩ := hagain scanner scanner (element "code" loginText) "page" "now"
    set.toList hverbatim fun claim => ClaimSet.mem_toList_iff
  refine ⟨hmethod, halone _ _ _ hmethod, fun claim hclaim => ?_⟩
  have hclassified : ∀ claim ∈ [Claim.mk .methods "setCustomer", ⟨.events, "customer_login"⟩,
      ⟨.tables, "customer_login"⟩], claim ∈ classify loginText := by decide +kernel
  have hfound := hset claim (hclassified claim hclaim)
  exact ⟨hfound, hcontains claim hfound⟩

end DocClaims
