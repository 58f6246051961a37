import DocClaims.Proofs.Checking.Verdicts

/-!
# When a claim is found

A claim is found if its expected file shows it or if a search for it has hits, and only then. In
the first case the confidence is high, and otherwise the category tells what the hits are worth.
-/

namespace DocClaims

namespace Tier

theorem status_eq_found_iff {tier : Tier} :
    tier.status = .found ↔ tier = expected ∨ tier = hits := by
  cases tier <;> simp [status]

theorem ofSearches_eq_hits_iff {searches : List Search} :
    ofSearches searches = hits ↔ ∃ s ∈ searches, s.outcome.hits ≠ [] := by
  have hany : (searches.any fun s => !s.outcome.hits.isEmpty) = true ↔
      ∃ s ∈ searches, s.outcome.hits ≠ [] := by
    simp
  rw [← hany, ofSearches]
  split
  · next h => simp [h]
  · next h =>
      apply iff_of_false
      · split <;> decide
      · exact h

end Tier

namespace SearchPlan

theorem status_verdict_iff {plan : SearchPlan} {claim : Claim} {searches : List Search} :
    (plan.verdict claim searches).status = .found ↔ ∃ s ∈ searches, s.outcome.hits ≠ [] := by
  obtain ⟨-, hstatus, -⟩ := plan.verdict_of_searches claim searches
  rw [hstatus, Tier.status_eq_found_iff, ← Tier.ofSearches_eq_hits_iff, or_iff_right]
  rcases Tier.ofSearches_cases searches with h | h | h <;> rw [h] <;> decide

end SearchPlan

namespace Checker

variable {c : Checker} {claim : Claim} {check : Check} {p : TypePath}

/-- A search of one of the classes of files has hits for the claim. -/
def HasHits (c : Checker) (claim : Claim) : Prop :=
  ∃ plan, c.plan? claim = some plan ∧ ∃ k ∈ plan.classes, ∃ o,
    c.chain.search ⟨plan.pattern, c.root.modules, k⟩ = .ok o ∧ o.hits ≠ []

/-- A claim on a type has an expected line unless its expected file misses it. -/
theorem not_missesExpected_iff :
    ¬c.MissesExpected claim ↔ claim.category.isType ∧
      ∃ p line, TypePath.ofName? claim.value = some p ∧ c.expectedLine? p = some line := by
  simp only [MissesExpected, not_forall, exists_prop, Option.ne_none_iff_exists', ← ne_eq,
    exists_and_left]

/-! ### Types -/

section Types

variable (htype : claim.category.isType) (hname : TypePath.ofName? claim.value = some p)
include htype hname

theorem missesExpected_iff : c.MissesExpected claim ↔ c.expectedLine? p = none := by
  constructor
  · intro hmisses
    exact hmisses htype p hname
  · intro hline _ q hq
    rw [hname] at hq
    obtain rfl := Option.some.inj hq
    exact hline

theorem plan?_of_type : c.plan? claim = some (.ofType p.marker (c.absenceNotes p)) := by
  have hplan : c.plan? claim =
      (TypePath.ofName? claim.value).map fun p => .ofType p.marker (c.absenceNotes p) := by
    obtain ⟨category, value⟩ := claim
    rcases Category.isType_iff.1 htype with rfl | rfl <;> rfl
  rw [hplan, hname]
  rfl

theorem check_eq_of_type :
    c.check claim =
      match c.expectedLine? p with
      | some line =>
          .ok (.ofVerdict
            (.found claim .high [⟨p.relative, line⟩] ("Found at expected path " ++ p.relative)))
      | none =>
          (SearchPlan.ofType p.marker (c.absenceNotes p)).carryOut c.chain c.root.modules
            claim := by
  have hcheck : c.check claim = c.checkType claim := by
    obtain ⟨category, value⟩ := claim
    rcases Category.isType_iff.1 htype with rfl | rfl <;> rfl
  rw [hcheck, checkType, hname]
  rfl

theorem check_of_expectedLine? {line : Nat} (hline : c.expectedLine? p = some line) :
    c.check claim = .ok (.ofVerdict
      (.found claim .high [⟨p.relative, line⟩] ("Found at expected path " ++ p.relative))) := by
  rw [check_eq_of_type htype hname, hline]

theorem check_of_expectedLine?_eq_none (hline : c.expectedLine? p = none) :
    c.check claim =
      (SearchPlan.ofType p.marker (c.absenceNotes p)).carryOut c.chain c.root.modules claim := by
  rw [check_eq_of_type htype hname, hline]

end Types

/-! ### All claims -/

theorem Ends.found_iff_exists (h : c.Ends claim check) :
    check.verdict.status = .found ↔ ¬c.MissesExpected claim ∨ c.HasHits claim := by
  cases h with
  | unsupported hvalidated =>
      apply iff_of_false
      · simp [Check.ofVerdict, Verdict.notValidated]
      · rintro (hmeets | ⟨plan, hplan, -⟩)
        · have htype := isValidated_of_isType (not_missesExpected_iff.1 hmeets).1
          rw [hvalidated] at htype
          cases htype
        · have hsuits := (suits_of_plan? hplan).validated
          rw [hvalidated] at hsuits
          cases hsuits
  | malformed htype hname =>
      apply iff_of_false
      · simp [Check.ofVerdict, Verdict.notFound]
      · rintro (hmeets | ⟨plan, hplan, -⟩)
        · obtain ⟨-, p, line, hp, -⟩ := not_missesExpected_iff.1 hmeets
          rw [hname] at hp
          cases hp
        · obtain ⟨p, hp⟩ := exists_typePath_of_plan? hplan htype
          rw [hname] at hp
          cases hp
  | expected htype hname hline =>
      apply iff_of_true
      · rfl
      · exact .inl (not_missesExpected_iff.2 ⟨htype, _, _, hname, hline⟩)
  | @searched plan searches hplan hmisses hsearches =>
      have hhits : c.HasHits claim ↔ ∃ k ∈ plan.classes, ∃ o,
          c.chain.search ⟨plan.pattern, c.root.modules, k⟩ = .ok o ∧ o.hits ≠ [] := by
        rw [HasHits, hplan]
        simp
      rw [SearchPlan.status_verdict_iff, SearchPlan.exists_hits_searchesIn_iff hsearches, hhits,
        or_iff_right (not_not_intro hmisses)]

/-- What a claim that is found is trusted with. -/
theorem Ends.confidence_of_found (h : c.Ends claim check) (hfound : check.verdict.status = .found) :
    (¬c.MissesExpected claim → check.verdict.confidence = .high) ∧
      (c.MissesExpected claim → check.verdict.confidence = claim.category.presence) := by
  cases h with
  | unsupported | malformed => cases hfound
  | expected htype hname hline =>
      refine ⟨fun _ => rfl, fun hmisses => ?_⟩
      exact absurd hmisses (not_missesExpected_iff.2 ⟨htype, _, _, hname, hline⟩)
  | @searched plan searches hplan hmisses _ =>
      refine ⟨fun hmeets => absurd hmisses hmeets, fun _ => ?_⟩
      obtain ⟨-, -, hconfidence⟩ := plan.verdict_of_searches claim searches
      have hhits := Tier.ofSearches_eq_hits_iff.2 (SearchPlan.status_verdict_iff.1 hfound)
      rw [hconfidence, hhits, ← (suits_of_plan? hplan).presence]
      rfl

/-- A claim on a type that is found with high confidence has its expected line as evidence. -/
theorem Ends.exists_expectedLine? (h : c.Ends claim check) (htype : claim.category.isType)
    (hname : TypePath.ofName? claim.value = some p) (hfound : check.verdict.status = .found)
    (hhigh : check.verdict.confidence = .high) :
    ∃ line, c.expectedLine? p = some line ∧ check.verdict.evidence = [⟨p.relative, line⟩] := by
  have hmeets : ¬c.MissesExpected claim := by
    intro hmisses
    have hpresence := (h.confidence_of_found hfound).2 hmisses
    rw [hhigh] at hpresence
    rcases Category.isType_iff.1 htype with hcategory | hcategory
    · rw [hcategory] at hpresence
      cases hpresence
    · rw [hcategory] at hpresence
      cases hpresence
  cases h with
  | unsupported | malformed => cases hfound
  | expected _ hname' hline =>
      rw [hname] at hname'
      obtain rfl := Option.some.inj hname'
      exact ⟨_, hline, rfl⟩
  | searched _ hmisses => exact absurd hmisses hmeets

end Checker
end DocClaims
