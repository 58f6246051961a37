import DocClaims.Proofs.Checking.Absence

/-!
# Tiers of verdicts

A check ends in one of six tiers. The category of the claim and the tier decide on
the status and the confidence of the verdict; the value of the claim, the files and
the searchers have no other part in them. The evidence of a verdict on searches comes
from one of them.
-/

namespace DocClaims

open Outcome

inductive Tier
  | malformed
  | expected
  | hits
  | answeredMiss
  | unansweredMiss
  | unsupported
  deriving DecidableEq, Repr

namespace Tier

def status : Tier → Status
  | expected | hits => .found
  | malformed | answeredMiss | unansweredMiss => .notFound
  | unsupported => .notValidated

/-- The confidence, when hits and answers without hits are worth what is given. -/
def confidence (presence absence : Confidence) : Tier → Confidence
  | expected => .high
  | hits => presence
  | answeredMiss => absence
  | malformed | unansweredMiss | unsupported => .low

/-- The tier in which searches end. -/
def ofSearches (searches : List Search) : Tier :=
  if searches.any fun s => !s.outcome.hits.isEmpty then .hits
  else if searches.all (·.outcome.isAnswered) then .answeredMiss
  else .unansweredMiss

theorem ofSearches_cases (searches : List Search) :
    ofSearches searches = hits ∨ ofSearches searches = answeredMiss ∨
      ofSearches searches = unansweredMiss := by
  unfold ofSearches
  split
  · exact .inl rfl
  · split
    · exact .inr (.inl rfl)
    · exact .inr (.inr rfl)

theorem confidence_eq_low {category : Category} {t : Tier}
    (h : t.confidence category.presence category.absence = .low) :
    t = malformed ∨ t = unansweredMiss ∨ t = unsupported := by
  cases t with
  | malformed => exact .inl rfl
  | unansweredMiss => exact .inr (.inl rfl)
  | unsupported => exact .inr (.inr rfl)
  | expected => simp [confidence] at h
  | hits => cases category <;> simp [confidence, Category.presence] at h
  | answeredMiss => cases category <;> simp [confidence, Category.absence] at h

end Tier

/-! ### Verdicts on searches -/

namespace SearchPlan

variable {chain : SearchChain} {root : Text.Bytes} {classes : List FileClass}
  {searches : List Search} {plan : SearchPlan} {claim : Claim}

/-- A verdict on searches takes its evidence from one of them, if there is any. -/
theorem evidence_verdict (h : searchesIn chain root plan.pattern classes = .ok searches)
    (hclasses : classes ≠ []) :
    ∃ before s after, searches = before ++ s :: after ∧
      (plan.verdict claim searches).evidence = s.outcome.hits.take plan.evidence ∧
      ∀ t ∈ before ++ after, t.outcome.hits = [] := by
  cases hfind : searches.find? fun s => !s.outcome.hits.isEmpty with
  | some s =>
      obtain ⟨hs, before, after, hsplit, hbefore⟩ := List.find?_eq_some_iff_append.1 hfind
      obtain rfl := eq_nil_of_hits h hsplit (by simpa using hs)
      refine ⟨before, s, [], hsplit, ?_, ?_⟩
      · simp [verdict, hfind, Verdict.found]
      · intro t ht
        simpa using hbefore t (by simpa using ht)
  | none =>
      have hnone : ∀ t ∈ searches, t.outcome.hits = [] := fun t ht => by
        simpa using List.find?_eq_none.1 hfind t ht
      obtain ⟨s, later, rfl⟩ := List.exists_cons_of_ne_nil (made_of_searchesIn h hclasses)
      refine ⟨[], s, later, rfl, ?_, fun t ht => hnone t (by simp_all)⟩
      rw [hnone s (by simp), List.take_nil, verdict, hfind]
      dsimp only
      split <;> rfl

theorem verdict_of_searches (plan : SearchPlan) (claim : Claim) (searches : List Search) :
    (plan.verdict claim searches).claim = claim ∧
      (plan.verdict claim searches).status = (Tier.ofSearches searches).status ∧
      (plan.verdict claim searches).confidence =
        (Tier.ofSearches searches).confidence plan.presence plan.absence := by
  cases hfind : searches.find? fun s => !s.outcome.hits.isEmpty with
  | some s =>
      have htier : Tier.ofSearches searches = .hits :=
        if_pos (List.any_eq_true.2 ⟨s, List.mem_of_find?_eq_some hfind, List.find?_some hfind⟩)
      simp [verdict, hfind, htier, Verdict.found, Tier.status, Tier.confidence]
  | none =>
      have hany : ¬searches.any fun s => !s.outcome.hits.isEmpty := by
        simpa using List.find?_eq_none.1 hfind
      cases hreason : searches.findSome? (·.outcome.reason?) with
      | some reason =>
          have hall : ¬searches.all (·.outcome.isAnswered) := by
            intro hall
            obtain ⟨s, hs, hsome⟩ := List.exists_of_findSome?_eq_some hreason
            simp [SearchOutcome.reason?_eq_none_iff.2 (List.all_eq_true.1 hall s hs)] at hsome
          have htier : Tier.ofSearches searches = .unansweredMiss := by
            rw [Tier.ofSearches, if_neg hany, if_neg hall]
          simp [verdict, hfind, hreason, htier, Verdict.notFound, Tier.status, Tier.confidence]
      | none =>
          have hall : searches.all (·.outcome.isAnswered) := List.all_eq_true.2 fun s hs =>
            SearchOutcome.reason?_eq_none_iff.1 (List.findSome?_eq_none_iff.1 hreason s hs)
          have htier : Tier.ofSearches searches = .answeredMiss := by
            rw [Tier.ofSearches, if_neg hany, if_pos hall]
          simp [verdict, hfind, hreason, htier, Verdict.notFound, Tier.status, Tier.confidence]

theorem found_verdict_iff (plan : SearchPlan) (claim : Claim) (searches : List Search)
    (h : plan.evidence ≠ 0) :
    (plan.verdict claim searches).status = .found ↔
      (plan.verdict claim searches).evidence ≠ [] := by
  unfold verdict
  split
  · next s hfind =>
      have hhits : s.outcome.hits ≠ [] := by simpa using List.find?_some hfind
      simp [Verdict.found, h, hhits]
  · split <;> simp [Verdict.notFound]

end SearchPlan
end DocClaims
