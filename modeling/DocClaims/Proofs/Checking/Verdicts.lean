import DocClaims.Proofs.Checking.Tiers

/-!
# What a check gives

From the ways in which a check may end follows all that is said of its verdict and of the
searches made for it. A claim has a verdict whenever the searchers answer or fail.
-/

namespace DocClaims

open Outcome

namespace Checker

/-- The tier in which the check of a claim ends that made the searches. -/
def tier (c : Checker) (claim : Claim) (searches : List Search) : Tier :=
  if !claim.category.isValidated then .unsupported
  else if claim.category.isType then
    match TypePath.ofName? claim.value with
    | none => .malformed
    | some p => if (c.expectedLine? p).isSome then .expected else .ofSearches searches
  else .ofSearches searches

variable {c : Checker} {claim : Claim} {check : Check}

/-- A line of the expected file holds the marker; the file is read as text, bytes that
are no text being replaced. -/
def DeclaresExpected (c : Checker) (p : TypePath) : Prop :=
  ∃ bytes, c.files.read (c.expectedFile p) = .ok bytes ∧
    ∃ line ∈ Text.lines (Text.decodeLossy bytes), Text.occursIn p.marker.toList line

theorem matchingLines_eq_nil_iff {pattern : String} {bytes : Text.Bytes} :
    Walk.matchingLines pattern bytes = [] ↔
      ∀ line ∈ Text.lines (Text.decodeLossy bytes), ¬Text.occursIn pattern.toList line := by
  rw [Walk.matchingLines, List.filterMap_eq_nil_iff]
  constructor
  · intro h line hline
    obtain ⟨i, hi, rfl⟩ := List.mem_iff_getElem.1 hline
    have hentry := h (_, 1 + i) (List.mem_zipIdx_iff_le_and_getElem?_sub.2
      ⟨Nat.le_add_right 1 i, by simp [List.getElem?_eq_getElem hi]; rfl⟩)
    simpa using hentry
  · rintro h ⟨line, n⟩ hmem
    have hline := h line (List.fst_mem_of_mem_zipIdx hmem)
    simp [hline]

theorem isSome_expectedLine?_iff {p : TypePath} :
    (c.expectedLine? p).isSome ↔ c.DeclaresExpected p := by
  unfold expectedLine? lineWith? DeclaresExpected
  cases c.files.read (c.expectedFile p) with
  | error e => simp
  | ok bytes =>
      have h := @matchingLines_eq_nil_iff p.marker bytes
      simp [List.isSome_head?, h]

/-! ### Status, confidence and searches -/

theorem tier_of_searched {plan : SearchPlan} (hplan : c.plan? claim = some plan)
    (hmisses : c.MissesExpected claim) (searches : List Search) :
    c.tier claim searches = .ofSearches searches := by
  rw [tier, (suits_of_plan? hplan).validated]
  by_cases htype : claim.category.isType
  · obtain ⟨p, hp⟩ := exists_typePath_of_plan? hplan htype
    simp [htype, hp, hmisses htype p hp]
  · simp [htype]

/-- The category and the tier give the status and the confidence. -/
theorem Ends.tier (h : c.Ends claim check) :
    check.verdict.claim = claim ∧
      check.verdict.status = (c.tier claim check.searches).status ∧
      check.verdict.confidence = (c.tier claim check.searches).confidence
        claim.category.presence claim.category.absence := by
  cases h with
  | unsupported h =>
      have htier : c.tier claim [] = .unsupported := by simp [Checker.tier, h]
      exact ⟨rfl, by rw [Check.ofVerdict, htier]; rfl, by rw [Check.ofVerdict, htier]; rfl⟩
  | malformed h hname =>
      have htier : c.tier claim [] = .malformed := by
        simp [Checker.tier, isValidated_of_isType h, h, hname]
      exact ⟨rfl, by rw [Check.ofVerdict, htier]; rfl, by rw [Check.ofVerdict, htier]; rfl⟩
  | expected h hname hline =>
      have htier : c.tier claim [] = .expected := by
        simp [Checker.tier, isValidated_of_isType h, h, hname, hline]
      exact ⟨rfl, by rw [Check.ofVerdict, htier]; rfl, by rw [Check.ofVerdict, htier]; rfl⟩
  | @searched plan searches hplan hmisses _ =>
      obtain ⟨hclaim, hstatus, hconfidence⟩ := plan.verdict_of_searches claim searches
      have hsuits := suits_of_plan? hplan
      rw [tier_of_searched hplan hmisses]
      exact ⟨hclaim, hstatus, by rw [hconfidence, hsuits.presence, hsuits.absence]⟩

theorem Ends.notValidated_iff (h : c.Ends claim check) :
    check.verdict.status = .notValidated ↔ claim.category.isValidated = false := by
  cases h with
  | unsupported h => simp [Check.ofVerdict, Verdict.notValidated, h]
  | malformed h _ => simp [Check.ofVerdict, Verdict.notFound, isValidated_of_isType h]
  | expected h _ _ => simp [Check.ofVerdict, Verdict.found, isValidated_of_isType h]
  | @searched plan searches hplan _ _ =>
      have hstatus := (plan.verdict_of_searches claim searches).2.1
      rcases Tier.ofSearches_cases searches with htier | htier | htier <;>
        simp [hstatus, htier, Tier.status, (suits_of_plan? hplan).validated]

theorem Ends.found_iff (h : c.Ends claim check) :
    check.verdict.status = .found ↔ check.verdict.evidence ≠ [] := by
  cases h with
  | unsupported _ => simp [Check.ofVerdict, Verdict.notValidated]
  | malformed _ _ => simp [Check.ofVerdict, Verdict.notFound]
  | expected _ _ _ => simp [Check.ofVerdict, Verdict.found]
  | @searched plan searches hplan _ _ =>
      have hlimit : plan.evidence ≠ 0 := by
        rw [(suits_of_plan? hplan).evidence]
        cases claim.category <;> decide
      exact plan.found_verdict_iff claim searches hlimit

theorem Ends.made (h : c.Ends claim check) :
    ∀ s ∈ check.searches, c.chain.search s.query = .ok s.outcome := by
  cases h with
  | searched _ _ h => exact SearchPlan.search_of_mem_searchesIn h
  | _ => simp [Check.ofVerdict]

theorem Ends.searches_eq_nil_iff (h : c.Ends claim check) :
    check.searches = [] ↔ claim.category.isValidated = false ∨ claim.category.isType ∧
      ∀ p, TypePath.ofName? claim.value = some p → c.DeclaresExpected p := by
  cases h with
  | unsupported h => simp [Check.ofVerdict, h]
  | malformed h hname => simp [Check.ofVerdict, h, hname]
  | expected h hname hline =>
      have hdeclares := isSome_expectedLine?_iff.1 (Option.isSome_of_mem hline)
      simp [Check.ofVerdict, h, hname, hdeclares]
  | searched hplan hmisses h =>
      have hsuits := suits_of_plan? hplan
      simp only [SearchPlan.made_of_searchesIn h hsuits.classes_ne_nil, hsuits.validated, false_iff]
      rintro (hvalidated | ⟨htype, hdeclares⟩)
      · cases hvalidated
      · obtain ⟨p, hp⟩ := exists_typePath_of_plan? hplan htype
        have hsome := isSome_expectedLine?_iff.2 (hdeclares p hp)
        simp [hmisses htype p hp] at hsome

theorem Ends.length_searches_le (h : c.Ends claim check) (hevents : claim.category ≠ .events) :
    check.searches.length ≤ 1 := by
  cases h with
  | @searched plan searches hplan _ h =>
      have hlength := SearchPlan.length_searchesIn_le h
      rw [(suits_of_plan? hplan).classes] at hlength
      refine Nat.le_trans hlength ?_
      cases hcategory : claim.category <;> simp_all [Category.searchedClasses]
  | _ => exact Nat.zero_le 1

/-- Events are looked for in source only when markup has no hits. -/
theorem Ends.events (h : c.Ends claim check) (hevents : claim.category = .events) :
    ∃ s, s.query = ⟨claim.value, c.root.modules, .markup⟩ ∧
      ((s.outcome.hits ≠ [] ∧ check.searches = [s]) ∨
        s.outcome.hits = [] ∧ ∃ t, t.query = ⟨claim.value, c.root.modules, .source⟩ ∧
          check.searches = [s, t]) := by
  obtain ⟨category, value⟩ := claim
  obtain rfl : category = .events := hevents
  cases h with
  | unsupported h => cases h
  | malformed h _ => cases h
  | expected h _ _ => cases h
  | searched hplan _ h =>
      obtain rfl := Option.some.inj hplan
      obtain ⟨s, hs, -, ⟨hhits, rfl⟩ | ⟨hhits, later, hlater, rfl⟩⟩ :=
        SearchPlan.searchesIn_cons_eq_ok_iff.1 h
      · exact ⟨s, hs, .inl ⟨hhits, rfl⟩⟩
      · obtain ⟨t, ht, -, ⟨-, rfl⟩ | ⟨-, rest, hrest, rfl⟩⟩ :=
          SearchPlan.searchesIn_cons_eq_ok_iff.1 hlater
        · exact ⟨s, hs, .inr ⟨hhits, t, ht, rfl⟩⟩
        · rw [SearchPlan.eq_nil_of_searchesIn_nil hrest]
          exact ⟨s, hs, .inr ⟨hhits, t, ht, rfl⟩⟩

theorem Ends.evidence (h : c.Ends claim check) :
    (∃ p line, claim.category.isType ∧ TypePath.ofName? claim.value = some p ∧
      c.expectedLine? p = some line ∧ check.verdict.evidence = [⟨p.relative, line⟩]) ∨
    (∃ before s after, check.searches = before ++ s :: after ∧
      check.verdict.evidence = s.outcome.hits.take claim.category.evidenceLimit ∧
      ∀ t ∈ before ++ after, t.outcome.hits = []) ∨
    check.searches = [] ∧ check.verdict.evidence = [] := by
  cases h with
  | unsupported _ => exact .inr (.inr ⟨rfl, rfl⟩)
  | malformed _ _ => exact .inr (.inr ⟨rfl, rfl⟩)
  | expected h hname hline => exact .inl ⟨_, _, h, hname, hline, rfl⟩
  | searched hplan _ h =>
      have hsuits := suits_of_plan? hplan
      rw [← hsuits.evidence]
      exact .inr (.inl (SearchPlan.evidence_verdict h hsuits.classes_ne_nil))

/-! ### All of it -/

/-- What holds of the check of a claim: its verdict is on the claim, rests on the
searches made for it, and no more searches are made than it takes. -/
structure Justified (c : Checker) (claim : Claim) (check : Check) : Prop where
  claim_eq : check.verdict.claim = claim
  made : ∀ s ∈ check.searches, c.chain.search s.query = .ok s.outcome
  found_iff : check.verdict.status = .found ↔ check.verdict.evidence ≠ []
  /-- The evidence is the expected line, or the first hits of the one search that has
  any, or there is neither search nor evidence. -/
  evidence :
    (∃ p line, claim.category.isType ∧ TypePath.ofName? claim.value = some p ∧
      c.expectedLine? p = some line ∧ check.verdict.evidence = [⟨p.relative, line⟩]) ∨
    (∃ before s after, check.searches = before ++ s :: after ∧
      check.verdict.evidence = s.outcome.hits.take claim.category.evidenceLimit ∧
      ∀ t ∈ before ++ after, t.outcome.hits = []) ∨
    check.searches = [] ∧ check.verdict.evidence = []
  notValidated_iff : check.verdict.status = .notValidated ↔ claim.category.isValidated = false
  unsearched : claim.category.isValidated = false → check.searches = []
  once : claim.category ≠ .events → check.searches.length ≤ 1
  events : claim.category = .events →
    ∃ s, s.query = ⟨claim.value, c.root.modules, .markup⟩ ∧
      ((s.outcome.hits ≠ [] ∧ check.searches = [s]) ∨
        s.outcome.hits = [] ∧ ∃ t, t.query = ⟨claim.value, c.root.modules, .source⟩ ∧
          check.searches = [s, t])
  declared : claim.category.isType → ∀ p, TypePath.ofName? claim.value = some p →
    c.DeclaresExpected p → check.searches = []

theorem Ends.justified (h : c.Ends claim check) : c.Justified claim check where
  claim_eq := h.tier.1
  made := h.made
  found_iff := h.found_iff
  evidence := h.evidence
  notValidated_iff := h.notValidated_iff
  unsearched hvalidated := h.searches_eq_nil_iff.2 (.inl hvalidated)
  once := h.length_searches_le
  events := h.events
  declared htype p hname hdeclares := by
    refine h.searches_eq_nil_iff.2 (.inr ⟨htype, ?_⟩)
    intro q hq
    obtain rfl : p = q := by simpa [hname] using hq
    exact hdeclares

/-- Whatever the files are and whatever the searchers answer, a claim has a justified
verdict. Two checks of claims of one category that end in the same tier agree in
status and confidence, and the confidence is low only where the name is malformed, no
backend answered or the category is unsupported. -/
theorem justified_of_responds (hchain : c.chain.Responds) (claim : Claim) :
    ∃ check, c.check claim = .ok check ∧ c.Justified claim check ∧
      (∀ (d : Checker) (other : Claim) (check' : Check), d.check other = .ok check' →
        other.category = claim.category →
        d.tier other check'.searches = c.tier claim check.searches →
          check'.verdict.status = check.verdict.status ∧
            check'.verdict.confidence = check.verdict.confidence) ∧
      (check.verdict.confidence = .low →
        c.tier claim check.searches = .malformed ∨
          c.tier claim check.searches = .unansweredMiss ∨
            c.tier claim check.searches = .unsupported) := by
  obtain ⟨check, hcheck⟩ := exists_check hchain claim
  have hends := ends_of_check hcheck
  obtain ⟨-, hstatus, hconfidence⟩ := hends.tier
  refine ⟨check, hcheck, hends.justified, ?_, ?_⟩
  · intro d other check' hcheck' hcategory htier
    obtain ⟨-, hstatus', hconfidence'⟩ := (ends_of_check hcheck').tier
    rw [hstatus, hstatus', hconfidence, hconfidence', htier, hcategory]
    exact ⟨rfl, rfl⟩
  · intro hlow
    exact Tier.confidence_eq_low (hconfidence ▸ hlow)

/-- Answers every query, with seven hits in source and with none elsewhere. -/
def sourceIndex : Searcher where
  name := "index"
  ask q := .ok <| .ok <|
    if q.fileClass = .source then (List.range 7).map (Hit.mk "Observer.php") else []
  invocation? _ := none

theorem responds_sourceIndex : (within [sourceIndex]).chain.Responds := by
  intro x hx q
  obtain rfl := List.mem_singleton.1 hx
  exact ⟨_, rfl⟩

theorem justified_sourceIndex :
    (within [sourceIndex]).chain.Responds ∧
      ∃ check, (within [sourceIndex]).check ⟨.events, "customer_login"⟩ = .ok check ∧
        check.searches.length = 2 ∧ check.verdict.evidence.length = 5 ∧
        (within [sourceIndex]).Justified ⟨.events, "customer_login"⟩ check ∧
        (∀ (d : Checker) (other : Claim) (check' : Check), d.check other = .ok check' →
          other.category = .events →
          d.tier other check'.searches =
              (within [sourceIndex]).tier ⟨.events, "customer_login"⟩ check.searches →
            check'.verdict.status = check.verdict.status ∧
              check'.verdict.confidence = check.verdict.confidence) ∧
        check.verdict.confidence ≠ .low := by
  obtain ⟨check, hcheck, hjustified, hsame, -⟩ :=
    justified_of_responds responds_sourceIndex ⟨.events, "customer_login"⟩
  obtain rfl : _ = check := Except.ok.inj hcheck
  exact ⟨responds_sourceIndex, _, rfl, by rfl, by rfl, hjustified, hsame, by decide⟩

/-! ### Markers with line breaks -/

def silent : Searcher := ⟨"silent", fun _ => .ok (.ok []), fun _ => none⟩

/-- The expected file of a type whose name has a line break in it. -/
def brokenLine : Checker where
  files :=
    { root := .directory
        [("module-foo", .directory [("A\nB.php", .file (Text.encode "class A\nB"))])]
      here := [] }
  root := .within "."
  chain := ⟨[silent]⟩

theorem search_despite_marker :
    ∃ p bytes check, brokenLine.chain.Responds ∧
      TypePath.ofName? "Magento\\Foo\\A\nB" = some p ∧
      brokenLine.files.read (brokenLine.expectedFile p) = .ok bytes ∧
      Text.occursIn p.marker.toList (Text.decodeLossy bytes) ∧
      brokenLine.check ⟨.classes, "Magento\\Foo\\A\nB"⟩ = .ok check ∧ check.searches ≠ [] := by
  have hchain : brokenLine.chain.Responds := by
    intro x hx q
    obtain rfl := List.mem_singleton.1 hx
    exact ⟨_, rfl⟩
  have hname : TypePath.ofName? "Magento\\Foo\\A\nB" =
      some ⟨"module-foo/A\nB.php", "A\nB"⟩ := by decide +kernel
  have hread : brokenLine.files.read (brokenLine.expectedFile ⟨"module-foo/A\nB.php", "A\nB"⟩) =
      .ok (Text.encode "class A\nB") := by rfl
  obtain ⟨check, hcheck⟩ := exists_check hchain ⟨.classes, "Magento\\Foo\\A\nB"⟩
  refine ⟨_, _, check, hchain, hname, hread, by decide +kernel, hcheck, ?_⟩
  intro hnone
  rcases (ends_of_check hcheck).searches_eq_nil_iff.1 hnone with hvalidated | ⟨-, hdeclares⟩
  · cases hvalidated
  · obtain ⟨bytes, hbytes, line, hline, hoccurs⟩ := hdeclares _ hname
    obtain rfl := Except.ok.inj (hread.symm.trans hbytes)
    have hlines : ∀ line ∈ Text.lines (Text.decodeLossy (Text.encode "class A\nB")),
        ¬Text.occursIn "class A\nB".toList line := by decide +kernel
    exact hlines line hline hoccurs

end Checker
end DocClaims
