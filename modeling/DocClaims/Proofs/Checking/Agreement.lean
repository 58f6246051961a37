import DocClaims.Proofs.Checking.Verdicts
import DocClaims.Proofs.Search.Consultation

/-!
# Falling back from one searcher to the next

A chain consults its searchers in order up to the first that answers, and the
outcome holds that answer and the failures before it. A verdict on searches that
were all answered depends on the hits alone: neither the searchers that failed nor
the one that answered leave a trace in it.
-/

namespace DocClaims

open Outcome

namespace SearchChain

variable {chain other : SearchChain} {q : Query} {o p : SearchOutcome}

/-! ### What a search gives -/

/-- What comes of a query: those before the first searcher that answers have failed, and
the outcome holds its hits and their failures; or else all have failed. -/
inductive Yields (chain : SearchChain) (q : Query) (o : SearchOutcome) : Prop
  | answered (before after : List Searcher) (x : Searcher) (hits : List Hit)
      (split : chain.searchers = before ++ x :: after)
      (failed : List.Forall₂ (Searcher.FailsWith q) before o.failures)
      (answers : x.ask q = .ok (.ok hits)) (isAnswered : o.isAnswered) (hits_eq : o.hits = hits)
      (asked : o.asked = before.length + 1) (reason : o.reason? = none)
  | unanswered (failed : List.Forall₂ (Searcher.FailsWith q) chain.searchers o.failures)
      (isAnswered : o.isAnswered = false) (hits_eq : o.hits = [])
      (asked : o.asked = chain.searchers.length) (reason : o.reason?.isSome)

theorem yields_of_search (h : chain.search q = .ok o) : chain.Yields q o := by
  have hasks : Asks q chain.searchers o := search_eq_ok_iff.1 h
  cases hanswer : o.answer with
  | some hits =>
      obtain ⟨before, x, after, hsplit, hx, hbefore⟩ := hasks.exists_of_answer hanswer
      have hanswered : o.isAnswered := by simp [SearchOutcome.isAnswered, hanswer]
      have hasked : o.asked = before.length + 1 := by
        rw [SearchOutcome.asked, if_pos hanswered, hbefore.length_eq]
      exact .answered before after x hits hsplit hbefore hx hanswered
        (by rw [SearchOutcome.hits, hanswer]; rfl) hasked
        (SearchOutcome.reason?_eq_none_iff.2 hanswered)
  | none =>
      have hfailed := hasks.forall₂_of_no_answer hanswer
      have hanswered : ¬o.isAnswered := by simp [SearchOutcome.isAnswered, hanswer]
      have hasked : o.asked = chain.searchers.length := by
        rw [SearchOutcome.asked, if_neg hanswered, hfailed.length_eq, Nat.add_zero]
      have hreason : o.reason? ≠ none := mt SearchOutcome.reason?_eq_none_iff.1 hanswered
      exact .unanswered hfailed (by simpa using hanswered)
        (SearchOutcome.hits_eq_nil_iff.2 (.inl hanswer)) hasked
        (Option.isSome_iff_ne_none.2 hreason)

theorem Responds.exists_mapM_search (h : chain.Responds) (queries : List Query) :
    ∃ outcomes, queries.mapM chain.search = .ok outcomes :=
  exists_mapM_eq_ok_iff.2 fun q _ => h.exists_search q

theorem forall₂_yields {queries : List Query} {outcomes : List SearchOutcome}
    (h : queries.mapM chain.search = .ok outcomes) :
    List.Forall₂ chain.Yields queries outcomes := by
  induction queries generalizing outcomes with
  | nil =>
      obtain rfl := mapM_nil_eq_ok_iff.1 h
      exact .nil
  | cons q queries ih =>
      obtain ⟨o, later, ho, hlater, rfl⟩ := mapM_cons_eq_ok_iff.1 h
      exact .cons (yields_of_search ho) (ih hlater)

/-! ### Chains that agree -/

/-- Whenever searchers of the two chains answer a query, they give the same hits. -/
def Agrees (chain other : SearchChain) : Prop :=
  ∀ x ∈ chain.searchers, ∀ y ∈ other.searchers, ∀ q hits hits',
    x.ask q = .ok (.ok hits) → y.ask q = .ok (.ok hits') → hits = hits'

theorem exists_searcher_of_isAnswered (h : chain.search q = .ok o) (ho : o.isAnswered) :
    ∃ x ∈ chain.searchers, x.ask q = .ok (.ok o.hits) := by
  rcases yields_of_search h with
    ⟨before, after, x, hits, hsplit, -, hx, -, hhits, -, -⟩ | ⟨-, hnot, -, -, -⟩
  · refine ⟨x, ?_, ?_⟩
    · simp [hsplit]
    · rw [hhits, hx]
  · simp [hnot] at ho

theorem Agrees.hits_eq (h : chain.Agrees other) (hsearch : chain.search q = .ok o)
    (hother : other.search q = .ok p) (ho : o.isAnswered) (hp : p.isAnswered) :
    o.hits = p.hits := by
  obtain ⟨x, hx, hxq⟩ := exists_searcher_of_isAnswered hsearch ho
  obtain ⟨y, hy, hyq⟩ := exists_searcher_of_isAnswered hother hp
  exact h x hx y hy q _ _ hxq hyq

end SearchChain

namespace SearchPlan

variable {chain other : SearchChain} {root : Text.Bytes} {pattern : String}
  {searches later : List Search} {plan : SearchPlan} {claim : Claim}

def Answered (searches : List Search) : Prop := ∀ s ∈ searches, s.outcome.isAnswered

/-- Two chains that agree search the same classes and find the same hits in each. -/
theorem map_hits_searchesIn {classes : List FileClass} (h : chain.Agrees other)
    (hsearches : searchesIn chain root pattern classes = .ok searches)
    (hlater : searchesIn other root pattern classes = .ok later) (hanswered : Answered searches)
    (hanswered' : Answered later) :
    searches.map (·.outcome.hits) = later.map (·.outcome.hits) := by
  induction classes generalizing searches later with
  | nil => rw [eq_nil_of_searchesIn_nil hsearches, eq_nil_of_searchesIn_nil hlater]
  | cons k classes ih =>
      obtain ⟨s, hs, hsearch, hcase⟩ := searchesIn_cons_eq_ok_iff.1 hsearches
      obtain ⟨t, ht, hother, hcase'⟩ := searchesIn_cons_eq_ok_iff.1 hlater
      have hmem : s ∈ searches := by rcases hcase with ⟨-, rfl⟩ | ⟨-, _, -, rfl⟩ <;> simp
      have hmem' : t ∈ later := by rcases hcase' with ⟨-, rfl⟩ | ⟨-, _, -, rfl⟩ <;> simp
      have hhits : s.outcome.hits = t.outcome.hits := by
        rw [hs] at hsearch
        rw [ht] at hother
        exact h.hits_eq hsearch hother (hanswered s hmem) (hanswered' t hmem')
      rcases hcase with ⟨hsome, rfl⟩ | ⟨hnone, rest, hrest, rfl⟩
      · rcases hcase' with ⟨-, rfl⟩ | ⟨hnone', -⟩
        · simp [hhits]
        · exact absurd (hhits.trans hnone') hsome
      · rcases hcase' with ⟨hsome', -⟩ | ⟨-, rest', hrest', rfl⟩
        · exact absurd (hhits.symm.trans hnone) hsome'
        · have hmap := ih hrest hrest' (fun u hu => hanswered u (by simp [hu]))
            fun u hu => hanswered' u (by simp [hu])
          simp [hhits, hmap]

/-- When all searches were answered, the verdict depends on their hits alone. -/
theorem verdict_of_answered (h : Answered searches) :
    plan.verdict claim searches =
      match (searches.map (·.outcome.hits)).find? (!·.isEmpty) with
      | some hits =>
          .found claim plan.presence (hits.take plan.evidence)
            ("Found " ++ toString hits.length ++ " occurrences")
      | none => .notFound claim plan.absence plan.absenceNotes := by
  have hreason : searches.findSome? (·.outcome.reason?) = none :=
    List.findSome?_eq_none_iff.2 fun s hs => SearchOutcome.reason?_eq_none_iff.2 (h s hs)
  rw [verdict, List.find?_map, hreason]
  change _ = match (searches.find? fun s => !s.outcome.hits.isEmpty).map (·.outcome.hits) with
    | some hits => _
    | none => _
  cases searches.find? fun s => !s.outcome.hits.isEmpty <;> rfl

theorem verdict_eq_of_agrees {check check' : Check} (h : chain.Agrees other)
    (hcheck : plan.carryOut chain root claim = .ok check)
    (hcheck' : plan.carryOut other root claim = .ok check') (hanswered : Answered check.searches)
    (hanswered' : Answered check'.searches) : check.verdict = check'.verdict := by
  obtain ⟨searches, hsearches, hpure⟩ := bind_eq_ok_iff.1 hcheck
  obtain rfl := pure_eq_ok_iff.1 hpure
  obtain ⟨later, hlater, hpure'⟩ := bind_eq_ok_iff.1 hcheck'
  obtain rfl := pure_eq_ok_iff.1 hpure'
  have hmap := map_hits_searchesIn h hsearches hlater hanswered hanswered'
  change plan.verdict claim searches = plan.verdict claim later
  rw [verdict_of_answered hanswered, verdict_of_answered hanswered', hmap]

end SearchPlan

namespace Checker

variable {files : FileTree} {root : SourceRoot} {chain other : SearchChain} {claim : Claim}
  {first second : Check}

theorem verdict_eq_of_checkType (h : chain.Agrees other)
    (hcheck : checkType ⟨files, root, chain⟩ claim = .ok first)
    (hcheck' : checkType ⟨files, root, other⟩ claim = .ok second)
    (hanswered : SearchPlan.Answered first.searches)
    (hanswered' : SearchPlan.Answered second.searches) : first.verdict = second.verdict := by
  cases hname : TypePath.ofName? claim.value with
  | none =>
      simp only [checkType, hname, Except.ok.injEq] at hcheck hcheck'
      rw [← hcheck, ← hcheck']
  | some p =>
      -- the expected file is the same for both chains
      cases hline : lineWith? files (expectedFile ⟨files, root, chain⟩ p) p.marker with
      | some line =>
          have hline' : lineWith? files (expectedFile ⟨files, root, other⟩ p) p.marker =
            some line := hline
          simp only [checkType, hname, hline, Except.ok.injEq] at hcheck
          simp only [checkType, hname, hline', Except.ok.injEq] at hcheck'
          rw [← hcheck, ← hcheck']
      | none =>
          have hline' : lineWith? files (expectedFile ⟨files, root, other⟩ p) p.marker =
            none := hline
          simp only [checkType, hname, hline] at hcheck
          simp only [checkType, hname, hline'] at hcheck'
          exact SearchPlan.verdict_eq_of_agrees h hcheck hcheck' hanswered hanswered'

theorem verdict_eq_of_check (h : chain.Agrees other)
    (hcheck : check ⟨files, root, chain⟩ claim = .ok first)
    (hcheck' : check ⟨files, root, other⟩ claim = .ok second)
    (hanswered : SearchPlan.Answered first.searches)
    (hanswered' : SearchPlan.Answered second.searches) : first.verdict = second.verdict := by
  obtain ⟨category, value⟩ := claim
  cases category with
  | classes => exact verdict_eq_of_checkType h hcheck hcheck' hanswered hanswered'
  | interfaces => exact verdict_eq_of_checkType h hcheck hcheck' hanswered hanswered'
  | methods => exact SearchPlan.verdict_eq_of_agrees h hcheck hcheck' hanswered hanswered'
  | events => exact SearchPlan.verdict_eq_of_agrees h hcheck hcheck' hanswered hanswered'
  | tables => exact SearchPlan.verdict_eq_of_agrees h hcheck hcheck' hanswered hanswered'
  | aclResources => exact SearchPlan.verdict_eq_of_agrees h hcheck hcheck' hanswered hanswered'
  | configPaths =>
      obtain rfl := Except.ok.inj hcheck
      obtain rfl := Except.ok.inj hcheck'
      rfl
  | filePaths =>
      obtain rfl := Except.ok.inj hcheck
      obtain rfl := Except.ok.inj hcheck'
      rfl

end Checker

/-- Every search of a sequence consults the searchers by their places in the chain, one
after the other and up to the first that answers, and its outcome holds what they
answered. Two chains over one tree whose answers agree give a claim the same verdict if
they answer all its searches, whichever searchers fail. -/
theorem SearchChain.falls_back_in_order {chain : SearchChain} (h : chain.Responds) :
    (∀ q, chain.search q = consultFrom Searcher.ask q [] chain.searchers) ∧
    (∀ queries, ∃ outcomes, queries.mapM chain.search = .ok outcomes ∧
      List.Forall₂ chain.Yields queries outcomes ∧
      (queries.mapM chain.searchLogged).run [] = .ok (outcomes,
        (queries.zip outcomes).flatMap fun p =>
          (List.range p.2.asked).map fun place => ⟨place, p.1⟩)) ∧
    ∀ other : SearchChain, other.Responds → chain.Agrees other →
      ∀ (files : FileTree) (root : SourceRoot) (claim : Claim), ∃ first second,
        Checker.check ⟨files, root, chain⟩ claim = .ok first ∧
        Checker.check ⟨files, root, other⟩ claim = .ok second ∧
        ((∀ s ∈ first.searches, s.outcome.isAnswered) →
          (∀ s ∈ second.searches, s.outcome.isAnswered) → first.verdict = second.verdict) := by
  refine ⟨fun q => rfl, ?_, ?_⟩
  · intro queries
    obtain ⟨outcomes, houtcomes⟩ := h.exists_mapM_search queries
    refine ⟨outcomes, houtcomes, forall₂_yields houtcomes, ?_⟩
    exact mapM_searchLogged_eq houtcomes []
  · intro other hother hagrees files root claim
    obtain ⟨first, hfirst⟩ := Checker.exists_check (c := ⟨files, root, chain⟩) h claim
    obtain ⟨second, hsecond⟩ := Checker.exists_check (c := ⟨files, root, other⟩) hother claim
    refine ⟨first, second, hfirst, hsecond, ?_⟩
    intro hanswered hanswered'
    exact Checker.verdict_eq_of_check hagrees hfirst hsecond hanswered hanswered'

def Searcher.slow : Searcher :=
  ⟨"slow", fun _ => .ok (.error (.overdue "slow" nanosecondsInSecond)), fun _ => none⟩

/-- A searcher that is always too late, and one that answers. -/
def SearchChain.slowThenIndex : SearchChain := ⟨[.slow, Checker.sourceIndex]⟩

def SearchChain.indexOnly : SearchChain := ⟨[Checker.sourceIndex]⟩

theorem SearchChain.responds_slowThenIndex : slowThenIndex.Responds := by
  intro x hx q
  rcases List.mem_pair.1 hx with rfl | rfl
  · exact ⟨_, rfl⟩
  · exact ⟨_, rfl⟩

theorem SearchChain.agrees_slowThenIndex : slowThenIndex.Agrees indexOnly := by
  intro x hx y hy q hits hits' hxq hyq
  obtain rfl := List.mem_singleton.1 hy
  rcases List.mem_pair.1 hx with rfl | rfl
  · cases hxq
  · rw [hxq] at hyq
    exact Except.ok.inj (Except.ok.inj hyq)

theorem SearchChain.falls_back_in_order_slowThenIndex :
    slowThenIndex.Responds ∧ indexOnly.Responds ∧ slowThenIndex.Agrees indexOnly ∧
      (∃ outcomes, ([⟨"save", ".", .source⟩, ⟨"load", ".", .any⟩].mapM
        slowThenIndex.searchLogged).run [] = .ok (outcomes,
          [⟨0, ⟨"save", ".", .source⟩⟩, ⟨1, ⟨"save", ".", .source⟩⟩, ⟨0, ⟨"load", ".", .any⟩⟩,
            ⟨1, ⟨"load", ".", .any⟩⟩])) ∧
      ∃ first second,
        Checker.check ⟨.empty, .within ".", slowThenIndex⟩
          ⟨.events, "customer_login"⟩ = .ok first ∧
        Checker.check ⟨.empty, .within ".", indexOnly⟩
          ⟨.events, "customer_login"⟩ = .ok second ∧
        first.searches.length = 2 ∧ first.verdict.status = .found ∧
        first.verdict = second.verdict := by
  obtain ⟨-, hlog, hverdict⟩ := falls_back_in_order responds_slowThenIndex
  have hindex : indexOnly.Responds := Checker.responds_sourceIndex
  refine ⟨responds_slowThenIndex, hindex, agrees_slowThenIndex, ?_, ?_⟩
  · obtain ⟨outcomes, houtcomes, -, hrun⟩ := hlog [⟨"save", ".", .source⟩, ⟨"load", ".", .any⟩]
    obtain rfl := Except.ok.inj houtcomes
    exact ⟨_, hrun⟩
  · obtain ⟨first, second, hfirst, hsecond, heq⟩ := hverdict indexOnly hindex
      agrees_slowThenIndex .empty (.within ".") ⟨.events, "customer_login"⟩
    obtain rfl := Except.ok.inj hfirst
    obtain rfl := Except.ok.inj hsecond
    exact ⟨_, _, hfirst, hsecond, rfl, rfl, heq (by decide) (by decide)⟩

end DocClaims
