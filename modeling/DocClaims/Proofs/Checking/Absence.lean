import DocClaims.Proofs.Checking.Ends
import DocClaims.Proofs.Search.Completion

/-!
# What a verdict of absence rests on

A claim may be reported as not found with more than low confidence only when
every search made for it was answered by a backend that searched to the end.
A search that no backend answered lowers the confidence, and the notes name the
failures of the first such search.
-/

namespace DocClaims

open Outcome

/-- Names of types have the form of qualified names; all others are free. -/
def Claim.IsWellFormed (claim : Claim) : Prop :=
  claim.category = .classes ∨ claim.category = .interfaces →
    (TypePath.ofName? claim.value).isSome

namespace SearchOutcome

theorem hits_eq_nil_iff {o : SearchOutcome} :
    o.hits = [] ↔ o.answer = none ∨ o.answer = some [] := by
  cases h : o.answer <;> simp [hits, h]

theorem reason?_eq_none_iff {o : SearchOutcome} : o.reason? = none ↔ o.isAnswered := by
  unfold reason?
  split
  · next h => simp [h]
  · next h => split <;> simp [h]

/-- Without an answer the reason is made of the failures, one for each searcher. -/
theorem reason?_of_no_answer {q : Query} {xs : List Searcher} {o : SearchOutcome}
    (h : Asks q xs o) (ho : o.answer = none) :
    o.reason? = some (if xs = [] then "no search backends configured"
      else String.intercalate "; " (o.failures.map SearchFailure.message)) := by
  have hlength := (h.forall₂_of_no_answer ho).length_eq
  cases xs with
  | nil =>
      have hfailures : o.failures = [] := List.eq_nil_of_length_eq_zero hlength.symm
      simp [reason?, isAnswered, ho, hfailures]
  | cons x xs =>
      have hfailures : o.failures ≠ [] := fun hnil => by simp [hnil] at hlength
      simp [reason?, isAnswered, ho, hfailures]

theorem findSome?_reason? {searches : List Search} {s : Search}
    (h : searches.find? (fun s => !s.outcome.isAnswered) = some s) :
    searches.findSome? (·.outcome.reason?) = s.outcome.reason? := by
  obtain ⟨hs, before, after, rfl, hbefore⟩ := List.find?_eq_some_iff_append.1 h
  have hnone : before.findSome? (·.outcome.reason?) = none :=
    List.findSome?_eq_none_iff.2 fun t ht =>
      reason?_eq_none_iff.2 (by simpa using hbefore t ht)
  obtain ⟨reason, hreason⟩ := Option.ne_none_iff_exists'.1
    (mt reason?_eq_none_iff.1 (by simpa using hs))
  simp [List.findSome?_append, hnone, hreason]

end SearchOutcome

namespace SearchPlan

variable {chain : SearchChain} {root : Text.Bytes} {searches : List Search} {plan : SearchPlan}
  {claim : Claim}

/-- A verdict of absence: no search has hits, and the first search without an
answer, if there is one, decides on the confidence and the notes. -/
theorem verdict_of_notFound (h : (plan.verdict claim searches).status = .notFound) :
    (∀ s ∈ searches, s.outcome.hits = []) ∧
      plan.verdict claim searches =
        match searches.findSome? (·.outcome.reason?) with
        | some reason =>
            .notFound claim .low (plan.absenceNotes ++ "; search unavailable: " ++ reason)
        | none => .notFound claim plan.absence plan.absenceNotes := by
  unfold verdict at h ⊢
  cases hfind : searches.find? fun s => !s.outcome.hits.isEmpty with
  | some s => simp [hfind, Verdict.found] at h
  | none =>
      have hnone := List.find?_eq_none.1 hfind
      exact ⟨fun s hs => by simpa using hnone s hs, rfl⟩

/-- A plan that ends with a verdict of absence has searched all its classes, and
none of the searches has hits. -/
theorem notFound_of_carryOut {check : Check} (h : plan.carryOut chain root claim = .ok check)
    (hstatus : check.verdict.status = .notFound) :
    check.searches.map Search.query = plan.classes.map (Query.mk plan.pattern root) ∧
      (∀ s ∈ check.searches, chain.search s.query = .ok s.outcome ∧ s.outcome.hits = []) ∧
      check.verdict =
        match check.searches.findSome? (·.outcome.reason?) with
        | some reason =>
            .notFound claim .low (plan.absenceNotes ++ "; search unavailable: " ++ reason)
        | none => .notFound claim plan.absence plan.absenceNotes := by
  obtain ⟨searches, hsearches, hpure⟩ := bind_eq_ok_iff.1 h
  obtain rfl := pure_eq_ok_iff.1 hpure
  obtain ⟨hnone, hverdict⟩ := verdict_of_notFound hstatus
  have hmade := search_of_mem_searchesIn hsearches
  exact ⟨map_query_searchesIn hsearches hnone, fun s hs => ⟨hmade s hs, hnone s hs⟩, hverdict⟩

end SearchPlan

namespace Placement

variable {placements : List Placement} {q : Query} {o : SearchOutcome}

/-- An answer without hits comes from a backend that has searched to the end. -/
theorem exists_findsNothing (h : Asks q (placements.map searcher) o) (ho : o.answer = some []) :
    ∃ before p after, placements = before ++ p :: after ∧ p.FindsNothing q ∧
      List.Forall₂ (fun p f => p.searcher.FailsWith q f) before o.failures := by
  obtain ⟨front, x, back, hsplit, hask, hfront⟩ := h.exists_of_answer ho
  obtain ⟨before, others, rfl, rfl, hothers⟩ := List.map_eq_append_iff.1 hsplit
  obtain ⟨p, after, rfl, rfl, -⟩ := List.map_eq_cons_iff.1 hothers
  exact ⟨before, p, after, rfl, ask_eq_ok_nil_iff.1 hask, List.forall₂_map_left_iff.1 hfront⟩

end Placement

/-- A working directory with nothing in it. -/
def FileTree.empty : FileTree := { root := .emptyDirectory, here := [] }

def Placement.ofChild (b : Backend) (child : Child) : Placement :=
  ⟨b, ⟨["php"], ["xml"]⟩, 10 * nanosecondsInSecond,
    fun _ => ⟨.empty, fun _ => some fun _ => .started child, fun _ => 0⟩⟩

namespace Checker

def within (searchers : List Searcher) : Checker := ⟨.empty, .within ".", ⟨searchers⟩⟩

variable {c : Checker} {claim : Claim} {check : Check}

/-- How a claim comes to its check: without any search, or by a plan for its category.
A claim that is not found without a search is a type with a malformed name. -/
inductive Checks (c : Checker) (claim : Claim) (check : Check) : Prop
  | unsearched (searches : check.searches = [])
      (malformed : check.verdict.status = .notFound →
        check.verdict.confidence = .low ∧ ¬claim.IsWellFormed)
  | planned (plan : SearchPlan) (classes : plan.classes = claim.category.searchedClasses)
      (wellFormed : claim.IsWellFormed)
      (carriedOut : plan.carryOut c.chain c.root.modules claim = .ok check)

theorem checks_of_check (h : c.check claim = .ok check) : c.Checks claim check := by
  cases ends_of_check h with
  | unsupported _ => exact .unsearched rfl (by simp [Check.ofVerdict, Verdict.notValidated])
  | expected _ _ _ => exact .unsearched rfl (by simp [Check.ofVerdict, Verdict.found])
  | malformed htype hname =>
      refine .unsearched rfl fun _ => ⟨rfl, ?_⟩
      intro hwell
      simpa [hname] using hwell (Category.isType_iff.1 htype)
  | searched hplan _ hsearches =>
      refine .planned _ (suits_of_plan? hplan).classes ?_ (bind_eq_ok_iff.2 ⟨_, hsearches, rfl⟩)
      intro hcategory
      obtain ⟨p, hp⟩ := exists_typePath_of_plan? hplan (Category.isType_iff.2 hcategory)
      exact Option.isSome_of_mem hp

/-- What a verdict of absence rests on, whatever the tools of the chain do. With
more than low confidence, each search was answered by a backend that searched to
the end and found nothing. A search that no backend answered makes the confidence
low, and the notes name its failures; a chain without backends says so. -/
theorem notFound_of_check {placements : List Placement}
    (hchain : c.chain.searchers = placements.map Placement.searcher)
    (h : c.check claim = .ok check) (hstatus : check.verdict.status = .notFound) :
    (claim.IsWellFormed → ∃ pattern, check.searches.map Search.query =
        claim.category.searchedClasses.map (Query.mk pattern c.root.modules)) ∧
      (∀ s ∈ check.searches, c.chain.search s.query = .ok s.outcome) ∧
      (check.verdict.confidence ≠ .low → claim.IsWellFormed ∧
        ∀ s ∈ check.searches, ∃ before p after, placements = before ++ p :: after ∧
          p.FindsNothing s.query ∧
          List.Forall₂ (fun p f => p.searcher.FailsWith s.query f) before s.outcome.failures) ∧
      ∀ s, check.searches.find? (fun s => !s.outcome.isAnswered) = some s →
        check.verdict.confidence = .low ∧
          List.Forall₂ (fun p f => p.searcher.FailsWith s.query f) placements
            s.outcome.failures ∧
          ∃ notes, check.verdict.notes = notes ++ "; search unavailable: " ++
            if placements = [] then "no search backends configured"
            else String.intercalate "; " (s.outcome.failures.map SearchFailure.message) := by
  rcases checks_of_check h with ⟨hsearches, hlow⟩ | ⟨plan, hclasses, hwell, hplan⟩
  · obtain ⟨hlow, hmalformed⟩ := hlow hstatus
    simp [hsearches, hlow, hmalformed]
  · obtain ⟨hqueries, hmade, hverdict⟩ := SearchPlan.notFound_of_carryOut hplan hstatus
    have hasks : ∀ s ∈ check.searches, Asks s.query (placements.map Placement.searcher) s.outcome :=
      fun s hs => hchain ▸ SearchChain.search_eq_ok_iff.1 (hmade s hs).1
    refine ⟨fun _ => ⟨plan.pattern, hclasses ▸ hqueries⟩, fun s hs => (hmade s hs).1, ?_, ?_⟩
    · intro hconfidence
      refine ⟨hwell, ?_⟩
      intro s hs
      have hreason : s.outcome.reason? = none := by
        cases hfirst : check.searches.findSome? (·.outcome.reason?) with
        | none => exact List.findSome?_eq_none_iff.1 hfirst s hs
        | some reason =>
            rw [hfirst] at hverdict
            simp [hverdict, Verdict.notFound] at hconfidence
      have hanswer : s.outcome.answer = some [] := by
        have hsome := SearchOutcome.reason?_eq_none_iff.1 hreason
        rcases SearchOutcome.hits_eq_nil_iff.1 (hmade s hs).2 with hnone | hnil
        · simp [SearchOutcome.isAnswered, hnone] at hsome
        · exact hnil
      exact Placement.exists_findsNothing (hasks s hs) hanswer
    · intro s hfirst
      have hs := List.mem_of_find?_eq_some hfirst
      have hanswer : s.outcome.answer = none := by
        simpa [SearchOutcome.isAnswered] using List.find?_some hfirst
      have hreason := SearchOutcome.reason?_of_no_answer (hasks s hs) hanswer
      rw [SearchOutcome.findSome?_reason? hfirst, hreason] at hverdict
      have hfailed := (hasks s hs).forall₂_of_no_answer hanswer
      refine ⟨by rw [hverdict]; rfl, List.forall₂_map_left_iff.1 hfailed, plan.absenceNotes, ?_⟩
      simp [hverdict, Verdict.notFound]

/-- The first of two tools hangs until it is killed and the second ends with status 1. -/
def hangingAndEmpty : List Placement :=
  [.ofChild .ripgrep ⟨.overdue, true, .toEnd [], .toEnd []⟩,
    .ofChild .grep ⟨.exited (.code 1), true, .toEnd [], .toEnd []⟩]

theorem notFound_of_check_hangingAndEmpty :
    ∃ check,
      (within (hangingAndEmpty.map Placement.searcher)).check ⟨.methods, "save"⟩ = .ok check ∧
      check.searches ≠ [] ∧ check.verdict.status = .notFound ∧
        check.verdict.confidence = .medium ∧
          ∀ s ∈ check.searches, ∃ before p after, hangingAndEmpty = before ++ p :: after ∧
            p.FindsNothing s.query ∧
            List.Forall₂ (fun p f => p.searcher.FailsWith s.query f) before
              s.outcome.failures := by
  have hchain : (within (hangingAndEmpty.map Placement.searcher)).chain.searchers =
      hangingAndEmpty.map Placement.searcher := rfl
  have hcheck : (within (hangingAndEmpty.map Placement.searcher)).check ⟨.methods, "save"⟩ =
      .ok _ := rfl
  refine ⟨_, hcheck, ?_, ?_, ?_, ?_⟩
  · exact List.cons_ne_nil _ _
  · rfl
  · rfl
  · exact ((notFound_of_check hchain hcheck rfl).2.2.1 (by decide)).2

/-- A chain without backends has no failures to name; its notes say so instead. -/
theorem notes_without_backends :
    ∃ check s, (Checker.within []).check ⟨.methods, "save"⟩ = .ok check ∧
      check.verdict.status = .notFound ∧
      check.searches.find? (fun s => !s.outcome.isAnswered) = some s ∧
      ¬∃ notes, check.verdict.notes = notes ++ "; search unavailable: " ++
        String.intercalate "; " (s.outcome.failures.map SearchFailure.message) := by
  refine ⟨_, _, rfl, rfl, rfl, ?_⟩
  rintro ⟨notes, h⟩
  have hlast := congrArg (fun t : String => t.toList.getLast?) h
  simp only [List.reverse_nil, List.map_nil, String.intercalate,
    String.append_empty, String.toList_append] at hlast
  rw [List.getLast?_append_of_ne_nil _ (by decide)] at hlast
  exact absurd hlast (by decide)

end Checker
end DocClaims
