import DocClaims.Proofs.Config.Accepted
import DocClaims.Proofs.Checking.Agreement

/-!
# Searches of accepted configurations

An accepted configuration has a chain with at least one searcher. A search of that
chain has an outcome unless it comes to a walk whose time would end beyond the end of
the clock, or to a program that is waited for without end: time limits are accepted up to
any size, and they do not bound how long the pipes of a program are held.
-/

namespace DocClaims

open Outcome

/-! ### Searches without an outcome -/

/-- A query has an outcome if each searcher answers or fails to whom it comes, the ones
before having failed. -/
theorem exists_asks_iff {q : Query} {xs : List Searcher} :
    (∃ o, Asks q xs o) ↔ ∀ before x after, xs = before ++ x :: after →
      (∀ y ∈ before, ∃ f, y.FailsWith q f) → ∃ answer, x.ask q = .ok answer := by
  constructor
  · rintro ⟨o, ho⟩
    induction ho with
    | exhausted => simp
    | answered h =>
        intro before x after hsplit hbefore
        rcases List.cons_eq_append_iff.1 hsplit with ⟨rfl, hcons⟩ | ⟨rest, rfl, -⟩
        · obtain ⟨rfl, -⟩ := List.cons.inj hcons
          exact ⟨_, h⟩
        · obtain ⟨f, hf⟩ := hbefore _ List.mem_cons_self
          rw [Searcher.FailsWith, h] at hf
          cases hf
    | failed h _ ih =>
        intro before x after hsplit hbefore
        rcases List.cons_eq_append_iff.1 hsplit with ⟨rfl, hcons⟩ | ⟨rest, rfl, hrest⟩
        · obtain ⟨rfl, -⟩ := List.cons.inj hcons
          exact ⟨_, h⟩
        · exact ih rest x after hrest fun y hy => hbefore y (List.mem_cons_of_mem _ hy)
  · intro h
    induction xs with
    | nil => exact ⟨_, .exhausted⟩
    | cons x xs ih =>
        obtain ⟨answer, hanswer⟩ := h [] x xs rfl (by simp)
        cases answer with
        | ok hits => exact ⟨_, .answered hanswer⟩
        | error f =>
            obtain ⟨o, ho⟩ := ih fun before y after hsplit hbefore => by
              refine h (x :: before) y after (by rw [hsplit]; rfl) ?_
              exact List.forall_mem_cons.2 ⟨⟨f, hanswer⟩, hbefore⟩
            exact ⟨_, .failed hanswer ho⟩

namespace Placement

variable {p : Placement} {q : Query}

/-- The end of the time for the query lies before the end of the clock. -/
def InClock (p : Placement) (q : Query) : Prop := (p.surroundings q).clock 0 + p.limit < clockEnd

/-- Asking the backend comes to an end. A walk reckons with the clock, and a program that is
installed is not waited for without end. -/
structure Returns (p : Placement) (q : Query) : Prop where
  inClock : p.backend = .walk → p.InClock q
  launched : ∀ invocation program, p.backend.invocation? p.extensions q = some invocation →
    (p.surroundings q).program? invocation.program = some program →
      (program.start invocation).Returns

theorem exists_ask_iff : (∃ answer, p.searcher.ask q = .ok answer) ↔ p.Returns q := by
  cases hcall : p.backend.invocation? p.extensions q with
  | none =>
      have hwalk : p.backend = .walk := invocation?_eq_none_iff.1 hcall
      have hreturns : p.Returns q ↔ p.InClock q := by
        constructor
        · exact fun h => h.inClock hwalk
        · intro h
          refine ⟨fun _ => h, fun invocation program hinvocation => ?_⟩
          rw [hcall] at hinvocation
          cases hinvocation
      rw [hreturns, ask_of_walk hwalk]
      unfold Walk.search InClock
      by_cases hlate : clockEnd ≤ (p.surroundings q).clock 0 + p.limit
      · simp [hlate]
      · have hclock : (p.surroundings q).clock 0 + p.limit < clockEnd := by omega
        simp [hlate, hclock]
  | some invocation =>
      have hnot : p.backend ≠ .walk := ne_walk_of_invocation? hcall
      cases hprogram : (p.surroundings q).program? invocation.program with
      | none =>
          refine iff_of_true ⟨_, ask_of_notInstalled hcall hprogram⟩ ⟨fun h => absurd h hnot, ?_⟩
          intro other program hother hfound
          obtain rfl := Option.some.inj (hcall.symm.trans hother)
          rw [hprogram] at hfound
          cases hfound
      | some program =>
          have hreturns : p.Returns q ↔ (program.start invocation).Returns := by
            constructor
            · exact fun h => h.launched invocation program hcall hprogram
            · intro h
              refine ⟨fun hwalk => absurd hwalk hnot, fun other found hother hfound => ?_⟩
              obtain rfl := Option.some.inj (hcall.symm.trans hother)
              obtain rfl := Option.some.inj (hprogram.symm.trans hfound)
              exact h
          have hfinish : (∃ outcome, (program.start invocation).finish p.backend.name p.limit =
              .ok outcome) ↔ (program.start invocation).Returns := Launch.exists_finish_iff
          rw [hreturns, ask_of_program hcall hprogram, ← hfinish]
          constructor
          · rintro ⟨answer, hanswer⟩
            obtain ⟨outcome, houtcome, -⟩ := bind_eq_ok_iff.1 hanswer
            exact ⟨outcome, houtcome⟩
          · rintro ⟨outcome, houtcome⟩
            exact ⟨_, bind_eq_ok_iff.2 ⟨outcome, houtcome, rfl⟩⟩

end Placement

/-! ### Chains of settings -/

/-- Placements for the backends that the settings name, in order. Extensions and time
limit are those of the settings; what each of them meets is open. -/
structure SearchSettings.Places (settings : SearchSettings) (places : List Placement) : Prop where
  backends : places.map (fun p => some p.backend) = settings.backends.map Backend.ofName?
  extensions : ∀ p ∈ places, p.extensions = settings.extensions
  limit : ∀ p ∈ places, p.limit = settings.timeoutSecs * nanosecondsInSecond

theorem SearchChain.backendNamed_eq_ok_iff {name : String} {b : Backend} :
    backendNamed name = .ok b ↔ Backend.ofName? name = some b := by
  unfold backendNamed
  cases Backend.ofName? name <;> simp

namespace Config

variable {c : Config}

theorem Accepted.exists_backends (h : c.Accepted) :
    ∃ backends, c.search.backends.mapM SearchChain.backendNamed = .ok backends := by
  apply exists_mapM_eq_ok_iff.2
  intro name hname
  obtain ⟨b, hb⟩ := Option.isSome_iff_exists.1 (h.known name hname)
  exact ⟨b, SearchChain.backendNamed_eq_ok_iff.2 hb⟩

theorem Accepted.exists_ofSettings (h : c.Accepted) (s : Surroundings) :
    ∃ places, places ≠ [] ∧ c.search.Places places ∧ (∀ p ∈ places, p.surroundings = fun _ => s) ∧
      SearchChain.ofSettings s c.search [] = .ok ⟨places.map Placement.searcher⟩ := by
  obtain ⟨backends, hbackends⟩ := h.exists_backends
  have hnames := map_eq_map_of_mapM hbackends fun _ _ => SearchChain.backendNamed_eq_ok_iff.1
  let place := fun b => Placement.mk b c.search.extensions
    (c.search.timeoutSecs * nanosecondsInSecond) fun _ => s
  refine ⟨backends.map place, ?_, ⟨?_, ?_, ?_⟩, ?_, ?_⟩
  · intro hnil
    rw [List.map_eq_nil_iff.1 hnil, List.map_nil] at hnames
    exact h.backends (List.map_eq_nil_iff.1 hnames.symm)
  · rw [List.map_map]
    exact hnames
  · exact List.forall_mem_map.2 fun _ _ => rfl
  · exact List.forall_mem_map.2 fun _ _ => rfl
  · exact List.forall_mem_map.2 fun _ _ => rfl
  · refine bind_eq_ok_iff.2 ⟨backends, hbackends, ?_⟩
    rw [List.map_map]
    rfl

theorem exists_search_iff {places : List Placement} {q : Query} :
    (∃ o, SearchChain.search ⟨places.map Placement.searcher⟩ q = .ok o) ↔
      ∀ before p after, places = before ++ p :: after →
        (∀ x ∈ before, ∃ f, x.searcher.FailsWith q f) → p.Returns q := by
  simp only [SearchChain.search_eq_ok_iff, exists_asks_iff]
  constructor
  · intro h before p after hsplit hbefore
    refine Placement.exists_ask_iff.1 (h (before.map Placement.searcher) p.searcher
      (after.map Placement.searcher) ?_ ?_)
    · rw [hsplit, List.map_append, List.map_cons]
    · exact List.forall_mem_map.2 hbefore
  · intro h before x after hsplit hbefore
    obtain ⟨front, others, rfl, rfl, hothers⟩ := List.map_eq_append_iff.1 hsplit
    obtain ⟨p, back, rfl, rfl, -⟩ := List.map_eq_cons_iff.1 hothers
    apply Placement.exists_ask_iff.2
    refine h front p back rfl ?_
    intro y hy
    exact hbefore y.searcher (List.mem_map_of_mem hy)

/-- Whatever its searchers meet, the chain of an accepted configuration answers a query,
or each of its searchers has failed. Only a searcher to which the query comes can prevent
this: a walk whose time would not end before the end of the clock, or a program that is
waited for without end. -/
theorem search_of_accepted (h : c.problem? = none) :
    (∀ s, ∃ places, places ≠ [] ∧ c.search.Places places ∧
      (∀ p ∈ places, p.surroundings = fun _ => s) ∧
      SearchChain.ofSettings s c.search [] = .ok ⟨places.map Placement.searcher⟩) ∧
    ∀ places, c.search.Places places → ∀ q,
      (∃ o, SearchChain.search ⟨places.map Placement.searcher⟩ q = .ok o ∧
        (o.isAnswered ∨
          List.Forall₂ (fun p f => p.searcher.FailsWith q f) places o.failures)) ↔
        ∀ before p after, places = before ++ p :: after →
          (∀ x ∈ before, ∃ f, x.searcher.FailsWith q f) →
            (p.backend = .walk →
              (p.surroundings q).clock 0 + c.search.timeoutSecs * nanosecondsInSecond <
                clockEnd) ∧
            ∀ invocation program, p.backend.invocation? p.extensions q = some invocation →
              (p.surroundings q).program? invocation.program = some program →
                (program.start invocation).Returns := by
  refine ⟨(problem?_eq_none_iff.1 h).exists_ofSettings, ?_⟩
  intro places hplaces q
  constructor
  · rintro ⟨o, ho, -⟩ before p after hsplit hbefore
    obtain ⟨hclock, hlaunched⟩ := exists_search_iff.1 ⟨o, ho⟩ before p after hsplit hbefore
    rw [Placement.InClock, hplaces.limit p (by simp [hsplit])] at hclock
    exact ⟨hclock, hlaunched⟩
  · intro hreturn
    obtain ⟨o, ho⟩ := exists_search_iff.2 fun before p after hsplit hbefore => by
      obtain ⟨hclock, hlaunched⟩ := hreturn before p after hsplit hbefore
      refine ⟨?_, hlaunched⟩
      rw [Placement.InClock, hplaces.limit p (by simp [hsplit])]
      exact hclock
    refine ⟨o, ho, ?_⟩
    cases SearchChain.yields_of_search ho with
    | answered _ _ _ _ _ _ _ hanswered _ _ _ => exact .inl hanswered
    | unanswered hfailed _ _ _ _ => exact .inr (List.forall₂_map_left_iff.1 hfailed)

/-- A walk stands behind a program. -/
def walkLast : Config :=
  { standard with search := ⟨["grep", "Walk"], 30, ["php"], ["xml"]⟩ }

theorem problem?_walkLast : walkLast.problem? = none := by
  decide +kernel

/-- Every program hangs until it is killed. -/
def hanging : Surroundings where
  files := .empty
  program? _ := some fun _ => .started ⟨.overdue, true, .toEnd [], .toEnd []⟩
  clock _ := 5

theorem search_of_accepted_walkLast :
    walkLast.problem? = none ∧
      ∃ chain, SearchChain.ofSettings hanging walkLast.search [] = .ok chain ∧
        ∀ q, ∃ o, chain.search q = .ok o := by
  obtain ⟨hchain, hsearch⟩ := search_of_accepted problem?_walkLast
  obtain ⟨places, -, hplaces, hmeets, hsettings⟩ := hchain hanging
  refine ⟨problem?_walkLast, _, hsettings, ?_⟩
  intro q
  obtain ⟨o, ho, -⟩ := (hsearch places hplaces q).2 fun before p after hsplit _ => by
    rw [hmeets p (by simp [hsplit])]
    constructor
    · intro _
      change 5 + walkLast.search.timeoutSecs * nanosecondsInSecond < clockEnd
      decide
    · intro invocation program _ hprogram
      obtain rfl := Option.some.inj hprogram
      rw [Program.start]
      split
      · exact .started (.overdue rfl rfl rfl rfl)
      · exact .notStarted _
  exact ⟨o, ho⟩

/-- The longest time limit of 64 bits, for a walk. -/
def longestLimit : Config :=
  { standard with search := ⟨["walk"], 18446744073709551615, ["php"], ["xml"]⟩ }

/-- A program is killed when its time is over, but another one goes on holding its output. -/
def outliving : Surroundings where
  files := .empty
  program? _ := some fun _ => .started ⟨.overdue, true, .endless, .toEnd []⟩
  clock _ := 0

/-- A configuration may be accepted that has no outcome for any query, and one that has none
because of a program that outlives its time. -/
theorem no_outcome_longestLimit :
    (longestLimit.problem? = none ∧
      ∃ chain, SearchChain.ofSettings outliving longestLimit.search [] = .ok chain ∧
        ¬∃ o, chain.search ⟨"function save", ".", .source⟩ = .ok o) ∧
    walkLast.problem? = none ∧
      ∃ chain, SearchChain.ofSettings outliving walkLast.search [] = .ok chain ∧
        ¬∃ o, chain.search ⟨"function save", ".", .source⟩ = .ok o := by
  have hchain : SearchChain.ofSettings outliving longestLimit.search [] = .ok _ := rfl
  have hchain' : SearchChain.ofSettings outliving walkLast.search [] = .ok _ := rfl
  refine ⟨⟨by decide +kernel, _, hchain, ?_⟩, problem?_walkLast, _, hchain', ?_⟩
  · rintro ⟨o, ho⟩
    cases ho
  · rintro ⟨o, ho⟩
    cases ho

end Config
end DocClaims
