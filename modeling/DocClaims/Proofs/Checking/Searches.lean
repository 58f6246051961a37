import DocClaims.Checking.Plan
import DocClaims.Proofs.Outcomes
import DocClaims.Proofs.Search.Chain

/-!
# The searches of a plan

A plan searches one class of files after the other and stops at the first hits, so at most
its last search has any. It can be carried out whenever the searchers answer or fail.
-/

namespace DocClaims

open Outcome

/-! ### Searchers that answer or fail -/

/-- No searcher of the chain runs into the end of the clock. -/
def SearchChain.Responds (chain : SearchChain) : Prop :=
  ∀ x ∈ chain.searchers, ∀ q, ∃ answer, x.ask q = .ok answer

theorem exists_asks {q : Query} {xs : List Searcher}
    (h : ∀ x ∈ xs, ∃ answer, x.ask q = .ok answer) : ∃ o, Asks q xs o := by
  induction xs with
  | nil => exact ⟨_, .exhausted⟩
  | cons x xs ih =>
      obtain ⟨answer, hanswer⟩ := h x (by simp)
      cases answer with
      | ok hits => exact ⟨_, .answered hanswer⟩
      | error f =>
          obtain ⟨o, ho⟩ := ih fun y hy => h y (by simp [hy])
          exact ⟨_, .failed hanswer ho⟩

theorem SearchChain.Responds.exists_search {chain : SearchChain} (h : chain.Responds) (q : Query) :
    ∃ o, chain.search q = .ok o := by
  obtain ⟨o, ho⟩ := exists_asks fun x hx => h x hx q
  exact ⟨o, SearchChain.search_eq_ok_iff.2 ho⟩

/-! ### One class after the other -/

namespace SearchPlan

variable {chain : SearchChain} {root : Text.Bytes} {pattern : String} {k : FileClass}
  {classes : List FileClass} {searches : List Search}

theorem eq_nil_of_searchesIn_nil (h : searchesIn chain root pattern [] = .ok searches) :
    searches = [] := by
  simpa [searchesIn] using h.symm

/-- Searching goes on to the next class exactly when there are no hits. -/
theorem searchesIn_cons_eq_ok_iff :
    searchesIn chain root pattern (k :: classes) = .ok searches ↔
      ∃ s, s.query = ⟨pattern, root, k⟩ ∧ chain.search s.query = .ok s.outcome ∧
        ((s.outcome.hits ≠ [] ∧ searches = [s]) ∨
          s.outcome.hits = [] ∧ ∃ later, searchesIn chain root pattern classes = .ok later ∧
            searches = s :: later) := by
  constructor
  · intro h
    obtain ⟨outcome, hsearch, hrest⟩ := bind_eq_ok_iff.1 h
    refine ⟨⟨⟨pattern, root, k⟩, outcome⟩, rfl, hsearch, ?_⟩
    split at hrest
    · next hhits =>
        obtain ⟨later, hlater, hpure⟩ := bind_eq_ok_iff.1 hrest
        exact .inr ⟨by simpa using hhits, later, hlater, (pure_eq_ok_iff.1 hpure).symm⟩
    · next hhits => exact .inl ⟨by simpa using hhits, (pure_eq_ok_iff.1 hrest).symm⟩
  · rintro ⟨⟨query, outcome⟩, rfl, hsearch, ⟨hhits, rfl⟩ | ⟨hhits, later, hlater, rfl⟩⟩
    · simp [searchesIn, hsearch, hhits]
    · simp [searchesIn, hsearch, hhits, hlater]

theorem exists_searchesIn_of_search
    (h : ∀ k ∈ classes, ∃ o, chain.search ⟨pattern, root, k⟩ = .ok o) :
    ∃ searches, searchesIn chain root pattern classes = .ok searches := by
  induction classes with
  | nil => exact ⟨[], rfl⟩
  | cons k classes ih =>
      obtain ⟨⟨o, ho⟩, hclasses⟩ := List.forall_mem_cons.1 h
      obtain ⟨later, hlater⟩ := ih hclasses
      by_cases hhits : o.hits = []
      · exact ⟨_, searchesIn_cons_eq_ok_iff.2
          ⟨⟨_, o⟩, rfl, ho, .inr ⟨hhits, later, hlater, rfl⟩⟩⟩
      · exact ⟨_, searchesIn_cons_eq_ok_iff.2 ⟨⟨_, o⟩, rfl, ho, .inl ⟨hhits, rfl⟩⟩⟩

/-- There are hits exactly if one of the classes has some. -/
theorem exists_hits_searchesIn_iff
    (h : searchesIn chain root pattern classes = .ok searches) :
    (∃ s ∈ searches, s.outcome.hits ≠ []) ↔
      ∃ k ∈ classes, ∃ o, chain.search ⟨pattern, root, k⟩ = .ok o ∧ o.hits ≠ [] := by
  induction classes generalizing searches with
  | nil => simp [eq_nil_of_searchesIn_nil h]
  | cons k classes ih =>
      obtain ⟨s, hquery, hsearch, hcase⟩ := searchesIn_cons_eq_ok_iff.1 h
      rw [hquery] at hsearch
      have hfirst : (∃ o, chain.search ⟨pattern, root, k⟩ = .ok o ∧ o.hits ≠ []) ↔
          s.outcome.hits ≠ [] := by
        rw [hsearch]
        simp
      simp only [List.mem_cons, exists_eq_or_imp, hfirst]
      rcases hcase with ⟨hhits, rfl⟩ | ⟨hnone, later, hlater, rfl⟩
      · simp [hhits]
      · simp only [List.mem_cons, exists_eq_or_imp, ih hlater]

theorem search_of_mem_searchesIn (h : searchesIn chain root pattern classes = .ok searches) :
    ∀ s ∈ searches, chain.search s.query = .ok s.outcome := by
  induction classes generalizing searches with
  | nil => simp [eq_nil_of_searchesIn_nil h]
  | cons k classes ih =>
      obtain ⟨s, -, hs, ⟨-, rfl⟩ | ⟨-, later, hlater, rfl⟩⟩ := searchesIn_cons_eq_ok_iff.1 h
      · exact List.forall_mem_singleton.2 hs
      · exact List.forall_mem_cons.2 ⟨hs, ih hlater⟩

theorem map_query_searchesIn (h : searchesIn chain root pattern classes = .ok searches)
    (hnone : ∀ s ∈ searches, s.outcome.hits = []) :
    searches.map Search.query = classes.map (Query.mk pattern root) := by
  induction classes generalizing searches with
  | nil => rw [eq_nil_of_searchesIn_nil h, List.map_nil, List.map_nil]
  | cons k classes ih =>
      obtain ⟨s, hquery, -, ⟨hhits, rfl⟩ | ⟨-, later, hlater, rfl⟩⟩ :=
        searchesIn_cons_eq_ok_iff.1 h
      · exact absurd (hnone s (List.mem_singleton_self s)) hhits
      · have hmap := ih hlater fun t ht => hnone t (List.mem_cons_of_mem s ht)
        rw [List.map_cons, List.map_cons, hmap, hquery]

theorem length_searchesIn_le (h : searchesIn chain root pattern classes = .ok searches) :
    searches.length ≤ classes.length := by
  induction classes generalizing searches with
  | nil => simp [eq_nil_of_searchesIn_nil h]
  | cons k classes ih =>
      obtain ⟨s, -, -, ⟨-, rfl⟩ | ⟨-, later, hlater, rfl⟩⟩ := searchesIn_cons_eq_ok_iff.1 h
      · simp
      · simpa using ih hlater

theorem made_of_searchesIn (h : searchesIn chain root pattern classes = .ok searches)
    (hclasses : classes ≠ []) : searches ≠ [] := by
  obtain ⟨k, classes, rfl⟩ := List.exists_cons_of_ne_nil hclasses
  obtain ⟨s, -, -, ⟨-, rfl⟩ | ⟨-, later, -, rfl⟩⟩ := searchesIn_cons_eq_ok_iff.1 h <;> simp

/-- Only the last search has hits. -/
theorem eq_nil_of_hits (h : searchesIn chain root pattern classes = .ok searches)
    {before after : List Search} {s : Search} (hsplit : searches = before ++ s :: after)
    (hhits : s.outcome.hits ≠ []) : after = [] := by
  induction classes generalizing searches before with
  | nil => simp [eq_nil_of_searchesIn_nil h] at hsplit
  | cons k classes ih =>
      obtain ⟨t, -, -, ⟨-, rfl⟩ | ⟨hnone, later, hlater, rfl⟩⟩ := searchesIn_cons_eq_ok_iff.1 h
      · cases before <;> simp_all
      · cases before with
        | nil =>
            obtain ⟨rfl, -⟩ := List.cons.inj hsplit
            exact absurd hnone hhits
        | cons u before => exact ih hlater (List.cons.inj hsplit).2

end SearchPlan
end DocClaims
