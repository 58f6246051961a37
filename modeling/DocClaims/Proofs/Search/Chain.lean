import DocClaims.Search.Chain
import Mathlib.Data.List.Forall2

/-!
# Runs of a search chain

What a chain does with one query, as a relation between its searchers and the
outcome: the searchers fail one after the other until one answers.
-/

namespace DocClaims

/-- The searchers, asked in order, lead to the outcome. -/
inductive Asks (q : Query) : List Searcher → SearchOutcome → Prop
  | exhausted : Asks q [] ⟨[], none⟩
  | answered {x : Searcher} {xs : List Searcher} {hits : List Hit} (h : x.ask q = .ok (.ok hits)) :
      Asks q (x :: xs) ⟨[], some hits⟩
  | failed {x : Searcher} {xs : List Searcher} {f : SearchFailure} {o : SearchOutcome}
      (h : x.ask q = .ok (.error f)) (rest : Asks q xs o) :
      Asks q (x :: xs) ⟨f :: o.failures, o.answer⟩

def Searcher.FailsWith (q : Query) (x : Searcher) (f : SearchFailure) : Prop :=
  x.ask q = .ok (.error f)

theorem consultFrom_eq_ok_iff {q : Query} {failures : List SearchFailure} {xs : List Searcher}
    {o : SearchOutcome} :
    consultFrom Searcher.ask q failures xs = .ok o ↔
      ∃ p, Asks q xs p ∧ o = ⟨failures.reverse ++ p.failures, p.answer⟩ := by
  induction xs generalizing failures with
  | nil =>
      constructor
      · intro h
        exact ⟨⟨[], none⟩, .exhausted, by simpa [consultFrom, pure, Except.pure] using h.symm⟩
      · rintro ⟨p, hp, rfl⟩
        cases hp
        simp [consultFrom, pure, Except.pure]
  | cons x xs ih =>
      cases hask : x.ask q with
      | error reason =>
          constructor
          · intro h
            simp [consultFrom, hask, bind, Except.bind] at h
          · rintro ⟨p, hp, -⟩
            cases hp <;> simp_all
      | ok answer =>
          cases answer with
          | ok hits =>
              constructor
              · intro h
                refine ⟨⟨[], some hits⟩, .answered hask, ?_⟩
                simpa [consultFrom, hask, bind, Except.bind, pure, Except.pure] using h.symm
              · rintro ⟨p, hp, rfl⟩
                cases hp with
                | answered h =>
                    obtain rfl : hits = _ := by simpa [hask] using h
                    simp [consultFrom, hask, bind, Except.bind, pure, Except.pure]
                | failed h _ => simp [hask] at h
          | error f =>
              have hstep : consultFrom Searcher.ask q failures (x :: xs) =
                  consultFrom Searcher.ask q (f :: failures) xs := by
                simp [consultFrom, hask, bind, Except.bind]
              rw [hstep, ih]
              constructor
              · rintro ⟨p, hp, rfl⟩
                exact ⟨_, .failed hask hp, by simp⟩
              · rintro ⟨p, hp, rfl⟩
                cases hp with
                | answered h => simp [hask] at h
                | failed h hrest =>
                    obtain rfl : f = _ := by simpa [hask] using h
                    exact ⟨_, hrest, by simp⟩

namespace SearchChain

theorem search_eq_ok_iff {chain : SearchChain} {q : Query} {o : SearchOutcome} :
    chain.search q = .ok o ↔ Asks q chain.searchers o := by
  simp [search, consultFrom_eq_ok_iff]

end SearchChain

namespace Asks

variable {q : Query} {xs : List Searcher} {o : SearchOutcome}

theorem exists_of_answer {hits : List Hit} (h : Asks q xs o) (ho : o.answer = some hits) :
    ∃ before x after, xs = before ++ x :: after ∧ x.ask q = .ok (.ok hits) ∧
      List.Forall₂ (Searcher.FailsWith q) before o.failures := by
  induction h with
  | exhausted => simp at ho
  | @answered x xs hits' h =>
      obtain rfl : hits' = hits := by simpa using ho
      exact ⟨[], x, xs, rfl, h, .nil⟩
  | @failed x xs f o h _ ih =>
      obtain ⟨before, y, after, rfl, hy, hbefore⟩ := ih ho
      exact ⟨x :: before, y, after, rfl, hy, .cons h hbefore⟩

theorem forall₂_of_no_answer (h : Asks q xs o) (ho : o.answer = none) :
    List.Forall₂ (Searcher.FailsWith q) xs o.failures := by
  induction h with
  | exhausted => exact .nil
  | answered _ => simp at ho
  | failed h _ ih => exact .cons h (ih ho)

end Asks
end DocClaims
