import DocClaims.Proofs.Outcomes
import DocClaims.Proofs.Search.Chain

/-!
# Who is consulted

The loop of a search, told for any way of asking. Run with a log, it shows which
searchers of a chain a query goes to, and in which order: one after the other, up
to the first that answers.
-/

namespace DocClaims

open Outcome

/-- A query put to the searcher at a place of a chain. -/
structure Consultation where
  place : Nat
  query : Query
  deriving DecidableEq, Repr

/-- Searches that keep a log. -/
abbrev Logged := StateT (List Consultation) (Except NoReturn)

/-- Asks a searcher, given with its place, and notes it. -/
def askLogged (x : Searcher × Nat) (q : Query) : Logged Answer := do
  modify (· ++ [⟨x.2, q⟩])
  liftM (x.1.ask q)

/-! ### The log of one search -/

section

variable {q : Query} {x : Searcher} {k : Nat} {failures : List SearchFailure}
  {xs : List (Searcher × Nat)} {log : List Consultation}

theorem askLogged_eq {answer : Answer} (h : x.ask q = .ok answer) :
    askLogged (x, k) q log = .ok (answer, log ++ [⟨k, q⟩]) := by
  change (x.ask q >>= fun a => pure (a, log ++ [⟨k, q⟩])) = _
  rw [h]
  rfl

theorem consultFrom_of_answer {hits : List Hit} (h : x.ask q = .ok (.ok hits)) :
    consultFrom askLogged q failures ((x, k) :: xs) log =
      .ok (⟨failures.reverse, some hits⟩, log ++ [⟨k, q⟩]) := by
  change (askLogged (x, k) q log >>= _) = _
  rw [askLogged_eq h]
  rfl

theorem consultFrom_of_failure {f : SearchFailure} (h : x.ask q = .ok (.error f)) :
    consultFrom askLogged q failures ((x, k) :: xs) log =
      consultFrom askLogged q (f :: failures) xs (log ++ [⟨k, q⟩]) := by
  change (askLogged (x, k) q log >>= _) = _
  rw [askLogged_eq h]
  rfl

end

namespace SearchOutcome

/-- The consultations that lead to an outcome: the places in order, up to the one that
answers. -/
def consultations (q : Query) (o : SearchOutcome) : List Consultation :=
  (List.range o.asked).map (Consultation.mk · q)

theorem asked_cons (f : SearchFailure) (o : SearchOutcome) :
    asked ⟨f :: o.failures, o.answer⟩ = o.asked + 1 := by
  simp only [asked, isAnswered, List.length_cons]
  exact Nat.add_right_comm _ _ _

end SearchOutcome

theorem Asks.consultFrom_eq {q : Query} {xs : List Searcher} {o : SearchOutcome}
    (h : Asks q xs o) (failures : List SearchFailure) (k : Nat) (log : List Consultation) :
    consultFrom askLogged q failures (xs.zipIdx k) log =
      .ok (⟨failures.reverse ++ o.failures, o.answer⟩,
        log ++ (List.range' k o.asked).map (Consultation.mk · q)) := by
  induction h generalizing failures k log with
  | exhausted => simp [consultFrom, SearchOutcome.asked, SearchOutcome.isAnswered]; rfl
  | answered h =>
      rw [List.zipIdx_cons, consultFrom_of_answer h]
      simp [SearchOutcome.asked, SearchOutcome.isAnswered]
  | failed h _ ih =>
      rw [List.zipIdx_cons, consultFrom_of_failure h, ih, SearchOutcome.asked_cons,
        List.range'_succ]
      simp

namespace SearchChain

variable {chain : SearchChain} {q : Query} {o : SearchOutcome}

/-- The search with a log of the consultations. -/
def searchLogged (chain : SearchChain) (q : Query) : Logged SearchOutcome :=
  consultFrom askLogged q [] chain.searchers.zipIdx

theorem searchLogged_eq (h : chain.search q = .ok o) (log : List Consultation) :
    chain.searchLogged q log = .ok (o, log ++ o.consultations q) := by
  have hasks : Asks q chain.searchers o := search_eq_ok_iff.1 h
  rw [searchLogged, hasks.consultFrom_eq, SearchOutcome.consultations, List.range_eq_range']
  rfl

/-- A sequence of searches logs what each of them does, in order. -/
theorem mapM_searchLogged_eq {queries : List Query} {outcomes : List SearchOutcome}
    (h : queries.mapM chain.search = .ok outcomes) (log : List Consultation) :
    queries.mapM chain.searchLogged log =
      .ok (outcomes, log ++ (queries.zip outcomes).flatMap fun p => p.2.consultations p.1) := by
  induction queries generalizing outcomes log with
  | nil =>
      obtain rfl := mapM_nil_eq_ok_iff.1 h
      simp
      rfl
  | cons q queries ih =>
      obtain ⟨o, later, ho, hlater, rfl⟩ := mapM_cons_eq_ok_iff.1 h
      rw [List.mapM_cons]
      change (chain.searchLogged q log >>= _) = _
      rw [searchLogged_eq ho]
      change (queries.mapM chain.searchLogged (log ++ o.consultations q) >>= _) = _
      rw [ih hlater]
      simp
      rfl

end SearchChain
end DocClaims
