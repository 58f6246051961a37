import DocClaims.Checking.Batch
import DocClaims.Proofs.Outcomes
import Mathlib.Algebra.Ring.Nat
import Mathlib.Data.List.Basic

/-!
# Batches in any order

Whatever order the workers take claims in and end their checks in, a batch comes to its
end after at most two moves for each claim, and it cannot get stuck before unless a check
waits forever. Its outcome is that of checking the claims one after the other.
-/

namespace DocClaims

open Outcome

theorem Machine.workers_pos (m : Machine) (jobs : Nat) : 0 < m.workers jobs := by
  have hprocessors := m.processors_pos
  unfold workers poolLimit
  split <;> omega

/-- Workers are started unless the system refuses so many threads. -/
theorem Machine.pool_eq_ok_iff {m : Machine} {jobs n : Nat} :
    m.pool jobs = .ok n ↔ m.refusal? (m.workers jobs) = none ∧ m.workers jobs = n := by
  rw [pool]
  cases m.refusal? (m.workers jobs) <;> simp

theorem Machine.pool_eq_error_iff {m : Machine} {jobs : Nat} {e : PoolError} :
    m.pool jobs = .error e ↔ m.refusal? (m.workers jobs) = some e.reason := by
  obtain ⟨reason⟩ := e
  rw [pool]
  cases m.refusal? (m.workers jobs) <;> simp

namespace Slot

def movesLeft (s : Slot) : Nat :=
  match s.stage with
  | .waiting => 2
  | .underway => 1
  | .ended _ => 0

/-- A result that a slot holds is that of checking its claim. -/
def Sound (c : Checker) (s : Slot) : Prop :=
  ∀ result, s.result? = some result → c.check s.claim = result

theorem isUnderway_eq_false {s : Slot} (h : s.hasEnded) : s.isUnderway = false := by
  obtain ⟨claim, stage⟩ := s
  cases stage with
  | ended result => rfl
  | waiting => cases h
  | underway => cases h

end Slot

namespace Batch

variable {c : Checker} {b b' : Batch} {move : Move} {workers : Nat} {claims : List Claim}

def movesLeft (b : Batch) : Nat := (b.slots.map Slot.movesLeft).sum

theorem movesLeft_start : (start workers claims).movesLeft = 2 * claims.length := by
  rw [movesLeft, start, List.map_map]
  induction claims with
  | nil => rfl
  | cons claim claims ih =>
      rw [List.map_cons, List.sum_cons, ih, List.length_cons]
      simp only [Function.comp_apply, Slot.movesLeft]
      omega

/-! ### One move -/

theorem exists_split {place : Nat} {s : Slot} (h : b.slots[place]? = some s) :
    ∃ before after, b.slots = before ++ s :: after ∧
      ∀ t, b.put place t = ⟨b.workers, before ++ t :: after⟩ := by
  obtain ⟨hplace, rfl⟩ := List.getElem?_eq_some_iff.1 h
  refine ⟨b.slots.take place, b.slots.drop (place + 1), ?_, ?_⟩
  · rw [← List.drop_eq_getElem_cons hplace, List.take_append_drop]
  · intro t
    rw [put, List.set_eq_take_append_cons_drop, if_pos hplace]

/-- A move changes one slot: a free worker takes a claim that waits, or a check that is
underway ends with its result. -/
theorem step?_cases (h : b.step? c move = some b') :
    ∃ before claim after,
      (b.slots = before ++ ⟨claim, .waiting⟩ :: after ∧ b.busy < b.workers ∧
        b' = ⟨b.workers, before ++ ⟨claim, .underway⟩ :: after⟩) ∨
      b.slots = before ++ ⟨claim, .underway⟩ :: after ∧
        b' = ⟨b.workers, before ++ ⟨claim, .ended (c.check claim)⟩ :: after⟩ := by
  cases move with
  | take place =>
      simp only [step?] at h
      split at h
      · next claim hslot =>
          obtain ⟨before, after, hsplit, hput⟩ := exists_split hslot
          split at h
          · next hbusy =>
              obtain rfl := Option.some.inj h
              exact ⟨before, claim, after, .inl ⟨hsplit, hbusy, hput _⟩⟩
          · cases h
      · cases h
  | finish place =>
      simp only [step?] at h
      split at h
      · next claim hslot =>
          obtain ⟨before, after, hsplit, hput⟩ := exists_split hslot
          split at h
          · obtain rfl := Option.some.inj h
            exact ⟨before, claim, after, .inr ⟨hsplit, hput _⟩⟩
          · cases h
      · cases h

theorem movesLeft_step (h : b.step? c move = some b') : b'.movesLeft + 1 = b.movesLeft := by
  obtain ⟨before, claim, after, ⟨hsplit, -, rfl⟩ | ⟨hsplit, rfl⟩⟩ := step?_cases h
  · simp only [movesLeft, hsplit, Slot.movesLeft, List.map_append, List.map_cons,
      List.sum_append, List.sum_cons]
    omega
  · simp only [movesLeft, hsplit, Slot.movesLeft, List.map_append, List.map_cons,
      List.sum_append, List.sum_cons]
    omega

/-- Unless all checks have ended, some worker can go on, if none of them waits forever. -/
theorem exists_step (hworkers : 0 < b.workers) (hhalts : ∀ s ∈ b.slots, c.halts s.claim = true)
    (h : ¬b.slots.all Slot.hasEnded) : ∃ move b', b.step? c move = some b' := by
  by_cases hbusy : b.busy = 0
  · -- A slot that has not ended then waits, and all workers are free.
    obtain ⟨⟨claim, stage⟩, hslot, hended⟩ := List.all_eq_false.1 (Bool.eq_false_iff.2 h)
    obtain ⟨place, hplace⟩ := List.mem_iff_getElem?.1 hslot
    cases stage with
    | waiting =>
        refine ⟨.take place, b.put place ⟨claim, .underway⟩, ?_⟩
        simp only [step?, hplace, hbusy, if_pos hworkers]
    | underway => exact absurd rfl (List.countP_eq_zero.1 hbusy _ hslot)
    | ended result => exact absurd rfl hended
  · obtain ⟨⟨claim, stage⟩, hslot, hunderway⟩ :=
      List.countP_pos_iff.1 (Nat.pos_of_ne_zero hbusy)
    obtain ⟨place, hplace⟩ := List.mem_iff_getElem?.1 hslot
    cases stage with
    | underway =>
        refine ⟨.finish place, b.put place ⟨claim, .ended (c.check claim)⟩, ?_⟩
        simp only [step?, hplace, hhalts _ hslot, if_true]
    | waiting => cases hunderway
    | ended result => cases hunderway

/-! ### Any number of moves -/

/-- A batch on the way: its claims keep their places, no more workers are busy than there
are, and the results are those of the checks. -/
structure OnTheWay (c : Checker) (workers : Nat) (claims : List Claim) (b : Batch) : Prop where
  workers_eq : b.workers = workers
  claims_eq : b.slots.map Slot.claim = claims
  busy_le : b.busy ≤ workers
  sound : ∀ s ∈ b.slots, s.Sound c

theorem onTheWay_start : (start workers claims).OnTheWay c workers claims where
  workers_eq := rfl
  claims_eq := by simp [start, Function.comp_def]
  busy_le := by simp [start, busy, List.countP_map, Function.comp_def, Slot.isUnderway]
  sound s hs := by
    obtain ⟨claim, -, rfl⟩ := List.mem_map.1 hs
    intro result hresult
    cases hresult

/-- Changing one slot keeps a batch on the way if the claim stays and the result, if there
is one now, is right. -/
theorem OnTheWay.replace (h : b.OnTheWay c workers claims) {before after : List Slot} {s t : Slot}
    (hsplit : b.slots = before ++ s :: after) (hclaim : t.claim = s.claim) (hsound : t.Sound c)
    (hbusy : (before ++ t :: after).countP Slot.isUnderway ≤ workers) :
    (Batch.mk b.workers (before ++ t :: after)).OnTheWay c workers claims where
  workers_eq := h.workers_eq
  claims_eq := by
    rw [← h.claims_eq, hsplit]
    simp [hclaim]
  busy_le := hbusy
  sound := by
    have hslots := h.sound
    rw [hsplit, List.forall_mem_append, List.forall_mem_cons] at hslots
    rw [List.forall_mem_append, List.forall_mem_cons]
    exact ⟨hslots.1, hsound, hslots.2.2⟩

theorem OnTheWay.step (h : b.OnTheWay c workers claims) (hstep : b.step? c move = some b') :
    b'.OnTheWay c workers claims := by
  have hbusy := h.busy_le
  have hworkers := h.workers_eq
  obtain ⟨before, claim, after, ⟨hsplit, hfree, rfl⟩ | ⟨hsplit, rfl⟩⟩ := step?_cases hstep
  · refine h.replace hsplit rfl ?_ ?_
    · intro result hresult
      cases hresult
    · simp only [busy, hsplit, List.countP_append, List.countP_cons, Slot.isUnderway,
        Bool.false_eq_true, if_true, if_false] at hfree ⊢
      omega
  · refine h.replace hsplit rfl ?_ ?_
    · intro result hresult
      exact Option.some.inj hresult
    · simp only [busy, hsplit, List.countP_append, List.countP_cons, Slot.isUnderway,
        Bool.false_eq_true, if_true, if_false] at hbusy ⊢
      omega

theorem OnTheWay.run {moves : List Move} (h : b.OnTheWay c workers claims)
    (hrun : b.run? c moves = some b') :
    b'.OnTheWay c workers claims ∧ b'.movesLeft + moves.length = b.movesLeft := by
  induction moves generalizing b with
  | nil =>
      obtain rfl := Option.some.inj hrun
      exact ⟨h, rfl⟩
  | cons move moves ih =>
      obtain ⟨next, hstep, hrest⟩ := Option.bind_eq_some_iff.1 hrun
      obtain ⟨hway, hleft⟩ := ih (h.step hstep) hrest
      have hone := movesLeft_step hstep
      refine ⟨hway, ?_⟩
      rw [List.length_cons]
      omega

/-! ### The end of a batch -/

theorem isOver_of_all_hasEnded (h : b.slots.all Slot.hasEnded) : b.isOver := by
  have hbusy : b.busy = 0 := List.countP_eq_zero.2 fun s hs => by
    simp [Slot.isUnderway_eq_false (List.all_eq_true.1 h s hs)]
  simp [isOver, hbusy, h]

theorem OnTheWay.outcome_of_all_hasEnded (h : b.OnTheWay c workers claims)
    (hall : b.slots.all Slot.hasEnded) : b.outcome = c.checkAll claims := by
  have hresults : b.slots.filterMap Slot.result? = b.slots.map fun s => c.check s.claim := by
    rw [List.filterMap_eq_map_iff_forall_eq_some]
    intro s hs
    obtain ⟨result, hresult⟩ := Option.isSome_iff_exists.1 (List.all_eq_true.1 hall s hs)
    rw [hresult, h.sound s hs result hresult]
  rw [outcome, hresults, List.mapM_map, Checker.checkAll, ← h.claims_eq, List.mapM_map]
  rfl

/-- One failure is enough for both to fail. -/
theorem OnTheWay.not_ok_of_any_hasFailed (h : b.OnTheWay c workers claims)
    (hany : b.slots.any Slot.hasFailed) :
    (¬∃ checks, b.outcome = .ok checks) ∧ ¬∃ checks, c.checkAll claims = .ok checks := by
  obtain ⟨s, hs, hfailed⟩ := List.any_eq_true.1 hany
  obtain ⟨result, hresult, hnot⟩ := (Option.any_eq_true _ _).1 hfailed
  have hcheck : ¬∃ check, c.check s.claim = .ok check := by
    rintro ⟨check, hcheck⟩
    rw [← h.sound s hs result hresult, hcheck] at hnot
    cases hnot
  have hclaim : s.claim ∈ claims := h.claims_eq ▸ List.mem_map_of_mem hs
  constructor
  · intro hchecks
    obtain ⟨check, hok⟩ :=
      exists_mapM_eq_ok_iff.1 hchecks result (List.mem_filterMap.2 ⟨s, hs, hresult⟩)
    exact hcheck ⟨check, (h.sound s hs result hresult).trans hok⟩
  · intro hchecks
    exact hcheck (exists_mapM_eq_ok_iff.1 hchecks s.claim hclaim)

theorem OnTheWay.outcome_eq_ok_iff (h : b.OnTheWay c workers claims) (hover : b.isOver)
    {checks : List Check} : b.outcome = .ok checks ↔ c.checkAll claims = .ok checks := by
  obtain ⟨-, hends⟩ := Bool.and_eq_true_iff.1 hover
  rcases Bool.or_eq_true_iff.1 hends with hall | hany
  · rw [h.outcome_of_all_hasEnded hall]
  · obtain ⟨hnot, hnot'⟩ := h.not_ok_of_any_hasFailed hany
    exact iff_of_false (fun hok => hnot ⟨checks, hok⟩) fun hok => hnot' ⟨checks, hok⟩

end Batch
end DocClaims
