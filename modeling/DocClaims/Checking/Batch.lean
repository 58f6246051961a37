import DocClaims.Checking.Checker

/-!
# Checking in parallel

The claims of a set are checked in a batch by several workers, if the system starts as many
threads. A worker takes any claim that waits, checks end in any order, and each result goes to the
place of its claim. Once a check has panicked, claims that still wait may be left unchecked; a
check that waits forever does not end.
-/

namespace DocClaims

structure Machine where
  /-- The workers of a batch for which no number is given. -/
  processors : Nat
  /-- Why so many threads cannot be started, if they cannot. -/
  refusal? : Nat → Option String
  processors_pos : 0 < processors

/-- The most workers that a batch can have. -/
def poolLimit : Nat := 65535

structure PoolError where
  reason : String
  deriving DecidableEq, Repr

namespace Machine

/-- Zero jobs stand for as many as there are processors. -/
def workers (m : Machine) (jobs : Nat) : Nat :=
  min (if jobs = 0 then m.processors else jobs) poolLimit

/-- Starts the workers. -/
def pool (m : Machine) (jobs : Nat) : Except PoolError Nat :=
  match m.refusal? (m.workers jobs) with
  | some reason => .error ⟨reason⟩
  | none => .ok (m.workers jobs)

end Machine

/-- The check of the claim ends, if only by a panic. -/
def Checker.halts (c : Checker) (claim : Claim) : Bool :=
  match c.check claim with
  | .error .waitsForever => false
  | _ => true

inductive Stage
  | waiting
  | underway
  | ended (result : Except NoReturn Check)

/-- A claim at its place in a batch. -/
structure Slot where
  claim : Claim
  stage : Stage

namespace Slot

def isUnderway (s : Slot) : Bool :=
  match s.stage with
  | .underway => true
  | _ => false

def result? (s : Slot) : Option (Except NoReturn Check) :=
  match s.stage with
  | .ended result => some result
  | _ => none

def hasEnded (s : Slot) : Bool := s.result?.isSome

def hasFailed (s : Slot) : Bool := s.result?.any fun result => !result.isOk

end Slot

structure Batch where
  workers : Nat
  slots : List Slot

/-- What a worker does next, and at which place. -/
inductive Move
  | take (place : Nat)
  | finish (place : Nat)
  deriving DecidableEq, Repr

namespace Batch

def start (workers : Nat) (claims : List Claim) : Batch :=
  ⟨workers, claims.map fun claim => ⟨claim, .waiting⟩⟩

def busy (b : Batch) : Nat := b.slots.countP Slot.isUnderway

def put (b : Batch) (place : Nat) (s : Slot) : Batch := { b with slots := b.slots.set place s }

def step? (c : Checker) (b : Batch) : Move → Option Batch
  | .take place =>
      match b.slots[place]? with
      | some ⟨claim, .waiting⟩ =>
          if b.busy < b.workers then some (b.put place ⟨claim, .underway⟩) else none
      | _ => none
  | .finish place =>
      match b.slots[place]? with
      | some ⟨claim, .underway⟩ =>
          if c.halts claim then some (b.put place ⟨claim, .ended (c.check claim)⟩) else none
      | _ => none

def run? (c : Checker) (b : Batch) (moves : List Move) : Option Batch := moves.foldlM (step? c) b

/-- No worker is busy, and all checks have ended or one of them has failed. -/
def isOver (b : Batch) : Bool :=
  b.busy == 0 && (b.slots.all Slot.hasEnded || b.slots.any Slot.hasFailed)

/-- The results by place, unless one of them is a failure. -/
def outcome (b : Batch) : Except NoReturn (List Check) :=
  (b.slots.filterMap Slot.result?).mapM id

/-- The report on the set whose claims were checked in the batch. -/
def report (b : Batch) (c : Checker) (set : ClaimSet) (date : String) :
    Except NoReturn Report := do
  let checks ← b.outcome
  return .ofVerdicts set.sourceDocument date (Text.lossy c.root.given) (checks.map Check.verdict)

end Batch

/-- A batch with the claims of a set, before any of them is checked. -/
def Machine.batch (m : Machine) (jobs : Nat) (set : ClaimSet) : Except PoolError Batch := do
  return .start (← m.pool jobs) set.toList

end DocClaims
