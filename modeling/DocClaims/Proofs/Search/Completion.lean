import DocClaims.Proofs.Outcomes
import DocClaims.Search.Searcher

/-!
# Searches that find nothing

A backend in a chain may meet other programs, files and clocks at every query.
Whatever these do, it answers without hits only when it has searched to the end:
its program says so by status 1, or by status 0 and an output without hits, or
the walk has visited all files in time.
-/

namespace DocClaims

open Text (Bytes)

/-- The walk below `root` begins where the clock leaves room for it, and visits
every file before its time is over. -/
def Walk.InTime (files : FileTree) (clock : Clock) (limit : Nat) (root : Bytes) : Prop :=
  clock 0 + limit < clockEnd ∧
    ∀ i < (files.visits root).length, clock (i + 1) < clock 0 + limit

/-! ### Programs that end -/

namespace Child

/-- The program exits by itself, and nothing holds its pipes for ever. -/
structure Ends (c : Child) (status : ExitStatus) : Prop where
  waiting_eq : c.waiting = .exited status
  output_read : c.output.bytes?.isSome
  errors_read : c.errors.bytes?.isSome

/-- The program is not waited for without end: it exits or is killed, and nothing holds its pipes
for ever. -/
inductive Returns (c : Child) : Prop
  | exited (status : ExitStatus) (ended : c.Ends status)
  | overdue (waiting_eq : c.waiting = .overdue) (dies : c.dies = true)
      (output_read : c.output.bytes?.isSome) (errors_read : c.errors.bytes?.isSome)
  | failed (reason : String) (waiting_eq : c.waiting = .failed reason) (dies : c.dies = true)

variable {c : Child} {backend : String} {limit : Nat}

theorem finish_eq_ok_ok_iff {o : ProgramOutput} :
    c.finish backend limit = .ok (.ok o) ↔
      c.waiting = .exited o.status ∧ c.output.bytes? = some o.output ∧
        c.errors.bytes? = some o.errors := by
  rw [finish]
  cases c.waiting with
  | exited status =>
      cases c.output.bytes? with
      | none => simp
      | some output =>
          cases c.errors.bytes? with
          | none => simp
          | some errors =>
              obtain ⟨status', output', errors'⟩ := o
              simp
  | overdue =>
      dsimp only
      split <;> simp
  | failed reason =>
      dsimp only
      split <;> simp

theorem Ends.exists_finish {status : ExitStatus} (h : c.Ends status) :
    ∃ o : ProgramOutput, o.status = status ∧ c.output.bytes? = some o.output ∧
      c.finish backend limit = .ok (.ok o) := by
  obtain ⟨output, houtput⟩ := Option.isSome_iff_exists.1 h.output_read
  obtain ⟨errors, herrors⟩ := Option.isSome_iff_exists.1 h.errors_read
  exact ⟨⟨status, output, errors⟩, rfl, houtput,
    finish_eq_ok_ok_iff.2 ⟨h.waiting_eq, houtput, herrors⟩⟩

theorem ends_of_finish {o : ProgramOutput} (h : c.finish backend limit = .ok (.ok o)) :
    c.Ends o.status ∧ c.output.bytes? = some o.output := by
  obtain ⟨hwaiting, houtput, herrors⟩ := finish_eq_ok_ok_iff.1 h
  exact ⟨⟨hwaiting, by rw [houtput]; rfl, by rw [herrors]; rfl⟩, houtput⟩

theorem exists_finish_iff : (∃ outcome, c.finish backend limit = .ok outcome) ↔ c.Returns := by
  rw [finish]
  cases hwaiting : c.waiting with
  | exited status =>
      have hends : c.Returns ↔ c.output.bytes?.isSome ∧ c.errors.bytes?.isSome := by
        constructor
        · rintro (⟨_, hended⟩ | ⟨hover, -⟩ | ⟨_, hfailed, -⟩)
          · exact ⟨hended.output_read, hended.errors_read⟩
          · rw [hwaiting] at hover
            cases hover
          · rw [hwaiting] at hfailed
            cases hfailed
        · rintro ⟨houtput, herrors⟩
          exact .exited status ⟨hwaiting, houtput, herrors⟩
      rw [hends]
      cases c.output.bytes? <;> cases c.errors.bytes? <;> simp
  | overdue =>
      have hends : c.Returns ↔
          (c.dies = true ∧ c.output.bytes?.isSome) ∧ c.errors.bytes?.isSome := by
        constructor
        · rintro (⟨_, hended⟩ | ⟨-, hdies, houtput, herrors⟩ | ⟨_, hfailed, -⟩)
          · have hexited := hended.waiting_eq
            rw [hwaiting] at hexited
            cases hexited
          · exact ⟨⟨hdies, houtput⟩, herrors⟩
          · rw [hwaiting] at hfailed
            cases hfailed
        · rintro ⟨⟨hdies, houtput⟩, herrors⟩
          exact .overdue hwaiting hdies houtput herrors
      rw [hends, ← Bool.and_eq_true, ← Bool.and_eq_true]
      dsimp only
      split <;> simp_all
  | failed reason =>
      have hends : c.Returns ↔ c.dies = true := by
        constructor
        · rintro (⟨_, hended⟩ | ⟨hover, -⟩ | ⟨_, -, hdies⟩)
          · have hexited := hended.waiting_eq
            rw [hwaiting] at hexited
            cases hexited
          · rw [hwaiting] at hover
            cases hover
          · exact hdies
        · exact .failed reason hwaiting
      rw [hends]
      dsimp only
      split <;> simp_all

end Child

/-- Starting a program comes to something: it cannot be started, or it is not waited for without
end. -/
inductive Launch.Returns : Launch → Prop
  | notStarted (reason : String) : Returns (.notStarted reason)
  | started {child : Child} (returns : child.Returns) : Returns (.started child)

theorem Launch.exists_finish_iff {launch : Launch} {backend : String} {limit : Nat} :
    (∃ outcome, launch.finish backend limit = .ok outcome) ↔ launch.Returns := by
  cases launch with
  | notStarted reason => exact iff_of_true ⟨_, rfl⟩ (.notStarted reason)
  | noThread reason =>
      refine iff_of_false ?_ (by rintro ⟨⟩)
      rintro ⟨outcome, houtcome⟩
      cases houtcome
  | started child =>
      rw [Launch.finish, Child.exists_finish_iff]
      constructor
      · exact .started
      · rintro ⟨hreturns⟩
        assumption

namespace ProgramOutput

/-- A program's output is an answer without hits only if the program has come to its
end with status 1, or with status 0 and no hits in its output. -/
theorem answer_eq_ok_nil_iff {backend : String} {parse : Bytes → Except String (List Hit)}
    {o : ProgramOutput} :
    o.answer backend parse = .ok [] ↔
      o.status = .code 1 ∨ o.status = .code 0 ∧ parse o.output = .ok [] := by
  obtain ⟨status, output, errors⟩ := o
  match status with
  | .code 0 => simp [answer, Outcome.mapError_eq_ok_iff]
  | .code 1 => simp [answer]
  | .code 2 =>
      cases h : parse output with
      | error _ => simp [answer, h]
      | ok hits => cases hits <;> simp [answer, h]
  | .code (n + 3) => simp [answer]
  | .signal n dumped => simp [answer]

end ProgramOutput

/-- A backend at its position in a chain, and what it can reach at each query. -/
structure Placement where
  backend : Backend
  extensions : Extensions
  limit : Nat
  surroundings : Query → Surroundings

namespace Placement

def searcher (p : Placement) : Searcher where
  name := p.backend.name
  ask q := p.backend.ask (p.surroundings q) p.extensions p.limit q
  invocation? q := p.backend.invocation? p.extensions q

/-- The backend has started its program, which behaves as told. -/
def Runs (p : Placement) (q : Query) (child : Child) : Prop :=
  ∃ invocation program, p.backend.invocation? p.extensions q = some invocation ∧
    (p.surroundings q).program? invocation.program = some program ∧
    program.start invocation = .started child

/-- The backend has searched to the end and found nothing. -/
inductive FindsNothing (p : Placement) (q : Query) : Prop
  | noMatch {child : Child} (run : p.Runs q child) (ended : child.Ends (.code 1))
  | emptyOutput {child : Child} {output : Bytes} (run : p.Runs q child)
      (ended : child.Ends (.code 0)) (whole : child.output = .toEnd output)
      (parsed : p.backend.parse q.root output = .ok [])
  /-- An error has broken off the reading of the output. -/
  | emptyStart {child : Child} {output : Bytes} (run : p.Runs q child)
      (ended : child.Ends (.code 0)) (start : child.output = .brokenOff output)
      (parsed : p.backend.parse q.root output = .ok [])
  | walked (filter : Option FileFilter) (isWalk : p.backend = .walk)
      (compiled : p.extensions.filter q.fileClass = .ok filter)
      (inTime : Walk.InTime (p.surroundings q).files (p.surroundings q).clock p.limit q.root)
      (noHits : ∀ v ∈ (p.surroundings q).files.visits q.root,
        Walk.hitsAt (p.surroundings q).files q filter v = [])

end Placement

namespace Walk

theorem search_eq_ok_nil_iff {files : FileTree} {clock : Clock} {extensions : Extensions}
    {limit : Nat} {q : Query} :
    search files clock extensions limit q = .ok (.ok []) ↔
      ∃ filter, extensions.filter q.fileClass = .ok filter ∧ InTime files clock limit q.root ∧
        ∀ v ∈ files.visits q.root, hitsAt files q filter v = [] := by
  unfold search InTime
  by_cases hstart : clockEnd ≤ clock 0 + limit
  · have hnot : ¬clock 0 + limit < clockEnd := by omega
    simp [hstart, hnot]
  · have hroom : clock 0 + limit < clockEnd := by omega
    cases extensions.filter q.fileClass with
    | error fault => simp [hstart]
    | ok filter =>
        have hlate : ((List.range (files.visits q.root).length).any fun i =>
            decide (clock 0 + limit ≤ clock (i + 1))) = false ↔
              ∀ i < (files.visits q.root).length, clock (i + 1) < clock 0 + limit := by
          simp
        by_cases htime : ∀ i < (files.visits q.root).length, clock (i + 1) < clock 0 + limit
        · simp only [hlate.2 htime, hstart, hroom, if_false, Bool.false_eq_true, Except.ok.injEq,
            List.flatMap_eq_nil_iff, exists_eq_left', true_and]
          exact ⟨fun h => ⟨htime, h⟩, And.right⟩
        · have hover := (Bool.not_eq_false _).mp (mt hlate.1 htime)
          simp only [hover, hstart, if_false, if_true, Except.ok.injEq, reduceCtorEq, false_iff]
          rintro ⟨_, -, ⟨-, h⟩, -⟩
          exact htime h

end Walk

namespace Placement

variable {p : Placement} {q : Query} {invocation : Invocation}

theorem invocation?_eq_none_iff {b : Backend} {e : Extensions} :
    b.invocation? e q = none ↔ b = .walk := by
  cases b <;> simp [Backend.invocation?]

theorem ne_walk_of_invocation? {b : Backend} {e : Extensions}
    (h : b.invocation? e q = some invocation) : b ≠ .walk := by
  rintro rfl
  cases h

theorem ask_of_walk (h : p.backend = .walk) :
    p.searcher.ask q = Walk.search (p.surroundings q).files (p.surroundings q).clock p.extensions
      p.limit q := by
  have hcall : p.backend.invocation? p.extensions q = none := invocation?_eq_none_iff.2 h
  simp [searcher, Backend.ask, hcall]

section Invoked

variable (hcall : p.backend.invocation? p.extensions q = some invocation)
include hcall

theorem ask_of_notInstalled (h : (p.surroundings q).program? invocation.program = none) :
    p.searcher.ask q = .ok (.error (.notInstalled p.backend.name)) := by
  simp [searcher, Backend.ask, hcall, h]

variable {program : Program} (h : (p.surroundings q).program? invocation.program = some program)
include h

theorem ask_of_program :
    p.searcher.ask q = (do
      let output ← (program.start invocation).finish p.backend.name p.limit
      return output.bind (·.answer p.backend.name (p.backend.parse q.root))) := by
  simp [searcher, Backend.ask, hcall, h]

theorem runs_iff {child : Child} :
    p.Runs q child ↔ program.start invocation = .started child := by
  simp [Runs, hcall, h]

theorem ask_eq_ok_ok_iff {hits : List Hit} :
    p.searcher.ask q = .ok (.ok hits) ↔
      ∃ child o, p.Runs q child ∧ child.finish p.backend.name p.limit = .ok (.ok o) ∧
        o.answer p.backend.name (p.backend.parse q.root) = .ok hits := by
  rw [ask_of_program hcall h, Outcome.bind_eq_ok_iff]
  constructor
  · rintro ⟨outcome, hfinish, hanswer⟩
    cases outcome with
    | error failure => cases hanswer
    | ok o =>
        cases hlaunch : program.start invocation with
        | notStarted | noThread =>
            rw [hlaunch] at hfinish
            cases hfinish
        | started child =>
            rw [hlaunch] at hfinish
            exact ⟨child, o, (runs_iff hcall h).2 hlaunch, hfinish, Except.ok.inj hanswer⟩
  · rintro ⟨child, o, hrun, hfinish, hanswer⟩
    rw [(runs_iff hcall h).1 hrun]
    exact ⟨_, hfinish, congrArg Except.ok hanswer⟩

end Invoked

theorem findsNothing_iff_of_walk (h : p.backend = .walk) :
    p.FindsNothing q ↔ ∃ filter, p.extensions.filter q.fileClass = .ok filter ∧
      Walk.InTime (p.surroundings q).files (p.surroundings q).clock p.limit q.root ∧
      ∀ v ∈ (p.surroundings q).files.visits q.root,
        Walk.hitsAt (p.surroundings q).files q filter v = [] := by
  have hruns (child : Child) : ¬p.Runs q child := by
    rintro ⟨invocation, program, hcall, -⟩
    rw [invocation?_eq_none_iff.2 h] at hcall
    cases hcall
  constructor
  · rintro (⟨hrun, -⟩ | ⟨hrun, -⟩ | ⟨hrun, -⟩ | ⟨filter, -, hfilter, htime, hnone⟩)
    · exact absurd hrun (hruns _)
    · exact absurd hrun (hruns _)
    · exact absurd hrun (hruns _)
    · exact ⟨filter, hfilter, htime, hnone⟩
  · rintro ⟨filter, hfilter, htime, hnone⟩
    exact .walked filter h hfilter htime hnone

/-- What counts is what has been read of the output, to its end or up to an error. -/
theorem findsNothing_iff_of_ne_walk (h : p.backend ≠ .walk) :
    p.FindsNothing q ↔ ∃ child o, p.Runs q child ∧
      child.finish p.backend.name p.limit = .ok (.ok o) ∧
      o.answer p.backend.name (p.backend.parse q.root) = .ok [] := by
  have hzero {child : Child} {output : Bytes} (hrun : p.Runs q child)
      (hends : child.Ends (.code 0)) (hread : child.output.bytes? = some output)
      (hparsed : p.backend.parse q.root output = .ok []) :
      ∃ child o, p.Runs q child ∧ child.finish p.backend.name p.limit = .ok (.ok o) ∧
        o.answer p.backend.name (p.backend.parse q.root) = .ok [] := by
    obtain ⟨o, hstatus, houtput, hfinish⟩ := hends.exists_finish
    obtain rfl := Option.some.inj (hread.symm.trans houtput)
    exact ⟨child, o, hrun, hfinish,
      ProgramOutput.answer_eq_ok_nil_iff.2 (.inr ⟨hstatus, hparsed⟩)⟩
  constructor
  · rintro (⟨hrun, hends⟩ | ⟨hrun, hends, hreading, hparsed⟩ |
      ⟨hrun, hends, hreading, hparsed⟩ | ⟨_, hwalk, -⟩)
    · obtain ⟨o, hstatus, -, hfinish⟩ := hends.exists_finish
      exact ⟨_, o, hrun, hfinish, ProgramOutput.answer_eq_ok_nil_iff.2 (.inl hstatus)⟩
    · exact hzero hrun hends (by rw [hreading]; rfl) hparsed
    · exact hzero hrun hends (by rw [hreading]; rfl) hparsed
    · exact absurd hwalk h
  · rintro ⟨child, o, hrun, hfinish, hanswer⟩
    obtain ⟨hends, houtput⟩ := Child.ends_of_finish hfinish
    rcases ProgramOutput.answer_eq_ok_nil_iff.1 hanswer with hone | ⟨hzero, hparsed⟩
    · exact .noMatch hrun (hone ▸ hends)
    · cases hreading : child.output with
      | toEnd output =>
          rw [hreading] at houtput
          obtain rfl := Option.some.inj houtput
          exact .emptyOutput hrun (hzero ▸ hends) hreading hparsed
      | brokenOff output =>
          rw [hreading] at houtput
          obtain rfl := Option.some.inj houtput
          exact .emptyStart hrun (hzero ▸ hends) hreading hparsed
      | endless =>
          rw [hreading] at houtput
          cases houtput

/-- Whatever a backend meets, it answers without hits exactly when it has searched
to the end and found nothing. -/
theorem ask_eq_ok_nil_iff : p.searcher.ask q = .ok (.ok []) ↔ p.FindsNothing q := by
  cases hcall : p.backend.invocation? p.extensions q with
  | none =>
      have hwalk : p.backend = .walk := invocation?_eq_none_iff.1 hcall
      rw [ask_of_walk hwalk, Walk.search_eq_ok_nil_iff, findsNothing_iff_of_walk hwalk]
  | some invocation =>
      rw [findsNothing_iff_of_ne_walk (ne_walk_of_invocation? hcall)]
      cases hprogram : (p.surroundings q).program? invocation.program with
      | none =>
          rw [ask_of_notInstalled hcall hprogram]
          refine iff_of_false (fun h => by cases Except.ok.inj h) ?_
          rintro ⟨child, o, ⟨other, program, hother, hfound, -⟩, -⟩
          obtain rfl := Option.some.inj (hcall.symm.trans hother)
          rw [hprogram] at hfound
          cases hfound
      | some program => exact ask_eq_ok_ok_iff hcall hprogram

end Placement
end DocClaims
