import DocClaims.Command.Run
import DocClaims.Proofs.Files.Writing

/-!
# What runs leave behind

A run that extracts or checks claims looks at files until it knows all of what it is to
write, and writes last. So an error on the way leaves the files as they were, and a run
that comes to its end has written one file, or a device. A file that could be opened but
not written to its end holds a beginning of what it was to hold.
-/

namespace DocClaims

open Text (Bytes)

/-- What a command makes of the files it is started with. -/
inductive Product
  | claims (set : ClaimSet)
  | report (report : Report) (format : Format)

namespace Product

def text : Product → String
  | claims set => (ClaimDocument.ofSet set).write
  | report r format => r.render format

def NotFound : Product → Prop
  | claims _ => False
  | report r _ => 0 < r.summary.notFound

end Product

def Command.IsStrict : Command → Prop
  | .validate r => r.strict = true
  | .extract _ | .init _ => False

theorem CommandError.exitCode?_ne (e : CommandError) :
    e.exitCode? ≠ some .success ∧ e.exitCode? ≠ some .failed := by
  cases e with
  | noReturn reason => cases reason <;> exact ⟨by simp [exitCode?], by simp [exitCode?]⟩
  | _ => exact ⟨by simp [exitCode?], by simp [exitCode?]⟩

namespace Work

variable {α β : Type} {files : FileTree} {e : CommandError}

theorem run_bind (work : Work α) (next : α → Work β) (files : FileTree) :
    (work >>= next).run.run files =
      match work.run.run files with
      | (.ok a, after) => (next a).run.run after
      | (.error e, after) => (.error e, after) := by
  rw [ExceptT.run_bind, StateT.run_bind]
  rcases work.run.run files with ⟨_ | _, _⟩ <;> rfl

theorem run_get (files : FileTree) : (get : Work FileTree).run.run files = (.ok files, files) := rfl

theorem run_look (f : FileTree → Except CommandError α) (files : FileTree) :
    (look f).run.run files = (f files, files) := by
  rw [look, run_bind, run_get]
  dsimp only
  cases f files <;> rfl

theorem run_require (p : FileTree → Bool) (e : CommandError) (files : FileTree) :
    (require p e).run.run files = (if p files then .ok () else .error e, files) := by
  rw [require, run_bind, run_get]
  dsimp only
  cases p files <;> rfl

theorem run_change (f : FileTree → FileTree.Changed) (failure : FileError → CommandError)
    (files : FileTree) :
    (change f failure).run.run files =
      (match (f files).error? with
        | none => .ok ()
        | some e => .error (failure e), (f files).files) := by
  rw [change, run_bind, run_get]
  dsimp only
  cases (f files).error? <;> rfl

theorem run_look_bind {f : FileTree → Except CommandError α} {a : α} (h : f files = .ok a)
    (next : α → Work β) : (look f >>= next).run.run files = (next a).run.run files := by
  rw [run_bind, run_look, h]

theorem run_require_bind {p : FileTree → Bool} (h : p files = true) (next : Unit → Work β) :
    (require p e >>= next).run.run files = (next ()).run.run files := by
  rw [run_bind, run_require, h, if_pos rfl]

/-- From `files`, a piece of a run comes to what `post` says. -/
def EndsIn (work : Work α) (files : FileTree) (post : Except CommandError α → FileTree → Prop) :
    Prop :=
  post (work.run.run files).1 (work.run.run files).2

section Stopped

variable {post : Except CommandError β → FileTree → Prop} (hstop : ∀ e, post (.error e) files)
include hstop

theorem endsIn_throw : EndsIn (throw e : Work β) files post := hstop e

theorem endsIn_look {f : FileTree → Except CommandError α} {next : α → Work β}
    (h : ∀ a, f files = .ok a → EndsIn (next a) files post) :
    EndsIn (look f >>= next) files post := by
  cases hf : f files with
  | ok a =>
      rw [EndsIn, run_look_bind hf]
      exact h a hf
  | error e =>
      rw [EndsIn, run_bind, run_look, hf]
      exact hstop e

theorem endsIn_require {p : FileTree → Bool} {next : Unit → Work β}
    (h : p files = true → EndsIn (next ()) files post) :
    EndsIn (require p e >>= next) files post := by
  cases hp : p files with
  | true =>
      rw [EndsIn, run_require_bind hp]
      exact h hp
  | false =>
      rw [EndsIn, run_bind, run_require, hp]
      exact hstop e

end Stopped
end Work

namespace Session

variable {s : Session} {common : CommonOptions}

/-- The command has `product` to write to `path`. -/
inductive Makes (s : Session) (common : CommonOptions) : Command → Bytes → Product → Prop
  | claims {r : ExtractRequest} {config : Config} {set : ClaimSet} :
      s.loadConfig common s.files = .ok config →
      s.files.isFile r.document = true →
      extractFile s.files (Scanner.ofTags config.verbatimTags qualifiedMarker) r.document s.time =
        .ok set →
      Makes s common (.extract r) (r.output.getD (defaultOutput r.document "_claims" "yaml"))
        (.claims set)
  | report {r : ValidateRequest} {config : Config} {format : Format} {checker : Checker}
      {doc : ClaimDocument} {workers : Nat} {report : Report} :
      s.loadConfig common s.files = .ok config →
      Format.ofName? r.format = some format →
      s.files.isFile r.claims = true →
      s.checker config r.sourceRoot r.backends s.files = .ok checker →
      ClaimDocument.load s.files r.claims = .ok doc →
      s.machine.pool (r.jobs.getD config.validation.jobs) = .ok workers →
      checker.report doc.toSet s.time = .ok report →
      Makes s common (.validate r)
        (r.output.getD (defaultOutput r.claims "_validation" format.extension))
        (.report report format)

/-- What a run that extracts or checks claims leaves. It is stopped before it changes any file,
or it has made all that it is to write, and writes it last. -/
inductive Leaves (s : Session) (common : CommonOptions) (command : Command) :
    Except CommandError Ending → FileTree → Prop
  | stopped (e : CommandError) : Leaves s common command (.error e) s.files
  | brokenOff {path : Bytes} {product : Product} {after : FileTree} {e : FileError} :
      s.Makes common command path product → s.files.write path product.text = ⟨after, some e⟩ →
      Leaves s common command (.error (.unwritable e)) after
  | written {path : Bytes} {product : Product} {after : FileTree} {ending : Ending} :
      s.Makes common command path product → s.files.write path product.text = ⟨after, none⟩ →
      ending.exitCode = .success ∨ ending.exitCode = .failed →
      (ending.exitCode = .failed ↔ command.IsStrict ∧ product.NotFound) →
      Leaves s common command (.ok ending) after

open Work

theorem run_finish (common : CommonOptions) (code : ExitCode) (path : Bytes)
    (text overview : String) (files : FileTree) :
    (finish common code path text overview).run.run files =
      (match (files.write path text).error? with
        | none => .ok ⟨code, if common.quiet then "" else overview, some (path, text)⟩
        | some e => .error (.unwritable e), (files.write path text).files) := by
  rw [finish, run_bind, write, run_change]
  cases (files.write path text).error? <;> rfl

theorem endsIn_finish {command : Command} {code : ExitCode} {path : Bytes} {overview : String}
    (product : Product) (hmakes : s.Makes common command path product)
    (hcode : code = .success ∨ code = .failed)
    (hfailed : code = .failed ↔ command.IsStrict ∧ product.NotFound) :
    (finish common code path product.text overview).EndsIn s.files (s.Leaves common command) := by
  rw [EndsIn, run_finish]
  cases hwrite : s.files.write path product.text with
  | mk after error? =>
      cases error? with
      | none => exact .written hmakes hwrite hcode hfailed
      | some e => exact .brokenOff hmakes hwrite

theorem endsIn_extract (r : ExtractRequest) :
    (s.extract common r).EndsIn s.files (s.Leaves common (.extract r)) := by
  refine endsIn_look .stopped fun config hconfig => endsIn_require .stopped fun hfile =>
    endsIn_look .stopped fun set hset => ?_
  rw [Outcome.mapError_eq_ok_iff] at hset
  refine endsIn_finish (.claims set) (.claims hconfig hfile hset) (.inl rfl) ?_
  simp [Command.IsStrict]

theorem endsIn_validate (r : ValidateRequest) :
    (s.validate common r).EndsIn s.files (s.Leaves common (.validate r)) := by
  refine endsIn_look .stopped fun config hconfig => ?_
  split
  · exact endsIn_throw .stopped
  · next format hformat =>
      refine endsIn_require .stopped fun hfile => endsIn_look .stopped fun checker hchecker =>
        endsIn_look .stopped fun doc hdoc => endsIn_look .stopped fun workers hpool =>
          endsIn_look .stopped fun report hreport => ?_
      rw [Outcome.mapError_eq_ok_iff] at hdoc hpool hreport
      refine endsIn_finish (.report report format)
        (.report hconfig hformat hfile hchecker hdoc hpool hreport) ?_ ?_
      · split
        · exact .inr rfl
        · exact .inl rfl
      · simp [Command.IsStrict, Product.NotFound, Report.hasMissing, Nat.pos_iff_ne_zero]

theorem leaves_run (s : Session) (common : CommonOptions) {command : Command}
    (h : ∀ r, command ≠ .init r) :
    s.Leaves common command (s.run (.perform common command)).1
      (s.run (.perform common command)).2 := by
  have hends : (s.perform common command).EndsIn s.files (s.Leaves common command) := by
    cases command with
    | extract r => exact endsIn_extract r
    | validate r => exact endsIn_validate r
    | init r => exact absurd rfl (h r)
  exact hends

/-- What a command makes is written. -/
theorem exists_run_of_makes {command : Command} {path : Bytes} {product : Product}
    (h : s.Makes common command path product) :
    ∃ ending, s.run (.perform common command) =
      (match (s.files.write path product.text).error? with
        | none => .ok ending
        | some e => .error (.unwritable e), (s.files.write path product.text).files) := by
  cases h with
  | claims hconfig hfile hset =>
      rw [Product.text, run, work, perform, extract, run_look_bind hconfig,
        run_require_bind hfile, run_look_bind (Outcome.mapError_eq_ok_iff.2 hset), run_finish]
      exact ⟨_, rfl⟩
  | report hconfig hformat hfile hchecker hdoc hpool hreport =>
      rw [Product.text, run, work, perform, validate, run_look_bind hconfig, hformat]
      dsimp only
      rw [run_require_bind hfile, run_look_bind hchecker,
        run_look_bind (Outcome.mapError_eq_ok_iff.2 hdoc),
        run_look_bind (Outcome.mapError_eq_ok_iff.2 hpool),
        run_look_bind (Outcome.mapError_eq_ok_iff.2 hreport), run_finish]
      exact ⟨_, rfl⟩

/-! ### How the program exits -/

/-- A run that does not return has no exit status. -/
def exitCode? (s : Session) (request : Request) : Option ExitCode :=
  match (s.run request).1 with
  | .ok ending => some ending.exitCode
  | .error e => e.exitCode?

def filesAfter (s : Session) (request : Request) : FileTree := (s.run request).2

/-- The run has come to its end. -/
def Succeeds (s : Session) (request : Request) : Prop :=
  s.exitCode? request = some .success ∨ s.exitCode? request = some .failed

theorem exitCode?_of_ok {request : Request} {ending : Ending}
    (h : (s.run request).1 = .ok ending) : s.exitCode? request = some ending.exitCode := by
  rw [exitCode?, h]

theorem exitCode?_of_error {request : Request} {e : CommandError}
    (h : (s.run request).1 = .error e) : s.exitCode? request = e.exitCode? := by
  rw [exitCode?, h]

theorem not_succeeds_of_error {request : Request} {e : CommandError}
    (h : (s.run request).1 = .error e) : ¬s.Succeeds request := by
  rw [Succeeds, exitCode?_of_error h, not_or]
  exact e.exitCode?_ne

theorem succeeds_of_makes {command : Command} {path : Bytes} {product : Product}
    (h : s.Makes common command path product)
    (hwrite : (s.files.write path product.text).error? = none) :
    s.Succeeds (.perform common command) := by
  have hinit : ∀ r, command ≠ .init r := by cases h <;> simp
  obtain ⟨ending, hrun⟩ := exists_run_of_makes h
  rw [hwrite] at hrun
  have hok : (s.run (.perform common command)).1 = .ok ending := by rw [hrun]
  rw [Succeeds, exitCode?_of_ok hok, Option.some.injEq, Option.some.injEq]
  have hleaves := leaves_run s common hinit
  rw [hok] at hleaves
  cases hleaves with
  | written _ _ hcode => exact hcode

/-- Extracting or checking claims changes no file unless it comes to write what it has made. If
all of that is written, the run succeeds: one file holds it and all else is as before, or it was
given to a device. If it cannot be written, the run ends with an error; the file that was opened,
if one was, holds a beginning of it, and all else is as before. -/
theorem run_writes_product_or_nothing (s : Session) (common : CommonOptions) (command : Command)
    (h : ∀ r, command ≠ .init r) :
    (¬s.Succeeds (.perform common command) →
      s.filesAfter (.perform common command) = s.files ∨
        s.exitCode? (.perform common command) = some .error ∧
          ∃ path product place n, s.Makes common command path product ∧
            (s.files.write path product.text).error?.isSome ∧
            s.files.Wrote (s.filesAfter (.perform common command)) path
              ((Text.encode product.text).take n) place) ∧
    (s.Succeeds (.perform common command) →
      ∃ path product, s.Makes common command path product ∧
        ((∃ place, s.files.Wrote (s.filesAfter (.perform common command)) path
            (Text.encode product.text) place) ∨
          s.filesAfter (.perform common command) = s.files ∧
            ∃ place given, s.files.resolve true path = .ok place ∧
              s.files.nodeAt? place = some (.special given)) ∧
        (s.exitCode? (.perform common command) = some .failed ↔
          command.IsStrict ∧ product.NotFound)) ∧
    ∀ path product, s.Makes common command path product →
      (s.files.write path product.text).error? = none → s.Succeeds (.perform common command) := by
  rw [← and_assoc]
  refine ⟨?_, fun path product => succeeds_of_makes⟩
  have hleaves := leaves_run s common h
  rw [filesAfter]
  generalize hresult : (s.run (.perform common command)).1 = result at hleaves
  generalize (s.run (.perform common command)).2 = after at hleaves ⊢
  cases hleaves with
  | stopped e =>
      have hnot := not_succeeds_of_error hresult
      exact ⟨fun _ => .inl rfl, fun hsucceeds => absurd hsucceeds hnot⟩
  | brokenOff hmakes hwrite =>
      have hnot := not_succeeds_of_error hresult
      refine ⟨fun _ => ?_, fun hsucceeds => absurd hsucceeds hnot⟩
      cases FileTree.writes_of_write hwrite with
      | unopened | device => exact .inl rfl
      | part hwrote =>
          refine .inr ⟨exitCode?_of_error hresult, _, _, _, _, hmakes, ?_, hwrote⟩
          rw [hwrite]
          rfl
  | written hmakes hwrite hcode hfailed =>
      have hexit := exitCode?_of_ok hresult
      constructor
      · intro hnot
        refine absurd ?_ hnot
        rwa [Succeeds, hexit, Option.some.injEq, Option.some.injEq]
      · intro _
        rw [hexit, Option.some.injEq]
        refine ⟨_, _, hmakes, ?_, hfailed⟩
        cases FileTree.writes_of_write hwrite with
        | device hplace hspecial => exact .inr ⟨rfl, _, _, hplace, hspecial⟩
        | whole hwrote => exact .inl ⟨_, hwrote⟩

/-! ### An empty document -/

/-- A working directory with the entries, and nothing else to find. -/
def alone (entries : List (Bytes × FileNode)) (limits : Limits) : Session where
  surroundings :=
    { files := { root := .directory entries, here := [], limits := limits }
      program? := fun _ => none
      clock := fun _ => 0 }
  machine := ⟨1, fun _ => none, Nat.one_pos⟩
  environment := fun _ => none
  accountHome := none
  onTerminal := false
  time := "2024-05-01T12:00:00+00:00"

/-- A working directory that holds an empty document and nothing else. -/
def emptyDocument : Session := alone [("guide.md", .file [])] .none

def quiet : CommonOptions := ⟨0, true, none⟩

theorem defaultOutput_guide : defaultOutput "guide.md" "_claims" "yaml" = "guide_claims.yaml" := by
  decide +kernel

/-- An empty document is read where no configuration is found. -/
theorem makes_of_empty (output : Option Bytes)
    (hconfig : s.loadConfig quiet s.files = .ok .standard)
    (hfile : s.files.isFile "guide.md" = true) (hread : s.files.read "guide.md" = .ok []) :
    ∃ set, s.Makes quiet (.extract ⟨"guide.md", output⟩) (output.getD "guide_claims.yaml")
      (.claims set) := by
  obtain ⟨set, hset⟩ : ∃ set, extractFile s.files
      (Scanner.ofTags Config.standard.verbatimTags qualifiedMarker) "guide.md" s.time =
        .ok set := by
    rw [extractFile, hread]
    exact ⟨_, rfl⟩
  exact ⟨set, defaultOutput_guide ▸ .claims hconfig hfile hset⟩

theorem makes_emptyDocument :
    ∃ set, emptyDocument.Makes quiet (.extract ⟨"guide.md", none⟩) "guide_claims.yaml"
      (.claims set) :=
  makes_of_empty none (by rfl) (by rfl) (by rfl)

theorem path_of_makes_extract {r : ExtractRequest} {path : Bytes} {product : Product}
    (h : s.Makes common (.extract r) path product) :
    path = r.output.getD (defaultOutput r.document "_claims" "yaml") := by
  cases h with
  | claims => rfl

theorem run_writes_product_or_nothing_emptyDocument :
    (∀ r, Command.extract ⟨"guide.md", none⟩ ≠ .init r) ∧
      ∃ path product place, emptyDocument.Makes quiet (.extract ⟨"guide.md", none⟩) path product ∧
        emptyDocument.files.Wrote
          (emptyDocument.filesAfter (.perform quiet (.extract ⟨"guide.md", none⟩)))
          path (Text.encode product.text) place := by
  obtain ⟨set, hmakes⟩ := makes_emptyDocument
  obtain ⟨-, hdone, hends⟩ := run_writes_product_or_nothing emptyDocument quiet
    (.extract ⟨"guide.md", none⟩) (by simp)
  obtain ⟨path, product, hmade, hwhole, -⟩ := hdone (hends _ _ hmakes rfl)
  refine ⟨by simp, path, product, ?_⟩
  rcases hwhole with ⟨place, hwrote⟩ | ⟨-, place, given, hplace, -⟩
  · exact ⟨place, hmade, hwrote⟩
  · obtain rfl := path_of_makes_extract hmade
    have hmissing : emptyDocument.files.resolve true "guide_claims.yaml" = .error .notFound := by
      rfl
    rw [Option.getD_none, defaultOutput_guide, hmissing] at hplace
    cases hplace

/-- The claims of the empty document were written before, and no byte can be written now. -/
def fullDisk : Session :=
  alone [("guide.md", .file []), ("guide_claims.yaml", .file [0x7D])]
    { Limits.none with shortage? := fun _ _ => some (0, .noSpace) }

/-- The empty document beside a device that takes all bytes. -/
def withDevice : Session :=
  alone [("guide.md", .file []), ("dev", .directory [("null", .special [])])] .none

/-- An output that was opened is empty when the system has no space for what is written to it,
and a device takes what is written to it without a change of any file. -/
theorem output_lost_or_taken :
    (fullDisk.exitCode? (.perform quiet (.extract ⟨"guide.md", none⟩)) = some .error ∧
      fullDisk.files.read "guide_claims.yaml" = .ok [0x7D] ∧
      (fullDisk.filesAfter (.perform quiet (.extract ⟨"guide.md", none⟩))).read
        "guide_claims.yaml" = .ok []) ∧
    withDevice.Succeeds (.perform quiet (.extract ⟨"guide.md", some "/dev/null"⟩)) ∧
      withDevice.filesAfter (.perform quiet (.extract ⟨"guide.md", some "/dev/null"⟩)) =
        withDevice.files := by
  constructor
  · obtain ⟨set, hmakes⟩ : ∃ set, fullDisk.Makes quiet (.extract ⟨"guide.md", none⟩)
        "guide_claims.yaml" (.claims set) := makes_of_empty none (by rfl) (by rfl) (by rfl)
    obtain ⟨ending, hrun⟩ := exists_run_of_makes hmakes
    have hwrite (text : String) : fullDisk.files.write "guide_claims.yaml" text =
        ⟨fullDisk.files.putAt ["guide_claims.yaml"] (.file []), some .noSpace⟩ := by rfl
    rw [hwrite] at hrun
    refine ⟨?_, by rfl, ?_⟩
    · rw [exitCode?, hrun]
      rfl
    · rw [filesAfter, hrun]
      rfl
  · obtain ⟨set, hmakes⟩ : ∃ set, withDevice.Makes quiet (.extract ⟨"guide.md", some "/dev/null"⟩)
        "/dev/null" (.claims set) :=
      makes_of_empty (some "/dev/null") (by rfl) (by rfl) (by rfl)
    have hwrite (text : String) : withDevice.files.write "/dev/null" text =
        ⟨withDevice.files, none⟩ := by rfl
    refine ⟨succeeds_of_makes hmakes (by rw [hwrite]), ?_⟩
    obtain ⟨ending, hrun⟩ := exists_run_of_makes hmakes
    rw [filesAfter, hrun, hwrite]

end Session
end DocClaims
