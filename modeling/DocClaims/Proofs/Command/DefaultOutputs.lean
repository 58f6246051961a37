import DocClaims.Proofs.Command.Runs
import DocClaims.Proofs.Files.Rewriting
import DocClaims.Proofs.OutputPath

/-!
# Runs without an output path of their own

A run that is not told where to write stands its output beside its input, under another name. It
leaves the input as it was unless a symbolic link makes both names lead to one file. The claims
of a document and the report on them go to different files.
-/

namespace DocClaims

open Text (Bytes)

/-- The command is about the file at `input` and is not told where to write. -/
def Command.TakesDefault (input : Bytes) : Command → Prop
  | .extract r => r.document = input ∧ r.output = none
  | .validate r => r.claims = input ∧ r.output = none
  | .init _ => False

theorem isSuffix_claims : IsSuffix "_claims" := ⟨by decide, by simp, by simp⟩

theorem isSuffix_validation : IsSuffix "_validation" := ⟨by decide, by simp, by simp⟩

theorem Format.slash_not_mem_extension (format : Format) : '/' ∉ format.extension.toList := by
  cases format <;> simp [extension]

theorem ClaimDocument.write_ne_empty (doc : ClaimDocument) : doc.write ≠ "" := by
  rw [write, toDatum, Yaml.write, Yaml.entries, Yaml.entry]
  simp

namespace Session

variable {s s' : Session} {common common' : CommonOptions} {command : Command}
  {input name path claims report : Bytes} {product product' : Product}

theorem exists_path_of_makes_validate {r : ValidateRequest}
    (h : s.Makes common (.validate r) path product) (hdefault : r.output = none) :
    ∃ format : Format, path = defaultOutput r.claims "_validation" format.extension := by
  cases h with
  | @report _ _ format => exact ⟨format, by rw [hdefault, Option.getD_none]⟩

/-- What is made by default is written beside the input, which is a file. -/
theorem beside_of_makes (hname : Path.fileName? input = some name)
    (h : s.Makes common command path product) (hdefault : command.TakesDefault input) :
    Path.Beside input path ∧ s.files.isFile input = true := by
  cases h with
  | claims _ hfile =>
      obtain ⟨rfl, houtput⟩ := hdefault
      rw [houtput, Option.getD_none]
      exact ⟨beside_defaultOutput isSuffix_claims hname (by simp), hfile⟩
  | @report _ _ format _ _ _ _ _ _ hfile =>
      obtain ⟨rfl, houtput⟩ := hdefault
      rw [houtput, Option.getD_none]
      exact ⟨beside_defaultOutput isSuffix_validation hname format.slash_not_mem_extension, hfile⟩

/-- A run leaves its input as it was, unless its output is the same file by a link. -/
theorem read_input_eq_or_sameByLink (common : CommonOptions)
    (hname : Path.fileName? input = some name) (hdefault : command.TakesDefault input) :
    (s.filesAfter (.perform common command)).read input = s.files.read input ∨
      ∃ path product, s.Makes common command path product ∧ s.files.SameByLink input path := by
  have hinit : ∀ r, command ≠ .init r := by
    rintro r rfl
    exact hdefault
  have hwritten {path : Bytes} {product : Product} {changed : FileTree.Changed}
      (hmakes : s.Makes common command path product)
      (hwrite : s.files.write path product.text = changed) :
      changed.files.read input = s.files.read input ∨
        ∃ path product, s.Makes common command path product ∧ s.files.SameByLink input path := by
    obtain ⟨hbeside, hfile⟩ := beside_of_makes hname hmakes hdefault
    refine ((FileTree.writes_of_write hwrite).read_eq_or_sameByLink hbeside hfile).imp_right ?_
    exact fun hsame => ⟨path, product, hmakes, hsame⟩
  have hleaves := leaves_run s common hinit
  rw [filesAfter]
  generalize (s.run (.perform common command)).1 = result at hleaves
  generalize (s.run (.perform common command)).2 = after at hleaves ⊢
  cases hleaves with
  | stopped => exact .inl rfl
  | brokenOff hmakes hwrite => exact hwritten hmakes hwrite
  | written hmakes hwrite => exact hwritten hmakes hwrite

/-- The report on a document, or on the claims that were extracted from it, goes to another path
than these claims and the document. -/
theorem components_report_ne (hname : Path.fileName? input = some name) {r : ValidateRequest}
    (hclaims : s.Makes common (.extract ⟨input, none⟩) claims product)
    (hreport : s'.Makes common' (.validate r) report product') (hdefault : r.output = none)
    (hr : r.claims = input ∨ r.claims = claims) :
    Path.components report ≠ Path.components claims ∧
      Path.components report ≠ Path.components input := by
  have hslash : '/' ∉ "yaml".toList := by simp
  obtain ⟨format, rfl⟩ := exists_path_of_makes_validate hreport hdefault
  obtain rfl := path_of_makes_extract hclaims
  have hextension := format.slash_not_mem_extension
  rw [Option.getD_none] at hr ⊢
  rcases hr with hr | hr
  · rw [hr]
    exact ⟨components_defaultOutput_ne_of_suffix isSuffix_validation hname hextension
      isSuffix_claims hslash (by decide),
      components_defaultOutput_ne isSuffix_validation hname hextension⟩
  · rw [hr]
    have hnext := fileName?_defaultOutput isSuffix_claims hname hslash
    refine ⟨components_defaultOutput_ne isSuffix_validation hnext hextension, ?_⟩
    rw [defaultOutput_defaultOutput isSuffix_claims hname hslash (by simp)]
    exact components_defaultOutput_ne (isSuffix_claims.append isSuffix_validation) hname hextension

/-- A default output stands in the directory of the input, with a name that is made of the stem
of the input's name and is not that name. A run that writes there leaves its input as it was,
unless one of the two names is a symbolic link by which both lead to the same file; and the
claims of a document and the report on them have different paths. -/
theorem defaultOutput_beside_input {suffix extension : String}
    (hname : Path.fileName? input = some name) (hsuffix : IsSuffix suffix)
    (hextension : '/' ∉ extension.toList) :
    (∃ dir, Path.parent? input = some dir ∧
      Path.parent? (defaultOutput input suffix extension) = some dir) ∧
    (∃ stem, Path.IsStem name stem ∧
      Path.fileName? (defaultOutput input suffix extension) =
        some (Text.encode (Text.lossy stem ++ suffix ++ "." ++ extension))) ∧
    Path.components (defaultOutput input suffix extension) ≠ Path.components input ∧
    (∀ (s : Session) common command, command.TakesDefault input →
      (s.filesAfter (.perform common command)).read input = s.files.read input ∨
        ∃ path product, s.Makes common command path product ∧
          s.files.SameByLink input path) ∧
    ∀ (s s' : Session) common common' claims report product product' (r : ValidateRequest),
      s.Makes common (.extract ⟨input, none⟩) claims product →
      s'.Makes common' (.validate r) report product' →
      r.output = none → r.claims = input ∨ r.claims = claims →
      Path.components report ≠ Path.components claims ∧
        Path.components report ≠ Path.components input := by
  refine ⟨exists_parent?_defaultOutput hsuffix hname hextension,
    ⟨Path.stem name, Path.isStem_stem name, ?_⟩,
    components_defaultOutput_ne hsuffix hname hextension, ?_, ?_⟩
  · exact fileName?_defaultOutput hsuffix hname hextension
  · intro s common command
    exact read_input_eq_or_sameByLink common hname
  · intro s s' common common' claims report product product' r
    exact components_report_ne hname

theorem fileName?_guide : Path.fileName? "guide.md" = some (Text.encode "guide.md") := by
  decide +kernel

/-- Where no link stands, the document is still empty behind the run that wrote its claims. -/
theorem defaultOutput_beside_input_emptyDocument :
    Path.fileName? "guide.md" = some (Text.encode "guide.md") ∧ IsSuffix "_claims" ∧
      '/' ∉ "yaml".toList ∧
      emptyDocument.Succeeds (.perform quiet (.extract ⟨"guide.md", none⟩)) ∧
      (emptyDocument.filesAfter (.perform quiet (.extract ⟨"guide.md", none⟩))).read "guide.md" =
        .ok [] := by
  have hslash : '/' ∉ "yaml".toList := by simp
  obtain ⟨set, hmakes⟩ := makes_emptyDocument
  refine ⟨fileName?_guide, isSuffix_claims, hslash, succeeds_of_makes hmakes rfl, ?_⟩
  obtain ⟨-, -, -, hruns, -⟩ := defaultOutput_beside_input fileName?_guide isSuffix_claims hslash
  rcases hruns emptyDocument quiet (.extract ⟨"guide.md", none⟩) ⟨rfl, rfl⟩ with
    hread | ⟨path, product, hpath, hsame⟩
  · rw [hread]
    rfl
  · obtain rfl := path_of_makes_extract hpath
    have hresolve := hsame.resolve_eq
    have hguide : emptyDocument.files.resolve true "guide.md" = .ok [Text.encode "guide.md"] := by
      rfl
    have hclaims : emptyDocument.files.resolve true "guide_claims.yaml" = .error .notFound := by
      rfl
    rw [Option.getD_none, defaultOutput_guide, hclaims, hguide] at hresolve
    cases hresolve

/-- The claims of the empty document were to be written to a link to the document. -/
def linkedOutput : Session :=
  alone [("guide.md", .file []), ("guide_claims.yaml", .link "guide.md")] .none

/-- Files whose names begin with different bytes that are no text share one default output, in
whose name neither of the bytes stands; and an output that is a link to the input is written over
the input. -/
theorem defaultOutput_overwrites_linkedOutput :
    (defaultOutput (0xFE :: Text.encode ".html") "_claims" "yaml" =
        defaultOutput (0xFF :: Text.encode ".html") "_claims" "yaml" ∧
      Path.fileName? (0xFF :: Text.encode ".html") = some (0xFF :: Text.encode ".html") ∧
      Path.stem (0xFF :: Text.encode ".html") = [0xFF] ∧
      Path.fileName? (defaultOutput (0xFF :: Text.encode ".html") "_claims" "yaml") ≠
        some (0xFF :: Text.encode "_claims.yaml")) ∧
    Path.fileName? "guide.md" = some (Text.encode "guide.md") ∧
      (Command.extract ⟨"guide.md", none⟩).TakesDefault "guide.md" ∧
      (linkedOutput.filesAfter (.perform quiet (.extract ⟨"guide.md", none⟩))).read "guide.md" ≠
        linkedOutput.files.read "guide.md" := by
  refine ⟨by decide +kernel, fileName?_guide, ⟨rfl, rfl⟩, ?_⟩
  obtain ⟨set, hmakes⟩ : ∃ set, linkedOutput.Makes quiet (.extract ⟨"guide.md", none⟩)
      "guide_claims.yaml" (.claims set) := makes_of_empty none (by rfl) (by rfl) (by rfl)
  obtain ⟨ending, hrun⟩ := exists_run_of_makes hmakes
  have hwrite (text : String) : linkedOutput.files.write "guide_claims.yaml" text =
      ⟨linkedOutput.files.putAt ["guide.md"] (.file (Text.encode text)), none⟩ := by rfl
  have hread (text : String) :
      (linkedOutput.files.putAt ["guide.md"] (.file (Text.encode text))).read "guide.md" =
        .ok (Text.encode text) := by rfl
  have hempty : linkedOutput.files.read "guide.md" = .ok [] := by rfl
  rw [filesAfter, hrun, hwrite, hread, hempty, ne_eq, Except.ok.injEq, Text.encode_eq_nil]
  exact (ClaimDocument.ofSet set).write_ne_empty

end Session
end DocClaims
