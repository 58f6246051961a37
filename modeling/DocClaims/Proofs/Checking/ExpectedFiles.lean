import DocClaims.Proofs.Checking.Found
import DocClaims.Proofs.Files.Ways
import DocClaims.Proofs.Search.WalkChains
import DocClaims.Proofs.TypePath.Segments

/-!
# Expected files below the module root

The file in which a type is expected is read by a path that is joined to the module root. Where
the steps of the type's name are names of entries, and no link is met, the file lies below the
root, and so does the evidence that it gives. A name whose steps are dots leads out of the root.
-/

namespace DocClaims
namespace Checker

variable {c : Checker} {p : TypePath} {value : String} {line : Nat}

theorem expectedLine?_eq_some_iff :
    c.expectedLine? p = some line ↔ ∃ bytes, c.files.read (c.expectedFile p) = .ok bytes ∧
      (Walk.matchingLines p.marker bytes).head? = some line := by
  rw [expectedLine?, lineWith?]
  cases c.files.read (c.expectedFile p) with
  | error e => simp
  | ok bytes => simp

/-- The path of a type is relative. Its segments name entries exactly if the inner steps of the
type's name do, and then what is read at the path is held below the module root, as is the line
that makes the type found with high confidence. -/
theorem expectedFile_below_modules (h : TypePath.ofName? value = some p) :
    Path.isAbsolute p.relative = false ∧
    ((∀ s ∈ Path.segments p.relative, Path.IsName s) ↔
      ∀ s ∈ (TypePath.steps value).tail.dropLast, Path.IsName s) ∧
    ∀ c : Checker, (∀ s ∈ (TypePath.steps value).tail.dropLast, Path.IsName s) →
      c.files.isDirectory c.root.modules = true →
      c.files.Unlinked c.root.modules (Path.segments p.relative) →
      (∀ bytes, c.files.read (c.expectedFile p) = .ok bytes →
        ∃ found, c.files.Holds c.root.modules (Path.segments p.relative) found ∧
          found.bytes? = some bytes) ∧
      ∀ (category : Category) (check : Check), category.isType →
        c.check ⟨category, value⟩ = .ok check → check.verdict.status = .found →
        check.verdict.confidence = .high →
        ∃ line found bytes, check.verdict.evidence = [⟨p.relative, line⟩] ∧
          c.files.Holds c.root.modules (Path.segments p.relative) found ∧
          found.bytes? = some bytes ∧ line ∈ Walk.matchingLines p.marker bytes := by
  have hrelative := TypePath.not_isAbsolute_relative h
  have hnames := TypePath.forall_isName_iff h
  refine ⟨hrelative, hnames, ?_⟩
  intro c hsteps hroot hlinks
  have hbelow (bytes : Text.Bytes) (hread : c.files.read (c.expectedFile p) = .ok bytes) :
      ∃ found, c.files.Holds c.root.modules (Path.segments p.relative) found ∧
        found.bytes? = some bytes :=
    FileTree.holds_of_read hroot hrelative (hnames.2 hsteps) hlinks hread
  refine ⟨hbelow, ?_⟩
  intro category check htype hcheck hfound hhigh
  obtain ⟨line, hline, hevidence⟩ :=
    (ends_of_check hcheck).exists_expectedLine? htype h hfound hhigh
  obtain ⟨bytes, hread, hhead⟩ := expectedLine?_eq_some_iff.1 hline
  obtain ⟨found, hheld, hbytes⟩ := hbelow bytes hread
  exact ⟨line, found, bytes, hevidence, hheld, hbytes, List.mem_of_head? hhead⟩

/-! ### A file below the root -/

/-- The second line of a file two directories down declares a type, and so does a file at the
root. -/
def market : FileTree :=
  { root := .directory
      [("Baz.php", .file (Text.encode "class Baz")),
        ("module-foo", .directory
          [("Bar", .directory [("Baz.php", .file (Text.encode "<?php\nclass Baz"))])])]
    here := [] }

theorem wellNamed_market : market.root.WellNamed := by
  have hinner : (FileNode.directory
      [("Baz.php", .file (Text.encode "<?php\nclass Baz"))]).WellNamed :=
    .directory (by decide) (by decide) (by simp [FileNode.WellNamed.file])
  have hmodule : (FileNode.directory [("Bar", .directory
      [("Baz.php", .file (Text.encode "<?php\nclass Baz"))])]).WellNamed :=
    .directory (by decide) (by decide) (by simp [hinner])
  refine .directory (by decide) (by decide) ?_
  simp [FileNode.WellNamed.file, hmodule]

def atMarket : Checker := ⟨market, .within ".", .walkOnly market Walk.phpAndXml⟩

def baz : TypePath := ⟨"module-foo/Bar/Baz.php", "Baz"⟩

def onBaz : Claim := ⟨.classes, "Magento\\Foo\\Bar\\Baz"⟩

theorem ofName?_onBaz : TypePath.ofName? onBaz.value = some baz := by decide +kernel

theorem read_market :
    market.read (atMarket.expectedFile baz) = .ok (Text.encode "<?php\nclass Baz") := by rfl

theorem unlinked_market : market.Unlinked "." (Path.segments baz.relative) := by
  have hroot : market.node true "." = .ok market.root := by rfl
  have hfile : market.root.at? (Path.segments baz.relative) =
      some (.file (Text.encode "<?php\nclass Baz")) := by rfl
  intro node hnode
  obtain rfl := Except.ok.inj (hroot.symm.trans hnode)
  exact FileNode.unlinked_of_at? hfile (by simp)

theorem isDirectory_market : market.isDirectory "." = true := by rfl

theorem expectedLine?_market : atMarket.expectedLine? baz = some 2 := by
  apply expectedLine?_eq_some_iff.2
  refine ⟨_, read_market, ?_⟩
  decide +kernel

theorem expectedFile_below_modules_market :
    ∃ check, TypePath.ofName? onBaz.value = some baz ∧
      (∀ s ∈ (TypePath.steps onBaz.value).tail.dropLast, Path.IsName s) ∧
      market.isDirectory "." = true ∧ market.Unlinked "." (Path.segments baz.relative) ∧
      atMarket.check onBaz = .ok check ∧ check.verdict.status = .found ∧
      check.verdict.confidence = .high ∧
      ∃ line found bytes, check.verdict.evidence = [⟨baz.relative, line⟩] ∧
        market.Holds "." (Path.segments baz.relative) found ∧ found.bytes? = some bytes ∧
        line ∈ Walk.matchingLines baz.marker bytes := by
  have hsteps : ∀ s ∈ (TypePath.steps onBaz.value).tail.dropLast, Path.IsName s := by
    decide +kernel
  have hcheck := check_of_expectedLine? (c := atMarket) rfl ofName?_onBaz expectedLine?_market
  obtain ⟨-, -, hbelow⟩ := expectedFile_below_modules ofName?_onBaz
  obtain ⟨-, hevidence⟩ := hbelow atMarket hsteps isDirectory_market unlinked_market
  exact ⟨_, ofName?_onBaz, hsteps, isDirectory_market, unlinked_market, hcheck, rfl, rfl,
    hevidence .classes _ rfl hcheck rfl rfl⟩

/-! ### A file outside the root -/

/-- A shop with an empty module, beside a file that declares a type. -/
def besideShop : FileTree :=
  { root := .directory
      [("X.php", .file (Text.encode "class X")),
        ("shop", .directory [("module-foo", .directory [])])]
    here := [] }

def atShop : Checker := ⟨besideShop, .within "shop", .walkOnly besideShop Walk.phpAndXml⟩

/-- The shop is no file, and none lies below it. -/
theorem not_holdsFile_shop (names : List Text.Bytes) (bytes : Text.Bytes) :
    ¬besideShop.HoldsFile "shop" names bytes := by
  have hshop (follow : Bool) :
      besideShop.node follow "shop" = .ok (.directory [("module-foo", .directory [])]) := by
    cases follow <;> rfl
  intro h
  cases h with
  | itself hitself =>
      rw [hshop] at hitself
      cases hitself
  | below hnode hne hfile =>
      rw [hshop] at hnode
      obtain rfl := Except.ok.inj hnode
      obtain ⟨first, rest, rfl⟩ := List.exists_cons_of_ne_nil hne
      obtain ⟨child, hchild, hrest⟩ := Option.bind_eq_some_iff.1 hfile
      obtain ⟨front, back, hentries, -⟩ := List.lookup_eq_some_iff.1 hchild
      obtain rfl : child = .directory [] := by
        have hmem : (first, child) ∈ [(Text.encode "module-foo", FileNode.directory [])] := by
          rw [hentries]
          simp
        exact (Prod.mk.inj (List.mem_singleton.1 hmem)).2
      cases rest with
      | nil => cases hrest
      | cons => cases hrest

/-- A name with two dots for steps leads out of the shop, which itself holds no file. -/
theorem evidence_outside_shop :
    ∃ p check, TypePath.ofName? "Magento\\Foo\\..\\..\\X" = some p ∧
      Text.encode ".." ∈ Path.segments p.relative ∧
      atShop.check ⟨.classes, "Magento\\Foo\\..\\..\\X"⟩ = .ok check ∧
      check.verdict.status = .found ∧ check.verdict.confidence = .high ∧
      check.verdict.evidence = [⟨"module-foo/../../X.php", 1⟩] ∧
      besideShop.isDirectory "shop" = true ∧
      ¬∃ names bytes, besideShop.HoldsFile "shop" names bytes := by
  have hname : TypePath.ofName? "Magento\\Foo\\..\\..\\X" =
      some ⟨"module-foo/../../X.php", "X"⟩ := by decide +kernel
  have hread : besideShop.read (atShop.expectedFile ⟨"module-foo/../../X.php", "X"⟩) =
      .ok (Text.encode "class X") := by rfl
  have hline : atShop.expectedLine? ⟨"module-foo/../../X.php", "X"⟩ = some 1 :=
    expectedLine?_eq_some_iff.2 ⟨_, hread, by decide +kernel⟩
  refine ⟨_, _, hname, by decide +kernel, check_of_expectedLine? rfl hname hline, rfl, rfl, rfl,
    by rfl, ?_⟩
  rintro ⟨names, bytes, hholds⟩
  exact not_holdsFile_shop names bytes hholds

end Checker
end DocClaims
