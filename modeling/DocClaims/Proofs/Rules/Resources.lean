import DocClaims.Proofs.Pattern.Readings
import DocClaims.Proofs.Rules

/-!
# Resources and file paths

A resource of an access list is named by its module and by a name in small letters, with two
colons between them. A file path goes from the name of a folder to the end of the name of a
file of one of two kinds. Both are read wherever they begin, in the middle of words too.
-/

namespace DocClaims

open Reading

variable {cs s rest : List Char}

/-- The marker, the longest run of letters, two colons, and the longest run of small letters
and underscores. -/
def aclResource? : List Char → Option (List Char) :=
  row? (word? "Magento_".toList) (row? (run? Text.isAsciiLetter)
    (row? (word? "::".toList) (run? Rule.isSnakeChar)))

/-- Letters, digits, underscores and slashes. -/
def isFileChar (c : Char) : Bool := Text.isAsciiWordChar c || c == '/'

/-- The folders that file paths begin in. -/
def fileFolders : List String :=
  ["etc", "Model", "Block", "Controller", "Helper", "Observer", "Plugin"]

/-- What the names of files end with, behind a dot. -/
def fileKinds : List String := ["xml", "php"]

/-- A folder, a slash, the longest run of the characters of paths, and the ending. -/
def filePath? : List Char → Option (List Char) :=
  row? (oneOf? fileFolders) (row? (word? "/".toList) (row? (run? isFileChar)
    (row? (word? ".".toList) (oneOf? fileKinds))))

theorem begins_aclResource? : Begins aclResource? :=
  begins_row? (begins_word? _) (begins_row? (begins_run? _)
    (begins_row? (begins_word? _) (begins_run? _)))

theorem begins_filePath? : Begins filePath? :=
  begins_row? (begins_oneOf? _) (begins_row? (begins_word? _) (begins_row? (begins_run? _)
    (begins_row? (begins_word? _) (begins_oneOf? _))))

theorem aclResource?_append_eq_some_iff : aclResource? (s ++ rest) = some s ↔
    ∃ module resource, s = "Magento_".toList ++ (module ++ ("::".toList ++ resource)) ∧
      (module ≠ [] ∧ ∀ c ∈ module, Text.isAsciiLetter c) ∧
      resource ≠ [] ∧ (∀ c ∈ resource, Rule.isSnakeChar c) ∧
        ∀ c ∈ rest.head?, Rule.isSnakeChar c = false := by
  simp only [aclResource?, row?_append_eq_some_iff, word?_append_eq_some_iff,
    run?_append_eq_some_iff]
  constructor
  · rintro ⟨_, _, rfl, rfl, module, _, rfl, ⟨hmodule, hletters, -⟩, _, resource, rfl, rfl, hlast⟩
    exact ⟨module, resource, rfl, ⟨hmodule, hletters⟩, hlast⟩
  · rintro ⟨module, resource, rfl, ⟨hmodule, hletters⟩, hlast⟩
    have hcolons : ∀ c ∈ ("::".toList ++ resource ++ rest).head?, Text.isAsciiLetter c = false := by
      rintro _ ⟨⟩
      decide
    exact ⟨_, _, rfl, rfl, module, _, rfl, ⟨hmodule, hletters, hcolons⟩, _, resource, rfl, rfl, hlast⟩

theorem filePath?_append_eq_some_iff : filePath? (s ++ rest) = some s ↔
    ∃ folder ∈ fileFolders, ∃ path, ∃ kind ∈ fileKinds,
      s = folder.toList ++ ("/".toList ++ (path ++ (".".toList ++ kind.toList))) ∧
        path ≠ [] ∧ ∀ c ∈ path, isFileChar c := by
  have hfolders : ∀ v ∈ fileFolders, ∀ w ∈ fileFolders, v.toList <+: w.toList → v = w := by decide
  have hkinds : ∀ v ∈ fileKinds, ∀ w ∈ fileKinds, v.toList <+: w.toList → v = w := by decide
  simp only [filePath?, row?_append_eq_some_iff, word?_append_eq_some_iff,
    oneOf?_append_eq_some_iff hfolders, oneOf?_append_eq_some_iff hkinds, run?_append_eq_some_iff]
  constructor
  · rintro ⟨_, _, rfl, ⟨folder, hfolder, rfl⟩, _, _, rfl, rfl, path, _, rfl, ⟨hne, hpath, -⟩, _, _,
      rfl, rfl, kind, hkind, rfl⟩
    exact ⟨folder, hfolder, path, kind, hkind, rfl, hne, hpath⟩
  · rintro ⟨folder, hfolder, path, kind, hkind, rfl, hne, hpath⟩
    have hdot : ∀ c ∈ (".".toList ++ kind.toList ++ rest).head?, isFileChar c = false := by
      rintro _ ⟨⟩
      decide
    exact ⟨_, _, rfl, ⟨folder, hfolder, rfl⟩, _, _, rfl, rfl, path, _, rfl, ⟨hne, hpath, hdot⟩, _, _,
      rfl, rfl, kind, hkind, rfl⟩

namespace Reader

def aclResource : Reader where
  read? _ := aclResource?
  begins := begins_aclResource?
  ne_nil := by
    intro before cs s h
    obtain ⟨rest, rfl⟩ := begins_aclResource? h
    obtain ⟨module, resource, rfl, -⟩ := aclResource?_append_eq_some_iff.1 h
    exact List.cons_ne_nil _ _

def filePath : Reader where
  read? _ := filePath?
  begins := begins_filePath?
  ne_nil := by
    intro before cs s h
    obtain ⟨rest, rfl⟩ := begins_filePath? h
    obtain ⟨folder, -, path, kind, -, rfl, -⟩ := filePath?_append_eq_some_iff.1 h
    simp

theorem readsAlone_aclResource : aclResource.ReadsAlone := by
  intro before cs s h
  obtain ⟨rest, rfl⟩ := begins_aclResource? h
  obtain ⟨module, resource, hs, hmodule, hresource, hsnake, -⟩ :=
    aclResource?_append_eq_some_iff.1 h
  have halone : aclResource? (s ++ []) = some s := aclResource?_append_eq_some_iff.2
    ⟨module, resource, hs, hmodule, hresource, hsnake, by simp⟩
  rwa [List.append_nil] at halone

theorem readsAlone_filePath : filePath.ReadsAlone := by
  intro before cs s h
  obtain ⟨rest, rfl⟩ := begins_filePath? h
  have halone : filePath? (s ++ []) = some s :=
    filePath?_append_eq_some_iff.2 (filePath?_append_eq_some_iff.1 h)
  rwa [List.append_nil] at halone

end Reader

namespace Rule

open Pattern CharSet

theorem has_letterSet (c : Char) : letterSet.has c = Text.isAsciiLetter c := by
  simp [letterSet, has, Item.has, Text.isAsciiLetter, Text.isAsciiLower, Text.isAsciiUpper,
    Bool.or_comm]

theorem readBy_aclResource : aclResource.pattern.ReadBy Reader.aclResource := by
  refine ReadBy.of_takes (fun next htotal => ?_) fun _ => rfl
  have hresource : (run 1 lowerUnderSet).Takes (run? isSnakeChar) none next :=
    takes_run has_lowerUnderSet (.inr fun cur => htotal cur none)
  have hbehind := (takes_literal "::").append hresource
  have hcolons : Refuses (fun cur =>
      (literal "::" ++ run 1 lowerUnderSet).matchThen cur none next) letterSet := by
    apply hbehind.refuses
    intro c rest hc
    apply row?_word?_of_ne
    rintro rfl
    exact absurd hc (by decide)
  have hmodule : (run 1 letterSet).Takes (run? Text.isAsciiLetter) none fun cur value =>
      (literal "::" ++ run 1 lowerUnderSet).matchThen cur value next :=
    takes_run has_letterSet (.inl hcolons.between)
  exact (takes_literal "Magento_").append (hmodule.append hbehind)

def folderPattern : Pattern :=
  either (literal "etc") (either (literal "Model") (either (literal "Block")
    (either (literal "Controller") (either (literal "Helper") (either (literal "Observer")
      (literal "Plugin"))))))

def kindPattern : Pattern := either (literal "xml") (literal "php")

def fileSet : CharSet :=
  oneOf [.range 'A' 'Z', .range 'a' 'z', .range '0' '9', .one '_', .one '/']

theorem has_fileSet (c : Char) : fileSet.has c = isFileChar c := by
  simp only [fileSet, has, Item.has, isFileChar, Text.isAsciiWordChar, Text.isAsciiLetter,
    Text.isAsciiLower, Text.isAsciiUpper, Text.isAsciiDigit, List.any_cons, List.any_nil,
    Bool.or_false]
  rw [← Bool.or_assoc, Bool.or_comm ('A' ≤ c && c ≤ 'Z'), ← Bool.or_assoc, ← Bool.or_assoc]

variable {b a : Option Char} {s : List Char} {m m' : Option (List Char)}

theorem fits_folderPattern_iff : folderPattern.Fits b s a m m' ↔
    ∃ folder ∈ fileFolders, (literal folder).Fits b s a m m' := by
  simp only [fileFolders, List.mem_cons, List.not_mem_nil, or_false, exists_eq_or_imp,
    exists_eq_left]
  rfl

theorem fits_kindPattern_iff : kindPattern.Fits b s a m m' ↔
    ∃ kind ∈ fileKinds, (literal kind).Fits b s a m m' := by
  simp only [fileKinds, List.mem_cons, List.not_mem_nil, or_false, exists_eq_or_imp,
    exists_eq_left]
  rfl

theorem readBy_filePath : filePath.pattern.ReadBy Reader.filePath := by
  apply ReadBy.of_fits
  · intro b s rest h
    obtain ⟨folder, hfolder, path, kind, hkind, rfl, hne, hpath⟩ :=
      filePath?_append_eq_some_iff.1 h
    have hrun : ∀ c ∈ path, fileSet.has c := by simpa only [has_fileSet] using hpath
    refine ⟨none, folder.toList, _, none, rfl, fits_folderPattern_iff.2 ⟨folder, hfolder, rfl, rfl⟩,
      "/".toList, _, none, rfl, ⟨rfl, rfl⟩, path, _, none, rfl,
      ⟨⟨List.length_pos_iff.2 hne, hrun⟩, rfl⟩, ".".toList, kind.toList, none, rfl, ⟨rfl, rfl⟩, ?_⟩
    exact fits_kindPattern_iff.2 ⟨kind, hkind, rfl, rfl⟩
  · rintro b s rest mark ⟨_, _, _, rfl, hfirst, _, _, _, rfl, ⟨rfl, rfl⟩, path, _, _, rfl,
      ⟨⟨hlength, hrun⟩, rfl⟩, _, _, _, rfl, ⟨rfl, rfl⟩, hlast⟩
    obtain ⟨folder, hfolder, rfl, rfl⟩ := fits_folderPattern_iff.1 hfirst
    obtain ⟨kind, hkind, rfl, rfl⟩ := fits_kindPattern_iff.1 hlast
    have hpath : ∀ c ∈ path, isFileChar c := by
      intro c hc
      rw [← has_fileSet]
      exact hrun c hc
    exact ⟨filePath?_append_eq_some_iff.2
      ⟨folder, hfolder, path, kind, hkind, rfl, List.length_pos_iff.1 hlength, hpath⟩, rfl⟩

end Rule
end DocClaims
