import DocClaims.Proofs.Rules.Resources

/-!
# Scans for resources and file paths

What two of the rules claim, told without a pattern: the text is gone through from left to
right, what is sought is taken at the first place where it stands, and the search goes on behind
it. Everything that is taken is claimed.
-/

namespace DocClaims

open Reading

/-! ### Taking from left to right -/

section

/-- What is sought stands at the place; it may depend on what follows. -/
def StandsAt (sought : List Char → List Char → Prop) (text : List Char) (i : Nat) (s : List Char) :
    Prop :=
  ∃ rest, text.drop i = s ++ rest ∧ sought s rest

/-- What is taken from the place on: first what stands foremost, and then from its end on. -/
inductive TakenFrom (sought : List Char → List Char → Prop) (text : List Char) :
    Nat → List Stretch → Prop
  | stop {i : Nat} (hnone : ∀ j s, i ≤ j → ¬StandsAt sought text j s) : TakenFrom sought text i []
  | take {i : Nat} {first : Stretch} {later : List Stretch} (hle : i ≤ first.start)
      (hstands : StandsAt sought text first.start first.chars)
      (hfirst : ∀ j s, i ≤ j → j < first.start → ¬StandsAt sought text j s)
      (hlater : TakenFrom sought text first.finish later) : TakenFrom sought text i (first :: later)

variable {sought : List Char → List Char → Prop} {reader : Reader} {text s : List Char} {i : Nat}
  {found : List Stretch}

theorem TakenFrom.of_succ (hnone : ∀ s, ¬StandsAt sought text i s)
    (h : TakenFrom sought text (i + 1) found) : TakenFrom sought text i found := by
  cases h with
  | stop hlater =>
      apply TakenFrom.stop
      intro j s hij
      rcases Nat.eq_or_lt_of_le hij with rfl | hlt
      · exact hnone s
      · exact hlater j s hlt
  | take hle hstands hfirst hlater =>
      apply TakenFrom.take (Nat.le_of_succ_le hle) hstands _ hlater
      intro j s hij hj
      rcases Nat.eq_or_lt_of_le hij with rfl | hlt
      · exact hnone s
      · exact hfirst j s hlt hj

variable (hread : ∀ {before s rest}, reader.read? before (s ++ rest) = some s ↔ sought s rest)
include hread

theorem at?_eq_some_iff_standsAt : reader.at? text i = some s ↔ StandsAt sought text i s := by
  constructor
  · intro h
    have hdrop := Reader.drop_of_at? h
    rw [Reader.at?, hdrop] at h
    exact ⟨_, hdrop, hread.1 h⟩
  · rintro ⟨rest, hdrop, hsought⟩
    rw [Reader.at?, hdrop]
    exact hread.2 hsought

theorem at?_eq_none_iff_standsAt :
    reader.at? text i = none ↔ ∀ s, ¬StandsAt sought text i s := by
  rw [Option.eq_none_iff_forall_ne_some]
  exact forall_congr' fun s => not_congr (at?_eq_some_iff_standsAt hread)

/-- When a reader reads what is sought, then what is taken is what a scan finds. -/
theorem takenFrom_iff : TakenFrom sought text i found ↔ found = reader.scanFrom text i := by
  constructor
  · intro h
    induction h with
    | @stop i hnone =>
        have hnothing : ∀ k, i ≤ k → k < max i text.length → reader.at? text k = none :=
          fun k hik _ => (at?_eq_none_iff_standsAt hread).2 (hnone k · hik)
        rw [Reader.scanFrom_of_forall_at? (Nat.le_max_left _ _) hnothing,
          Reader.scanFrom_of_length_le (Nat.le_max_right _ _)]
    | take hle hstands hfirst _ ih =>
        have hbefore := fun k hik hk => (at?_eq_none_iff_standsAt hread).2 (hfirst k · hik hk)
        rw [Reader.scanFrom_of_forall_at? hle hbefore,
          Reader.scanFrom_of_at?_eq_some ((at?_eq_some_iff_standsAt hread).2 hstands), ih]
        rfl
  · rintro rfl
    induction i using reader.scan_induction text with
    | read i s hs ih =>
        rw [Reader.scanFrom_of_at?_eq_some hs]
        apply TakenFrom.take (Nat.le_refl i) ((at?_eq_some_iff_standsAt hread).1 hs) _ ih
        intro j t hij hj
        exact absurd hj (Nat.not_lt.2 hij)
    | skip i _ hs ih =>
        rw [Reader.scanFrom_of_at?_eq_none hs]
        exact ih.of_succ ((at?_eq_none_iff_standsAt hread).1 hs)
    | stop i hlength =>
        rw [Reader.scanFrom_of_length_le hlength]
        apply TakenFrom.stop
        intro j s hij hstands
        have hlt := Reader.lt_of_at? ((at?_eq_some_iff_standsAt hread).2 hstands)
        omega

/-- A rule that accepts every value claims what is taken, and nothing else can be taken. -/
theorem Rule.claims_eq_taken {rule : Rule} {category : Category}
    (hreader : rule.pattern.ReadBy reader) (haccept : ∀ value, rule.accept value = some category)
    (text : String) :
    ∃ found, TakenFrom sought text.toList 0 found ∧
      (∀ other, TakenFrom sought text.toList 0 other → other = found) ∧
      rule.claims text = found.map fun taken => ⟨category, String.ofList taken.chars⟩ := by
  refine ⟨reader.scan text.toList, (takenFrom_iff hread).2 rfl,
    fun other => (takenFrom_iff hread).1, ?_⟩
  rw [Rule.claims, hreader.values_eq, List.filterMap_map]
  simp only [Function.comp_def, haccept, Option.map_some]
  exact congrFun List.filterMap_eq_map' _

end

/-! ### What is sought -/

/-- A longest run of the class, at least one character long, with `rest` behind it. -/
structure IsRun (member : Char → Bool) (s rest : List Char) : Prop where
  ne_nil : s ≠ []
  isMember : ∀ c ∈ s, member c
  ends : ∀ c ∈ rest.head?, member c = false

/-- The marker, the letters of a module, two colons and the name of a resource. -/
def IsResource (s rest : List Char) : Prop :=
  ∃ module resource, s = "Magento_".toList ++ (module ++ ("::".toList ++ resource)) ∧
    IsRun Text.isAsciiLetter module ("::".toList ++ resource ++ rest) ∧
    IsRun Rule.isSnakeChar resource rest

/-- A folder, a slash, the characters of a path, a dot and what the name of a file ends with. -/
def IsFilePath (s rest : List Char) : Prop :=
  ∃ folder ∈ fileFolders, ∃ path, ∃ kind ∈ fileKinds,
    s = folder.toList ++ ("/".toList ++ (path ++ (".".toList ++ kind.toList))) ∧
      IsRun isFileChar path (".".toList ++ kind.toList ++ rest)

variable {s rest : List Char}

theorem aclResource?_eq_some_iff_isResource :
    aclResource? (s ++ rest) = some s ↔ IsResource s rest := by
  rw [aclResource?_append_eq_some_iff]
  constructor
  · rintro ⟨module, resource, hs, ⟨hmodule, hletters⟩, hresource, hsnake, hends⟩
    refine ⟨module, resource, hs, ⟨hmodule, hletters, ?_⟩, ⟨hresource, hsnake, hends⟩⟩
    rintro _ ⟨⟩
    decide
  · rintro ⟨module, resource, hs, hmodule, hresource⟩
    exact ⟨module, resource, hs, ⟨hmodule.ne_nil, hmodule.isMember⟩, hresource.ne_nil,
      hresource.isMember, hresource.ends⟩

theorem filePath?_eq_some_iff_isFilePath :
    filePath? (s ++ rest) = some s ↔ IsFilePath s rest := by
  rw [filePath?_append_eq_some_iff]
  constructor
  · rintro ⟨folder, hfolder, path, kind, hkind, hs, hpath, hmember⟩
    refine ⟨folder, hfolder, path, kind, hkind, hs, ⟨hpath, hmember, ?_⟩⟩
    rintro _ ⟨⟩
    decide
  · rintro ⟨folder, hfolder, path, kind, hkind, hs, hpath⟩
    exact ⟨folder, hfolder, path, kind, hkind, hs, hpath.ne_nil, hpath.isMember⟩

namespace Rule

/-- The claims of the rules for resources and for file paths are what is taken of a text from
left to right, in this order and without a gap. -/
theorem claims_resources_and_files (text : String) :
    (∃ found, TakenFrom IsResource text.toList 0 found ∧
      (∀ other, TakenFrom IsResource text.toList 0 other → other = found) ∧
      aclResource.claims text =
        found.map fun taken => ⟨.aclResources, String.ofList taken.chars⟩) ∧
    ∃ found, TakenFrom IsFilePath text.toList 0 found ∧
      (∀ other, TakenFrom IsFilePath text.toList 0 other → other = found) ∧
      filePath.claims text = found.map fun taken => ⟨.filePaths, String.ofList taken.chars⟩ :=
  ⟨claims_eq_taken aclResource?_eq_some_iff_isResource readBy_aclResource (fun _ => rfl) text,
    claims_eq_taken filePath?_eq_some_iff_isFilePath readBy_filePath (fun _ => rfl) text⟩

/-- A folder is found inside of a word, and again only behind the ending that is found first. -/
example : filePath.claims "BaseModel/etc/di.xml.php/etc/x.phpt" =
    [⟨.filePaths, "Model/etc/di.xml"⟩, ⟨.filePaths, "etc/x.php"⟩] := by cbv

end Rule
end DocClaims
