import DocClaims.Proofs.Rules.Separators

/-!
# Addresses

An address is a longest run of characters that are not blank, with a scheme, a colon and two
slashes at its beginning. The rule for configuration paths passes over what begins like a
scheme; but a colon stands behind the scheme of an address, and no slash, so that no path is
read there. The paths behind the scheme are claimed as if the address stood alone.
-/

namespace DocClaims

def addressSchemes : List String := ["http", "https"]

structure Stretch.IsAddressOf (address : Stretch) (text : List Char) : Prop where
  chars : text.drop address.start = address.chars ++ text.drop address.finish
  scheme : ∃ scheme ∈ addressSchemes, (scheme ++ "://").toList <+: address.chars
  unbroken : ∀ c ∈ address.chars, Text.isBlank c = false
  before : ∀ c ∈ (text.take address.start).getLast?, Text.isBlank c
  behind : ∀ c ∈ (text.drop address.finish).head?, Text.isBlank c

/-- The configuration paths claimed in the text, with their places. -/
def configPathsIn (text : List Char) : List Stretch :=
  (Reader.configPath.scan text).filter fun path => ¬"http".toList <+: path.chars

/-! ### Blanks -/

/-- The blanks that are not ASCII characters. -/
def wideBlanks : List Nat :=
  [0x85, 0xA0, 0x1680, 0x2028, 0x2029, 0x202F, 0x205F, 0x3000] ++ List.range' 0x2000 11

theorem not_inRanges_of_wideBlank :
    ∀ n ∈ wideBlanks, Text.inRanges n Text.wordRanges = false := by
  decide +kernel

theorem isWordChar_of_isBlank {c : Char} (h : Text.isBlank c) : Text.isWordChar c = false := by
  simp only [Text.isBlank, Bool.or_eq_true, Bool.and_eq_true, decide_eq_true_eq, beq_iff_eq] at h
  by_cases hascii : c.toNat < 128
  · rw [Text.isWordChar, if_pos hascii, Bool.eq_false_iff]
    intro hword
    have hvisible := Rule.visible_of_isAsciiWordChar hword
    omega
  · rw [Text.isWordChar, if_neg hascii]
    apply not_inRanges_of_wideBlank
    simp only [wideBlanks, List.mem_append, List.mem_cons, List.not_mem_nil, List.mem_range'_1]
    omega

/-! ### Schemes -/

theorem configPath?_cons_eq_none {before : Option Char} {c : Char} (h : Text.isAsciiLower c = false)
    (rest : List Char) : configPath? before (c :: rest) = none := by
  have hstem : Reading.run? Text.isAsciiLower (c :: rest) = none := by
    simp [Reading.run?, h]
  have hshort : shortPath? (c :: rest) = none := by
    rw [shortPath?, Reading.row?, hstem, Option.bind_none]
  have hlong : longPath? (c :: rest) = none := by
    rw [longPath?, Reading.row?, hshort, Option.bind_none]
  simp [configPath?, hlong, hshort]

theorem at?_configPath_eq_none {text : List Char} {i : Nat}
    (h : ∀ c ∈ (text.drop i).head?, Text.isAsciiLower c = false) :
    Reader.configPath.at? text i = none := by
  cases hrest : text.drop i with
  | nil =>
      apply Reader.at?_of_length_le
      exact List.drop_eq_nil_iff.1 hrest
  | cons c rest =>
      rw [Reader.at?, hrest]
      apply configPath?_cons_eq_none
      apply h
      rw [hrest, List.head?_cons, Option.mem_some]

/-- No path is read before the two slashes behind the scheme are passed. -/
theorem at?_scheme {scheme rest : List Char} {i : Nat} (hscheme : '/' ∉ scheme)
    (hi : i < scheme.length + "://".length) :
    Reader.configPath.at? (scheme ++ ':' :: '/' :: '/' :: rest) i = none := by
  have hparts : Reader.configPath.Parts scheme (':' :: '/' :: '/' :: rest) :=
    (Reader.stopsAt_configPath (by decide) (by decide)).parts_cons scheme _
  by_cases hinside : i < scheme.length
  · rw [hparts.first i hinside]
    cases hread : Reader.configPath.at? scheme i with
    | none => rfl
    | some s =>
        have hslash : '/' ∈ s := slash_mem_of_configPath? hread
        have hmem : '/' ∈ scheme := by
          apply List.mem_of_mem_drop
          rw [Reader.drop_of_at? hread]
          exact List.mem_append_left _ hslash
        exact absurd hmem hscheme
  · obtain ⟨j, rfl⟩ := Nat.exists_eq_add_of_le (Nat.le_of_not_lt hinside)
    rw [hparts.second]
    have hj : j < 3 := Nat.lt_of_add_lt_add_left hi
    apply at?_configPath_eq_none
    match j with
    | 0 | 1 | 2 =>
        rintro _ ⟨⟩
        decide

theorem slash_not_mem_of_scheme : ∀ scheme ∈ addressSchemes, '/' ∉ scheme.toList := by decide

/-! ### Addresses in a text -/

section

variable {address path : Stretch} {text : List Char}

/-- A text may be an address as a whole. -/
theorem Stretch.isAddressOf_whole {scheme : String} (hscheme : scheme ∈ addressSchemes)
    (hbegins : (scheme ++ "://").toList <+: text)
    (hunbroken : ∀ c ∈ text, Text.isBlank c = false) : IsAddressOf ⟨0, text⟩ text where
  chars := by simp [Stretch.finish]
  scheme := ⟨scheme, hscheme, hbegins⟩
  unbroken := hunbroken
  before := by simp
  behind := by simp [Stretch.finish]

/-- An address stands between blanks or at the ends of the text. -/
theorem Stretch.IsAddressOf.exists_parts (h : address.IsAddressOf text) :
    ∃ a b, a.length = address.start ∧ text = a ++ (address.chars ++ b) ∧
      Reader.configPath.Parts a (address.chars ++ b) ∧
      Reader.configPath.Parts address.chars b := by
  have hstops : ∀ {c}, Text.isBlank c → Reader.configPath.StopsAt c := by
    intro c hc
    apply Reader.stopsAt_configPath (isWordChar_of_isBlank hc)
    rintro rfl
    cases hc
  obtain ⟨scheme, -, hbegins⟩ := h.scheme
  have hne : text.drop address.start ≠ [] := by
    have hlength := hbegins.length_le
    rw [h.chars]
    intro hnil
    rw [(List.append_eq_nil_iff.1 hnil).1] at hlength
    simp at hlength
  have hstart : address.start < text.length := by simpa using hne
  refine ⟨text.take address.start, text.drop address.finish, ?_, ?_, ?_, ?_⟩
  · exact List.length_take_of_le (Nat.le_of_lt hstart)
  · rw [← h.chars, List.take_append_drop]
  · exact Reader.parts_of_getLast? (fun c hc => hstops (h.before c hc)) _
  · exact Reader.parts_of_head? _ fun c hc => hstops (h.behind c hc)

/-- The paths claimed in an address are those claimed where it stands alone. -/
theorem filter_beginsIn_configPathsIn (h : address.IsAddressOf text) :
    (configPathsIn text).filter (·.beginsIn address) =
      (configPathsIn address.chars).map (·.shift address.start) := by
  obtain ⟨a, b, hstart, htext, hfirst, hsecond⟩ := h.exists_parts
  have hscan := hfirst.filter_beginsIn_scan hsecond
  rw [hstart, ← htext] at hscan
  rw [configPathsIn, List.filter_comm, hscan, List.filter_map, configPathsIn]
  rfl

theorem start_of_mem_configPathsIn {scheme : String} (hscheme : scheme ∈ addressSchemes)
    {chars : List Char} (hchars : (scheme ++ "://").toList <+: chars)
    (h : path ∈ configPathsIn chars) : (scheme ++ "://").length ≤ path.start := by
  obtain ⟨rest, rfl⟩ := hchars
  have hread := Reader.at?_of_mem_scan (List.mem_of_mem_filter h)
  by_contra hlt
  have hnone : Reader.configPath.at? ((scheme ++ "://").toList ++ rest) path.start = none := by
    rw [String.toList_append, List.append_assoc]
    apply at?_scheme (slash_not_mem_of_scheme scheme hscheme)
    rw [String.length_append] at hlt
    exact Nat.lt_of_not_le hlt
  rw [hnone] at hread
  cases hread

end

namespace Rule

theorem claims_eq_configPathsIn (text : String) :
    configPath.claims text =
      (configPathsIn text.toList).map fun path => ⟨.configPaths, String.ofList path.chars⟩ := by
  rw [claims_eq_of_readBy readBy_configPath, List.filterMap_map, configPathsIn,
    ← List.filterMap_eq_map, List.filterMap_filter]
  apply List.filterMap_congr
  intro path hpath
  have hslash := slash_mem_of_configPath? (Reader.at?_of_mem_scan hpath)
  have hvalue : '/' ∈ (String.ofList path.chars).toList := by rwa [String.toList_ofList]
  have haccept := accept_configPath hvalue
  simp only [Function.comp_apply, haccept, String.toList_ofList, decide_not, Bool.not_eq_true',
    decide_eq_false_iff_not]
  by_cases hscheme : "http".toList <+: path.chars
  · rw [if_pos hscheme, if_neg (not_not_intro hscheme), Option.map_none]
  · rw [if_neg hscheme, if_pos hscheme, Option.map_some]

/-- What begins in an address is claimed as if the address stood alone, and nothing begins in a
scheme or in the marks behind it. So no claim begins in an address exactly when every path that
is read in one begins like a scheme. -/
theorem configPaths_in_addresses (text : String) :
    configPath.claims text =
        (configPathsIn text.toList).map (fun path => ⟨.configPaths, String.ofList path.chars⟩) ∧
      (∀ address, Stretch.IsAddressOf address text.toList →
        (configPathsIn text.toList).filter (·.beginsIn address) =
            (configPathsIn address.chars).map (·.shift address.start) ∧
          ∀ path ∈ configPathsIn address.chars, ∀ scheme ∈ addressSchemes,
            (scheme ++ "://").toList <+: address.chars → (scheme ++ "://").length ≤ path.start) ∧
      ((∀ address, Stretch.IsAddressOf address text.toList →
          ∀ path ∈ configPathsIn text.toList, ¬path.beginsIn address) ↔
        ∀ address, Stretch.IsAddressOf address text.toList →
          ∀ path ∈ Reader.configPath.scan address.chars, "http".toList <+: path.chars) := by
  refine ⟨claims_eq_configPathsIn text, fun address h => ⟨filter_beginsIn_configPathsIn h, ?_⟩, ?_⟩
  · intro path hpath scheme hscheme hbegins
    exact start_of_mem_configPathsIn hscheme hbegins hpath
  · refine forall_congr' fun address => forall_congr' fun h => ?_
    rw [← List.filter_eq_nil_iff, filter_beginsIn_configPathsIn h, List.map_eq_nil_iff,
      configPathsIn, List.filter_eq_nil_iff]
    simp

/-- The address of a page, of whose host the last label begins a path. -/
def pageAddress : List Char := "http://example.com/foo".toList

theorem configPathsIn_pageAddress : configPathsIn pageAddress = [⟨15, "com/foo".toList⟩] := by
  cbv

theorem isBlank_of_mem_pageAddress : ∀ c ∈ pageAddress, Text.isBlank c = false := by
  have hall : pageAddress.all (!Text.isBlank ·) := by decide
  simpa using hall

theorem isAddressOf_pageAddress :
    Stretch.IsAddressOf ⟨4, pageAddress⟩ "see http://example.com/foo or web/secure".toList where
  chars := by decide
  scheme := ⟨"http", by decide, by decide⟩
  unbroken := isBlank_of_mem_pageAddress
  before := by
    rintro _ ⟨⟩
    decide
  behind := by
    rintro _ ⟨⟩
    decide

theorem configPaths_in_addresses_page :
    Stretch.IsAddressOf ⟨4, pageAddress⟩ "see http://example.com/foo or web/secure".toList ∧
      (configPathsIn "see http://example.com/foo or web/secure".toList).filter
        (·.beginsIn ⟨4, pageAddress⟩) = [⟨19, "com/foo".toList⟩] ∧
      "http" ∈ addressSchemes ∧ ("http" ++ "://").toList <+: pageAddress ∧
      ("http" ++ "://").length ≤ 15 := by
  obtain ⟨hinside, hscheme⟩ := (configPaths_in_addresses
    "see http://example.com/foo or web/secure").2.1 _ isAddressOf_pageAddress
  have hpath : ⟨15, "com/foo".toList⟩ ∈ configPathsIn pageAddress := by
    rw [configPathsIn_pageAddress]
    exact List.mem_singleton_self _
  refine ⟨isAddressOf_pageAddress, ?_, by decide, by decide, ?_⟩
  · rw [hinside]
    dsimp only
    rw [configPathsIn_pageAddress]
    rfl
  · exact hscheme _ hpath "http" (by decide) (by decide)

/-- The address of a page has a path that is claimed. -/
theorem claims_pageAddress :
    Stretch.IsAddressOf ⟨0, pageAddress⟩ pageAddress ∧
      configPathsIn pageAddress = [⟨15, "com/foo".toList⟩] ∧
      Stretch.beginsIn ⟨15, "com/foo".toList⟩ ⟨0, pageAddress⟩ ∧
      configPath.claims "http://example.com/foo" = [⟨.configPaths, "com/foo"⟩] := by
  have haddress : Stretch.IsAddressOf ⟨0, pageAddress⟩ pageAddress := by
    apply Stretch.isAddressOf_whole (show "http" ∈ addressSchemes by decide)
    · decide
    · exact isBlank_of_mem_pageAddress
  have hclaims : configPath.claims "http://example.com/foo" =
      (configPathsIn pageAddress).map fun path => ⟨.configPaths, String.ofList path.chars⟩ :=
    claims_eq_configPathsIn _
  refine ⟨haddress, configPathsIn_pageAddress, by decide, ?_⟩
  rw [hclaims, configPathsIn_pageAddress, List.map_singleton, String.ofList_toList]

end Rule
end DocClaims
