import DocClaims.Proofs.Pattern.Parts
import DocClaims.Proofs.Rules.ConfigPaths
import DocClaims.Proofs.Rules.QualifiedNames
import DocClaims.Proofs.Rules.Resources
import DocClaims.Proofs.Rules.SnakeCase

/-!
# Separators

A separator is a character that is in no word and in no value of a rule. Every rule but the
one for methods, whose calls may hold anything between the parentheses, finds on the two sides
of a separator what it finds in the texts there alone.
-/

namespace DocClaims

/-- Word characters, and the marks that the values of rules may have. -/
def isValueChar (c : Char) : Bool :=
  Text.isWordChar c || c == '\\' || c == '/' || c == ':' || c == '.'

section

variable {c d : Char} {f : Char → Bool} {w : List Char}

theorem isValueChar_of_isAsciiWordChar (h : Text.isAsciiWordChar c) : isValueChar c := by
  rw [isValueChar, Rule.isWordChar_of_isAsciiWordChar h]
  rfl

theorem isValueChar_of_isSnakeChar (h : Rule.isSnakeChar c) : isValueChar c := by
  apply isValueChar_of_isAsciiWordChar
  rw [Rule.isSnakeChar, Bool.or_eq_true] at h
  rcases h with h | h
  · rw [Text.isAsciiWordChar, Text.isAsciiLetter, h]
    rfl
  · rw [Text.isAsciiWordChar, h, Bool.or_true]

theorem isValueChar_of_isAsciiLetter (h : Text.isAsciiLetter c) : isValueChar c := by
  apply isValueChar_of_isAsciiWordChar
  rw [Text.isAsciiWordChar, h]
  rfl

theorem isValueChar_of_isFileChar (h : isFileChar c) : isValueChar c := by
  rw [isFileChar, Bool.or_eq_true, beq_iff_eq] at h
  rcases h with h | rfl
  · exact isValueChar_of_isAsciiWordChar h
  · rfl

theorem isValueChar_of_isQualifiedChar (h : isQualifiedChar c) : isValueChar c := by
  rw [isQualifiedChar, Bool.or_eq_true, Bool.or_eq_true, beq_iff_eq] at h
  rcases h with (h | h) | rfl
  · exact isValueChar_of_isAsciiLetter h
  · apply isValueChar_of_isAsciiWordChar
    rw [Text.isAsciiWordChar, h, Bool.or_true]
    rfl
  · rfl

theorem eq_false_of_separator (hf : ∀ {d}, f d → isValueChar d) (h : isValueChar c = false) :
    f c = false := by
  cases hc : f c with
  | false => rfl
  | true =>
      rw [hf hc] at h
      cases h

theorem not_mem_of_separator (hw : w.all isValueChar) (h : isValueChar c = false) : c ∉ w := by
  intro hc
  rw [List.all_eq_true.1 hw c hc] at h
  cases h

theorem isWordChar_of_separator (h : isValueChar c = false) : Text.isWordChar c = false := by
  simp only [isValueChar, Bool.or_eq_false_iff] at h
  exact h.1.1.1.1

end

/-! ### Readers -/

namespace Reader

open Reading

variable {c : Char}

theorem stopsAt_qualifiedName (h : isQualifiedChar c = false) : qualifiedName.StopsAt c where
  behind before cs rest := by
    have hmarker : c ∉ qualifiedMarker.toList := by
      intro hmem
      have hall : qualifiedMarker.toList.all isQualifiedChar := by decide
      rw [List.all_eq_true.1 hall c hmem] at h
      cases h
    simp only [qualifiedName, isPrefixOf_append_cons hmarker]
    by_cases hbegins : qualifiedMarker.toList.isPrefixOf cs
    · have hlength : qualifiedMarker.length ≤ cs.length :=
        (List.isPrefixOf_iff_prefix.1 hbegins).length_le
      rw [List.drop_append_of_le_length hlength, qualifiedRun, takeWhile_append_cons h, qualifiedRun]
    · simp [hbegins]
  before cs := rfl

theorem stopsAt_keep_word (h : Text.isWordChar c = false) (passes : List Char → Bool) :
    (word.keep passes).StopsAt c where
  behind before cs rest := by
    simp only [keep, word, takeWhile_append_cons h]
  before cs := by
    have hbefore : Pattern.isWord (some c) = Pattern.isWord none := h
    simp only [keep, word, hbefore]

theorem stopsAt_aclResource (h : isValueChar c = false) : aclResource.StopsAt c where
  behind _ := by
    have hmarker : HaltsAt (word? "Magento_".toList) c :=
      haltsAt_word? (not_mem_of_separator (by decide) h)
    have hcolons : HaltsAt (word? "::".toList) c :=
      haltsAt_word? (not_mem_of_separator (by decide) h)
    have hmodule : HaltsAt (run? Text.isAsciiLetter) c :=
      haltsAt_run? (eq_false_of_separator isValueChar_of_isAsciiLetter h)
    have hresource : HaltsAt (run? Rule.isSnakeChar) c :=
      haltsAt_run? (eq_false_of_separator isValueChar_of_isSnakeChar h)
    exact haltsAt_row? (begins_word? _) hmarker (haltsAt_row? (begins_run? _) hmodule
      (haltsAt_row? (begins_word? _) hcolons hresource))
  before _ := rfl

theorem stopsAt_filePath (h : isValueChar c = false) : filePath.StopsAt c where
  behind _ := by
    have hfolder : HaltsAt (oneOf? fileFolders) c := by
      apply haltsAt_oneOf?
      intro word hword
      have hall : fileFolders.all (·.toList.all isValueChar) := by decide
      exact not_mem_of_separator (List.all_eq_true.1 hall word hword) h
    have hkind : HaltsAt (oneOf? fileKinds) c := by
      apply haltsAt_oneOf?
      intro word hword
      have hall : fileKinds.all (·.toList.all isValueChar) := by decide
      exact not_mem_of_separator (List.all_eq_true.1 hall word hword) h
    have hslash : HaltsAt (word? "/".toList) c :=
      haltsAt_word? (not_mem_of_separator (by decide) h)
    have hdot : HaltsAt (word? ".".toList) c :=
      haltsAt_word? (not_mem_of_separator (by decide) h)
    have hpath : HaltsAt (run? isFileChar) c :=
      haltsAt_run? (eq_false_of_separator isValueChar_of_isFileChar h)
    exact haltsAt_row? (begins_oneOf? _) hfolder (haltsAt_row? (begins_word? _) hslash
      (haltsAt_row? (begins_run? _) hpath (haltsAt_row? (begins_word? _) hdot hkind)))
  before _ := rfl

theorem haltsAt_shortPath? (hword : Text.isWordChar c = false) (hslash : c ≠ '/') :
    HaltsAt segment? c ∧ HaltsAt shortPath? c := by
  have hsnake : Rule.isSnakeChar c = false := by
    cases hc : Rule.isSnakeChar c with
    | false => rfl
    | true =>
        rw [← Rule.has_lowerUnderSet] at hc
        rw [Rule.isWordChar_of_lowerUnderSet hc] at hword
        cases hword
  have hlower : Text.isAsciiLower c = false := by
    rw [Rule.isSnakeChar, Bool.or_eq_false_iff] at hsnake
    exact hsnake.1
  have hsegment : HaltsAt segment? c :=
    haltsAt_row? (begins_word? _) (haltsAt_word? (by simpa using hslash)) (haltsAt_run? hsnake)
  exact ⟨hsegment, haltsAt_row? (begins_run? _) (haltsAt_run? hlower) hsegment⟩

/-- A word that ends before a separator ends in any text. -/
theorem endsWord_append_cons {cs s : List Char} (h : Text.isWordChar c = false) (hs : s <+: cs)
    (rest : List Char) : endsWord (cs ++ c :: rest) s = endsWord cs s := by
  have hword : Pattern.isWord (some c) = Pattern.isWord none := h
  rw [endsWord, endsWord, List.drop_append_of_le_length hs.length_le, List.head?_append]
  cases (cs.drop s.length).head? with
  | none => rw [Option.none_or, List.head?_cons, hword]
  | some d => rfl

theorem stopsAt_configPath (hword : Text.isWordChar c = false) (hslash : c ≠ '/') :
    configPath.StopsAt c where
  behind before cs rest := by
    obtain ⟨hsegment, hshort⟩ := haltsAt_shortPath? hword hslash
    have hlong : HaltsAt longPath? c := haltsAt_row? begins_shortPath? hshort hsegment
    have hends : ∀ p : List Char → Option (List Char), Begins p →
        (p cs).filter (endsWord (cs ++ c :: rest)) = (p cs).filter (endsWord cs) := by
      intro p hp
      cases hread : p cs with
      | none => rfl
      | some s =>
          rw [Option.filter_some, Option.filter_some, endsWord_append_cons hword (hp hread)]
    simp only [configPath, configPath?, hlong cs rest, hshort cs rest, hends _ begins_longPath?,
      hends _ begins_shortPath?]
  before cs := by
    have hbefore : Pattern.isWord (some c) = Pattern.isWord none := hword
    simp only [configPath, configPath?, hbefore]

end Reader

/-! ### Rules -/

namespace Rule

variable {rule : Rule} {c : Char}

/-- A rule whose values are read claims those that it accepts. -/
theorem claims_eq_of_readBy {reader : Reader} (h : rule.pattern.ReadBy reader) (text : String) :
    rule.claims text = ((reader.scan text.toList).map (·.chars)).filterMap fun found =>
      (rule.accept (String.ofList found)).map (Claim.mk · (String.ofList found)) := by
  rw [claims, h.values_eq]

/-- The values of every rule but the one for methods are read by a reader that separators stop. -/
theorem exists_reader_stopsAt (h : rule ≠ method) :
    ∃ reader : Reader, rule.pattern.ReadBy reader ∧
      ∀ c, isValueChar c = false → reader.StopsAt c := by
  cases rule with
  | qualifiedName =>
      refine ⟨_, readBy_qualifiedName, fun c hc => Reader.stopsAt_qualifiedName ?_⟩
      exact eq_false_of_separator isValueChar_of_isQualifiedChar hc
  | method => exact absurd rfl h
  | event =>
      exact ⟨_, readBy_event, fun c hc => Reader.stopsAt_keep_word (isWordChar_of_separator hc) _⟩
  | table =>
      exact ⟨_, readBy_table, fun c hc => Reader.stopsAt_keep_word (isWordChar_of_separator hc) _⟩
  | aclResource => exact ⟨_, readBy_aclResource, fun c => Reader.stopsAt_aclResource⟩
  | configPath =>
      refine ⟨_, readBy_configPath, fun c hc => ?_⟩
      apply Reader.stopsAt_configPath (isWordChar_of_separator hc)
      rintro rfl
      cases hc
  | filePath => exact ⟨_, readBy_filePath, fun c => Reader.stopsAt_filePath⟩

/-- On the two sides of a separator a rule claims what it claims in the texts there alone. -/
theorem claims_append_separator (hrule : rule ≠ method) (hword : Text.isWordChar c = false)
    (hmark : c ∉ ['\\', '/', ':', '.']) (a b : String) :
    rule.claims (a ++ String.singleton c ++ b) = rule.claims a ++ rule.claims b := by
  have hseparator : isValueChar c = false := by
    simpa [isValueChar, hword, and_assoc] using hmark
  obtain ⟨reader, hread, hstops⟩ := exists_reader_stopsAt hrule
  have htext : (a ++ String.singleton c ++ b).toList = a.toList ++ c :: b.toList := by simp
  simp only [claims_eq_of_readBy hread, htext]
  rw [(hstops c hseparator).chars_scan_append_cons, List.filterMap_append]

theorem claims_append_comma :
    configPath ≠ method ∧ Text.isWordChar ',' = false ∧ ',' ∉ ['\\', '/', ':', '.'] ∧
      configPath.claims ("web/secure" ++ String.singleton ',' ++ "catalog/seo") =
        configPath.claims "web/secure" ++ configPath.claims "catalog/seo" ∧
      configPath.claims "web/secure" = [⟨.configPaths, "web/secure"⟩] := by
  have hword : Text.isWordChar ',' = false := by decide
  refine ⟨by decide, hword, by decide, claims_append_separator (by decide) hword (by decide) _ _, ?_⟩
  have hread : Reader.configPath.read? none "web/secure".toList = some "web/secure".toList := by
    decide
  rw [claims_eq_of_readBy readBy_configPath, Reader.scan_alone hread]
  decide

/-- A call goes on behind a blank, which is a separator. -/
example : method.claims "save" ++ method.claims "()" = [] ∧
    method.claims "save ()" = [⟨.methods, "save"⟩] :=
  ⟨by cbv, by cbv⟩

end Rule
end DocClaims
