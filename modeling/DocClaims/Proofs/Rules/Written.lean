import DocClaims.Proofs.Pattern.Characters
import DocClaims.Proofs.Rules.ConfigPaths
import DocClaims.Proofs.Rules.Methods
import DocClaims.Proofs.Rules.QualifiedNames
import DocClaims.Proofs.Rules.Resources
import DocClaims.Proofs.Rules.SnakeCase

/-!
# Claims written out

A claim can be written so that its rule finds it again, and nothing else: a method with the
parentheses of a call, everything else as it is. What is written has no character that means
something in markup, and no blank.
-/

namespace DocClaims

variable {name : List Char}

/-- A name with parentheses and nothing behind them is one call. -/
theorem MethodCall.all_written (hfirst : name.head?.any Text.isAsciiLower)
    (hname : ∀ c ∈ name, Text.isAsciiWordChar c) :
    MethodCall.all (name ++ "()".toList) = [⟨name, []⟩] := by
  have hparen : ∀ c ∈ "()".toList.head?, Text.isAsciiWordChar c = false := by
    rintro _ ⟨⟩
    decide
  have htake : (name ++ "()".toList).takeWhile Text.isAsciiWordChar = name :=
    takeWhile_append_eq_left_iff.2 ⟨hname, hparen⟩
  have hdrop : (name ++ "()".toList).dropWhile Text.isAsciiWordChar = "()".toList :=
    dropWhile_append_eq_right hname hparen
  have hhead : (name ++ "()".toList).head?.any Text.isAsciiLower := by
    cases name with
    | nil => cases hfirst
    | cons c name => exact hfirst
  have harguments : MethodCall.behindArguments? "()".toList = some [] := by decide
  have hread : MethodCall.read? (name ++ "()".toList) = some ⟨name, []⟩ := by
    rw [MethodCall.read?, if_pos hhead, htake, hdrop, harguments, Option.map_some]
  rw [MethodCall.all_of_read?_eq_some hread, MethodCall.all_nil]

namespace Rule

open Pattern CharSet

variable {rule : Rule} {text : String} {claim : Claim}

/-- What the rule finds, as a document may write it. -/
def written (rule : Rule) (value : String) : String :=
  if rule = method then value ++ "()" else value

theorem exists_reader (h : rule ≠ method) :
    ∃ reader : Reader, reader.ReadsAlone ∧ rule.pattern.ReadBy reader := by
  cases rule with
  | qualifiedName => exact ⟨_, Reader.readsAlone_qualifiedName, readBy_qualifiedName⟩
  | method => exact absurd rfl h
  | event => exact ⟨_, Reader.readsAlone_keep_word _, readBy_event⟩
  | table => exact ⟨_, Reader.readsAlone_keep_word _, readBy_table⟩
  | aclResource => exact ⟨_, Reader.readsAlone_aclResource, readBy_aclResource⟩
  | configPath => exact ⟨_, Reader.readsAlone_configPath, readBy_configPath⟩
  | filePath => exact ⟨_, Reader.readsAlone_filePath, readBy_filePath⟩

theorem values_method_written {name : String} (h : name.toList ∈ method.pattern.values text.toList) :
    method.pattern.values (method.written name).toList = [name.toList] := by
  have hfits := matchesWhole_of_mem_values h
  obtain ⟨m, first, more, k, hname, ⟨⟨c, rfl, hc⟩, -⟩, ⟨-, hmore⟩, -⟩ := matchesWhole_iff.1 hfits
  rw [has_lowerSet] at hc
  have hfirst : name.toList.head?.any Text.isAsciiLower := by
    rw [hname]
    exact hc
  have hword : ∀ d ∈ name.toList, Text.isAsciiWordChar d := by
    have hone : Text.isAsciiWordChar c := by simp [Text.isAsciiWordChar, Text.isAsciiLetter, hc]
    have hset : ∀ d ∈ more, Text.isAsciiWordChar d := by
      intro d hd
      rw [← has_nameSet]
      exact hmore d hd
    rw [hname]
    exact List.forall_mem_append.2 ⟨List.forall_mem_singleton.2 hone, hset⟩
  have hwritten : (method.written name).toList = name.toList ++ "()".toList := by
    rw [written, if_pos rfl, String.toList_append]
  rw [hwritten, values, valuesFrom_method]
  change (MethodCall.all (name.toList ++ "()".toList)).map (·.name) = _
  rw [MethodCall.all_written hfirst hword]
  rfl

theorem values_written {value : String} (h : value.toList ∈ rule.pattern.values text.toList) :
    rule.pattern.values (rule.written value).toList = [value.toList] := by
  by_cases hmethod : rule = method
  · subst hmethod
    exact values_method_written h
  · obtain ⟨reader, halone, hread⟩ := exists_reader hmethod
    rw [written, if_neg hmethod]
    exact hread.values_alone halone h

/-- A claim that is written out is found again, and nothing else. -/
theorem claims_written (h : claim ∈ rule.claims text) :
    rule.claims (rule.written claim.value) = [claim] := by
  obtain ⟨hfound, haccept⟩ := mem_claims_iff.1 h
  rw [claims, values_written hfound]
  simp [haccept]

/-! ### Characters -/

/-- From the opening parenthesis to the colon, and from the first to the last letter. -/
def writtenItems : List Item := [.range '(' ':', .range 'A' 'z']

theorem isOver_valuePattern (rule : Rule) : rule.valuePattern.isOver writtenItems := by
  cases rule <;> decide

theorem has_of_mem_written (h : claim ∈ rule.claims text) :
    ∀ c ∈ (rule.written claim.value).toList, (oneOf writtenItems).has c := by
  obtain ⟨hfound, -⟩ := mem_claims_iff.1 h
  obtain ⟨m, hfits⟩ := matchesWhole_iff.1 (matchesWhole_of_mem_values hfound)
  have hvalue := hfits.has_of_isOver (isOver_valuePattern rule)
  rw [written]
  split
  · rw [String.toList_append]
    exact List.forall_mem_append.2 ⟨hvalue, List.all_eq_true.1 (by decide)⟩
  · exact hvalue

end Rule
end DocClaims
