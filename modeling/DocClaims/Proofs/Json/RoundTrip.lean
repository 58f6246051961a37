import DocClaims.Proofs.Json.Reading

/-!
# Written data are read back

Data of a shape come back from the JSON text that is written for them, when no
record has two fields with one key.
-/

namespace DocClaims
namespace Json

theorem beginsAsValue_text (s : String) : BeginsAsValue (.text s) := by
  intro level
  rw [value, quotedText, List.append_assoc]
  exact ⟨_, _, .text, rfl, begins_quote, by simp⟩

theorem beginsAsValue_count (n : Nat) : BeginsAsValue (.count n) := by
  intro level
  obtain ⟨c, cs, hcs⟩ := List.exists_cons_of_ne_nil (Number.decimalDigits_ne_nil n)
  rw [Datum.count, value, Number.toString_natCast, hcs]
  have hc : Text.isAsciiDigit c := Number.isAsciiDigit_of_mem_decimalDigits (by rw [hcs]; simp)
  refine ⟨c, cs, .number, rfl, begins_number hc, ?_⟩
  rintro rfl
  exact absurd hc (by decide)

theorem beginsAsValue_table (es : List (String × Datum)) : BeginsAsValue (.table es) := by
  intro level
  rw [value_table]
  exact ⟨_, _, .table, rfl, begins_brace, by simp⟩

theorem beginsAsValue_of_fits {d : Datum} : ∀ {shape : Shape}, shape.Fits d → BeginsAsValue d
  | .text, h => by
      rw [Shape.Fits] at h
      obtain ⟨s, rfl⟩ := h
      exact beginsAsValue_text s
  | .path, h => by
      rw [Shape.Fits] at h
      obtain ⟨s, rfl⟩ := h
      exact beginsAsValue_text s
  | .count _, h => by
      rw [Shape.Fits] at h
      obtain ⟨n, -, rfl⟩ := h
      exact beginsAsValue_count n
  | .flag, h => by
      rw [Shape.Fits] at h
      obtain ⟨b, rfl⟩ := h
      intro level
      rw [value]
      cases b with
      | true => exact ⟨'t', "rue".toList, .yes, by decide, ⟨by decide, by decide⟩, by simp⟩
      | false => exact ⟨'f', "alse".toList, .no, by decide, ⟨by decide, by decide⟩, by simp⟩
  | .choice _, h => by
      rw [Shape.Fits] at h
      obtain ⟨s, -, rfl⟩ := h
      exact beginsAsValue_text s
  | .optional shape, h => by
      rw [Shape.Fits] at h
      rcases h with rfl | h
      · intro level
        rw [value]
        exact ⟨_, _, .null, rfl, ⟨by decide, by decide⟩, fun _ => rfl⟩
      · exact beginsAsValue_of_fits h
  | .list item, h => by
      rw [Shape.Fits] at h
      obtain ⟨ds, rfl, -⟩ := h
      intro level
      rw [value_list]
      exact ⟨_, _, .list, rfl, begins_bracket, by simp⟩
  | .keyed keys value, h => by
      rw [Shape.Fits] at h
      obtain ⟨es, rfl, -⟩ := h
      exact beginsAsValue_table es
  | .record _ fields, h => by
      rw [Shape.Fits] at h
      obtain ⟨es, rfl, -⟩ := h
      exact beginsAsValue_table es

mutual

/-- The reader of a shape reads data of the shape. -/
theorem readsBack_of_fits {isKey : String → Bool} {d : Datum} :
    ∀ {shape : Shape}, shape.wellKeyed isKey → shape.Fits d → ReadsBack (reader shape) d
  | .text, _, h => by
      rw [Shape.Fits] at h
      obtain ⟨s, rfl⟩ := h
      exact readsBack_text _ s
  | .path, _, h => by
      rw [Shape.Fits] at h
      obtain ⟨s, rfl⟩ := h
      exact readsBack_text _ s
  | .count kind, _, h => by
      rw [Shape.Fits] at h
      obtain ⟨n, hn, rfl⟩ := h
      exact readsBack_count kind hn
  | .flag, _, h => by
      rw [Shape.Fits] at h
      obtain ⟨b, rfl⟩ := h
      exact readsBack_flag _ b
  | .choice variants, _, h => by
      rw [Shape.Fits] at h
      obtain ⟨s, hs, rfl⟩ := h
      exact readsBack_choice hs
  | .optional shape, hkeys, h => by
      rw [Shape.wellKeyed] at hkeys
      rw [Shape.Fits] at h
      rw [reader]
      by_cases hnull : d = .null
      · rw [hnull]
        exact readsBack_optional_null _
      · have hd := h.resolve_left hnull
        exact readsBack_optional (beginsAsValue_of_fits hd) (readsBack_of_fits hkeys hd) hnull
  | .list item, hkeys, h => by
      rw [Shape.wellKeyed] at hkeys
      rw [Shape.Fits] at h
      obtain ⟨ds, rfl, h⟩ := h
      rw [reader]
      exact readsBack_list fun d hd =>
        ⟨beginsAsValue_of_fits (h d hd), readsBack_of_fits hkeys (h d hd)⟩
  | .keyed keys value, hkeys, h => by
      rw [Shape.wellKeyed, Bool.and_eq_true] at hkeys
      rw [Shape.Fits] at h
      obtain ⟨es, rfl, h⟩ := h
      rw [reader]
      exact readsBack_keyed fun e he => ⟨(h e he).1, readsBack_of_fits hkeys.2 (h e he).2⟩
  | .record name fields, hkeys, h => by
      rw [Shape.wellKeyed, Bool.and_eq_true, decide_eq_true_eq] at hkeys
      rw [Shape.Fits] at h
      obtain ⟨es, rfl, h⟩ := h
      rw [reader]
      apply readsBack_record (readFields_of_fits hkeys.2 h)
      rw [h.keys]
      exact hkeys.1

theorem readFields_of_fits {isKey : String → Bool} {es : List (String × Datum)} :
    ∀ {fields : Fields}, fields.wellKeyed isKey → fields.Fits es →
      FieldsReadBack (fieldReaders fields) es
  | .none, _, h => by
      rw [Fields.Fits] at h
      subst h
      rw [fieldReaders]
      exact .nil
  | .field key shape absent others, hkeys, h => by
      rw [Fields.wellKeyed, Bool.and_eq_true, Bool.and_eq_true] at hkeys
      rw [Fields.Fits] at h
      obtain ⟨d, more, rfl, hd, hmore⟩ := h
      rw [fieldReaders]
      exact .cons ⟨rfl, readsBack_of_fits hkeys.1.2 hd⟩ (readFields_of_fits hkeys.2 hmore)

end

/-- What is written for data of a shape is read as those data. -/
theorem read_write {isKey : String → Bool} {shape : Shape} {d : Datum}
    (hkeys : shape.wellKeyed isKey) (h : shape.Fits d) : read shape (write d) = .ok d := by
  rw [read, encode_write]
  exact readWith_of_reads (readsBack_of_fits hkeys h 0)

end Json
end DocClaims
