import DocClaims.Proofs.Yaml.Reading

/-!
# Written data are read back

Data of a shape come back from the text that is written for them.
-/

namespace DocClaims
namespace Yaml

/-- Whether the text is written as a key without quotes. -/
def isKeyText (s : String) : Bool := Style.ofText s == .plain && s.toList.length ≤ 1024

theorem isKey_of_isKeyText {s : String} (h : isKeyText s) : IsKey s := by
  simp only [isKeyText, Bool.and_eq_true, beq_iff_eq, decide_eq_true_eq] at h
  exact ⟨h.1, h.2⟩

mutual

theorem regular_of_fits {d : Datum} :
    ∀ {shape : Shape}, shape.wellKeyed isKeyText → shape.Fits d → Regular d
  | .text, _, h => by
      rw [Shape.Fits] at h
      obtain ⟨s, rfl⟩ := h
      exact .text s
  | .path, _, h => by
      rw [Shape.Fits] at h
      obtain ⟨s, rfl⟩ := h
      exact .text s
  | .count _, _, h => by
      rw [Shape.Fits] at h
      obtain ⟨n, -, rfl⟩ := h
      exact .count n
  | .flag, _, h => by
      rw [Shape.Fits] at h
      obtain ⟨b, rfl⟩ := h
      exact .flag b
  | .choice _, _, h => by
      rw [Shape.Fits] at h
      obtain ⟨s, -, rfl⟩ := h
      exact .text s
  | .optional shape, hkeys, h => by
      rw [Shape.wellKeyed] at hkeys
      rw [Shape.Fits] at h
      rcases h with rfl | h
      · exact .null
      · exact regular_of_fits hkeys h
  | .list item, hkeys, h => by
      rw [Shape.wellKeyed] at hkeys
      rw [Shape.Fits] at h
      obtain ⟨ds, rfl, h⟩ := h
      exact .list fun d hd => regular_of_fits hkeys (h d hd)
  | .keyed keys value, hkeys, h => by
      rw [Shape.wellKeyed, Bool.and_eq_true, List.all_eq_true] at hkeys
      rw [Shape.Fits] at h
      obtain ⟨es, rfl, h⟩ := h
      exact .table (fun e he => isKey_of_isKeyText (hkeys.1 _ (h e he).1))
        fun e he => regular_of_fits hkeys.2 (h e he).2
  | .record _ fields, hkeys, h => by
      rw [Shape.wellKeyed, Bool.and_eq_true] at hkeys
      rw [Shape.Fits] at h
      obtain ⟨es, rfl, h⟩ := h
      have hall := regular_of_fitsFields hkeys.2 h
      exact .table (fun e he => (hall e he).1) fun e he => (hall e he).2

theorem regular_of_fitsFields {es : List (String × Datum)} :
    ∀ {fields : Fields}, fields.wellKeyed isKeyText → fields.Fits es →
      ∀ e ∈ es, IsKey e.1 ∧ Regular e.2
  | .none, _, h => by
      rw [Fields.Fits] at h
      simp [h]
  | .field key shape absent others, hkeys, h => by
      rw [Fields.wellKeyed, Bool.and_eq_true, Bool.and_eq_true] at hkeys
      rw [Fields.Fits] at h
      obtain ⟨d, more, rfl, hd, hmore⟩ := h
      intro e he
      rcases List.mem_cons.1 he with rfl | he
      · exact ⟨isKey_of_isKeyText hkeys.1.1, regular_of_fits hkeys.1.2 hd⟩
      · exact regular_of_fitsFields hkeys.2 hmore e he

end

open Document

mutual

/-- The reader of a shape reads data of the shape. -/
theorem readsAs_of_fits {doc : Document} {d : Datum} :
    ∀ {shape : Shape}, shape.wellKeyed isKeyText → shape.Fits d → ReadsAs (reader doc shape) d
  | .text, _, h => by
      rw [Shape.Fits] at h
      obtain ⟨s, rfl⟩ := h
      exact readsAs_text _ s
  | .path, _, h => by
      rw [Shape.Fits] at h
      obtain ⟨s, rfl⟩ := h
      exact readsAs_text _ s
  | .count kind, _, h => by
      rw [Shape.Fits] at h
      obtain ⟨n, hn, rfl⟩ := h
      exact readsAs_count kind hn
  | .flag, _, h => by
      rw [Shape.Fits] at h
      obtain ⟨b, rfl⟩ := h
      exact readsAs_flag _ b
  | .choice variants, _, h => by
      rw [Shape.Fits] at h
      obtain ⟨s, hs, rfl⟩ := h
      exact readsAs_choice hs
  | .optional shape, hkeys, h => by
      rw [Shape.wellKeyed] at hkeys
      rw [Shape.Fits] at h
      rw [reader]
      by_cases hnull : d = .null
      · rw [hnull]
        exact readsAs_optional_null _
      · have hd := h.resolve_left hnull
        exact readsAs_optional (regular_of_fits hkeys hd) (readsAs_of_fits hkeys hd) hnull
  | .list item, hkeys, h => by
      rw [Shape.wellKeyed] at hkeys
      rw [Shape.Fits] at h
      obtain ⟨ds, rfl, h⟩ := h
      rw [reader]
      exact readsAs_list fun d hd => readsAs_of_fits hkeys (h d hd)
  | .keyed keys value, hkeys, h => by
      rw [Shape.wellKeyed, Bool.and_eq_true] at hkeys
      rw [Shape.Fits] at h
      obtain ⟨es, rfl, h⟩ := h
      rw [reader]
      exact readsAs_keyed fun e he => ⟨(h e he).1, readsAs_of_fits hkeys.2 (h e he).2⟩
  | .record name fields, hkeys, h => by
      rw [Shape.wellKeyed, Bool.and_eq_true, decide_eq_true_eq] at hkeys
      rw [Shape.Fits] at h
      obtain ⟨es, rfl, h⟩ := h
      rw [reader]
      apply readsAs_record (readFields_of_fits hkeys.2 h)
      rw [h.keys]
      exact hkeys.1

theorem readFields_of_fits {doc : Document} {es : List (String × Datum)} :
    ∀ {fields : Fields}, fields.wellKeyed isKeyText → fields.Fits es →
      ReadFields (fieldReaders doc fields) es
  | .none, _, h => by
      rw [Fields.Fits] at h
      subst h
      rw [fieldReaders]
      exact .nil
  | .field key shape absent others, hkeys, h => by
      rw [Fields.wellKeyed, Bool.and_eq_true, Bool.and_eq_true] at hkeys
      rw [Fields.Fits] at h
      obtain ⟨d, more, rfl, hd, hmore⟩ := h
      rw [fieldReaders]
      exact .cons ⟨rfl, readsAs_of_fits hkeys.1.2 hd⟩ (readFields_of_fits hkeys.2 hmore)

end

/-- What is written for a table of a shape is read as that table. -/
theorem read_write {shape : Shape} {e : String × Datum} {es : List (String × Datum)}
    (hkeys : shape.wellKeyed isKeyText) (h : shape.Fits (.table (e :: es))) :
    read shape (write (.table (e :: es))) = .ok (.table (e :: es)) := by
  obtain ⟨xs, hdoc, hxs⟩ := document_of_write (regular_of_fits hkeys h)
  have hread := @readsAs_of_fits ⟨xs, [], none, false⟩ _ shape hkeys h xs hxs .top [] 0
  rw [List.append_nil] at hread
  unfold read Document.read
  simp only [hdoc, hread]
  rfl

end Yaml
end DocClaims
