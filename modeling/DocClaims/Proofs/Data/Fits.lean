import DocClaims.Data.Shape
import Mathlib.Data.List.Nodup

/-!
# Data of a shape

What it means that data have a shape, with all fields of a record in their order.
-/

namespace DocClaims

mutual

/-- The data are such as a reader gives for the shape, with no field left out. -/
def Shape.Fits : Shape → Datum → Prop
  | .text, d => ∃ s, d = .text s
  | .path, d => ∃ s, d = .text s
  | .count _, d => ∃ n < Shape.countLimit, d = .count n
  | .flag, d => ∃ b, d = .flag b
  | .choice variants, d => ∃ s ∈ variants, d = .text s
  | .optional shape, d => d = .null ∨ shape.Fits d
  | .list item, d => ∃ ds, d = .list ds ∧ ∀ e ∈ ds, item.Fits e
  | .keyed keys value, d => ∃ es, d = .table es ∧ ∀ e ∈ es, e.1 ∈ keys ∧ value.Fits e.2
  | .record _ fields, d => ∃ es, d = .table es ∧ fields.Fits es

def Fields.Fits : Fields → List (String × Datum) → Prop
  | .none, es => es = []
  | .field key shape _ others, es =>
      ∃ d more, es = (key, d) :: more ∧ shape.Fits d ∧ others.Fits more

end

@[simp] theorem Fields.fits_nil : Fields.none.Fits [] := by
  rw [Fields.Fits]

@[simp] theorem Fields.fits_cons {key : String} {shape : Shape} {absent : Option Datum}
    {others : Fields} {d : Datum} {es : List (String × Datum)} :
    (Fields.field key shape absent others).Fits ((key, d) :: es) ↔
      shape.Fits d ∧ others.Fits es := by
  rw [Fields.Fits]
  constructor
  · rintro ⟨_, _, heq, hd, hes⟩
    cases heq
    exact ⟨hd, hes⟩
  · intro h
    exact ⟨d, es, rfl, h⟩

theorem Shape.fits_record {name : String} {fields : Fields} {es : List (String × Datum)} :
    (Shape.record name fields).Fits (.table es) ↔ fields.Fits es := by
  rw [Shape.Fits]
  simp

namespace Shape

@[simp] theorem fits_text (s : String) : Shape.text.Fits (.text s) := by
  simp [Shape.Fits]

@[simp] theorem fits_flag (b : Bool) : Shape.flag.Fits (.flag b) := by
  simp [Shape.Fits]

@[simp] theorem fits_count {kind : String} {n : Nat} :
    (Shape.count kind).Fits (.count n) ↔ n < countLimit := by
  rw [Shape.Fits]
  constructor
  · rintro ⟨m, hm, heq⟩
    obtain rfl : n = m := Int.ofNat.inj (Datum.integer.inj heq)
    exact hm
  · intro h
    exact ⟨n, h, rfl⟩

theorem fits_choice {variants : List String} {s : String} (h : s ∈ variants) :
    (Shape.choice variants).Fits (.text s) := by
  rw [Shape.Fits]
  exact ⟨s, h, rfl⟩

theorem fits_list {α : Type} {item : Shape} {encode : α → Datum} {l : List α}
    (h : ∀ a ∈ l, item.Fits (encode a)) : (Shape.list item).Fits (.list (l.map encode)) := by
  rw [Shape.Fits]
  refine ⟨_, rfl, ?_⟩
  intro e he
  obtain ⟨a, ha, rfl⟩ := List.mem_map.1 he
  exact h a ha

@[simp] theorem fits_optionalText (s : Option String) :
    (Shape.optional .text).Fits (.optionalText s) := by
  cases s <;> simp [Shape.Fits, Datum.optionalText]

@[simp] theorem fits_texts (values : List String) : (Shape.list .text).Fits (.texts values) :=
  fits_list fun s _ => fits_text s

end Shape

namespace Fields

def keys : Fields → List String
  | none => []
  | field key _ _ others => key :: others.keys

end Fields

mutual

/-- The keys of each record differ, and every key is of the given kind. -/
def Shape.wellKeyed (isKey : String → Bool) : Shape → Bool
  | .optional shape => shape.wellKeyed isKey
  | .list item => item.wellKeyed isKey
  | .keyed keys value => keys.all isKey && value.wellKeyed isKey
  | .record _ fields => decide fields.keys.Nodup && fields.wellKeyed isKey
  | _ => true

def Fields.wellKeyed (isKey : String → Bool) : Fields → Bool
  | .none => true
  | .field key shape _ others => isKey key && shape.wellKeyed isKey && others.wellKeyed isKey

end

theorem Fields.Fits.keys : ∀ {fields : Fields} {es : List (String × Datum)}, fields.Fits es →
    es.map Prod.fst = fields.keys
  | .none, es, h => by
      rw [Fields.Fits] at h
      rw [h]
      rfl
  | .field key shape absent others, es, h => by
      rw [Fields.Fits] at h
      obtain ⟨d, more, rfl, -, hmore⟩ := h
      rw [List.map_cons, Fields.Fits.keys hmore, Fields.keys]

theorem lookup_of_mem {κ α : Type} [BEq κ] [LawfulBEq κ] {es : List (κ × α)} {e : κ × α}
    (hkeys : (es.map Prod.fst).Nodup) (he : e ∈ es) : es.lookup e.1 = some e.2 := by
  induction es with
  | nil => simp at he
  | cons f es ih =>
      obtain ⟨hnot, hrest⟩ := List.nodup_cons.1 hkeys
      rcases List.mem_cons.1 he with rfl | he
      · exact List.lookup_cons_self
      · have hne : e.1 ≠ f.1 := fun heq => hnot (heq ▸ List.mem_map_of_mem he)
        rw [List.lookup_cons, beq_eq_false_iff_ne.2 hne]
        exact ih hrest he

theorem lookup_reverse_of_mem {es : List (String × Datum)} {e : String × Datum}
    (hkeys : (es.map Prod.fst).Nodup) (he : e ∈ es) : es.reverse.lookup e.1 = some e.2 := by
  apply lookup_of_mem
  · rw [List.map_reverse]
    exact List.nodup_reverse.2 hkeys
  · exact List.mem_reverse.2 he

theorem lookup_cons_eq_none {key : String} {d : Datum} {es found : List (String × Datum)}
    (hkeys : (((key, d) :: es).map Prod.fst).Nodup)
    (h : ∀ e ∈ (key, d) :: es, found.lookup e.1 = none) :
    ∀ e ∈ es, ((key, d) :: found).lookup e.1 = none := by
  obtain ⟨hnot, -⟩ := List.nodup_cons.1 hkeys
  intro e he
  have hne : e.1 ≠ key := by
    rintro rfl
    exact hnot (List.mem_map.2 ⟨e, he, rfl⟩)
  rw [List.lookup_cons, beq_eq_false_iff_ne.2 hne]
  exact h e (by simp [he])

theorem find?_of_forall₂ {ρ : Type} {keyOf : ρ → String} {reads : ρ → Datum → Prop}
    {readers : List ρ} {es : List (String × Datum)}
    (h : List.Forall₂ (fun reader e => keyOf reader = e.1 ∧ reads reader e.2) readers es)
    (hkeys : (es.map Prod.fst).Nodup) :
    ∀ e ∈ es, ∃ reader, readers.find? (keyOf · == e.1) = some reader ∧ reads reader e.2 := by
  induction h with
  | nil => simp
  | @cons reader e readers es hread _ ih =>
      obtain ⟨hnot, hrest⟩ := List.nodup_cons.1 hkeys
      intro f hf
      rcases List.mem_cons.1 hf with rfl | hf
      · exact ⟨reader, by simp [hread.1], hread.2⟩
      · obtain ⟨other, hfind, hother⟩ := ih hrest f hf
        have hne : e.1 ≠ f.1 := fun heq => hnot (heq ▸ List.mem_map_of_mem hf)
        exact ⟨other, by simp [hread.1, hne, hfind], hother⟩

theorem mapM_encode {α : Type} {encode : α → Datum} {decode : Datum → Option α}
    (h : ∀ a, decode (encode a) = some a) (l : List α) : (l.map encode).mapM decode = some l := by
  induction l with
  | nil => rfl
  | cons a l ih =>
      rw [List.map_cons, List.mapM_cons, h, ih]
      rfl

end DocClaims
