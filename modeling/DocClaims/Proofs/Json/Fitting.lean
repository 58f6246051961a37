import DocClaims.Json.Value
import DocClaims.Proofs.Outcomes

/-!
# Fitting values to records

When a table fits a record: every value under the key of a field fits the field, and of several
under one key the first is kept. What is told of the values carries over to the fields.
-/

namespace DocClaims
namespace Json

variable {α : Type} {fields : List (Field Fit)} {field : Field Fit}
  {es before kept : List (String × Datum)} {key : String}

/-- The values that the fit accepts, and what `value` finds in them once they fit. -/
def Tells (fit : Fit) (value : Datum → α) (tells : Datum → α → Prop) : Prop :=
  ∀ d v, (∃ kept, fit d = .ok kept ∧ value kept = v) ↔ tells d v

/-- All values under the key tell something, and the first of them tells `v`. When there is
none, `absent` is told. -/
structure TellsUnder (tells : Datum → α → Prop) (absent : Option α) (key : String)
    (es : List (String × Datum)) (v : α) : Prop where
  every : ∀ d, (key, d) ∈ es → ∃ v, tells d v
  first : (∃ d, es.lookup key = some d ∧ tells d v) ∨ es.lookup key = none ∧ absent = some v

/-! ### Entries -/

theorem fitEntries_cons_of_none {e : String × Datum} (h : fields.find? (·.key == e.1) = none) :
    fitEntries fields (e :: es) = fitEntries fields es := by
  rw [fitEntries]
  split
  · rfl
  · next hsome => simp [h] at hsome

theorem fitEntries_cons_eq_ok_iff {e : String × Datum}
    (h : fields.find? (·.key == e.1) = some field) :
    fitEntries fields (e :: es) = .ok kept ↔
      ∃ d later, field.value e.2 = .ok d ∧ fitEntries fields es = .ok later ∧
        kept = (e.1, d) :: later := by
  rw [fitEntries]
  split
  · next hnone => simp [h] at hnone
  · next other hother =>
      obtain rfl := Option.some.inj (h.symm.trans hother)
      simp only [Outcome.bind_eq_ok_iff, Outcome.pure_eq_ok_iff]
      constructor
      · rintro ⟨d, hd, later, hlater, rfl⟩
        exact ⟨d, later, hd, hlater, rfl⟩
      · rintro ⟨d, later, hd, hlater, rfl⟩
        exact ⟨d, hd, later, hlater, rfl⟩

/-- The entries fit if each does that stands under the key of a field. -/
theorem exists_fitEntries_iff : (∃ kept, fitEntries fields es = .ok kept) ↔
    ∀ e ∈ es, ∀ field, fields.find? (·.key == e.1) = some field → ∃ d, field.value e.2 = .ok d := by
  induction es with
  | nil => simp [fitEntries]
  | cons e es ih =>
      rw [List.forall_mem_cons, ← ih]
      cases hfield : fields.find? (·.key == e.1) with
      | none => simp [fitEntries_cons_of_none hfield]
      | some field =>
          simp only [fitEntries_cons_eq_ok_iff hfield, Option.some.injEq, forall_eq']
          constructor
          · rintro ⟨_, d, later, hd, hlater, rfl⟩
            exact ⟨⟨d, hd⟩, later, hlater⟩
          · rintro ⟨⟨d, hd⟩, later, hlater⟩
            exact ⟨_, d, later, hd, hlater, rfl⟩

/-- The first value under the key of a field is kept, as it fits the field. -/
theorem lookup_of_fitEntries (hfield : fields.find? (·.key == key) = some field)
    (h : fitEntries fields es = .ok kept) :
    (es.lookup key = none ∧ kept.lookup key = none) ∨
      ∃ d d', es.lookup key = some d ∧ field.value d = .ok d' ∧ kept.lookup key = some d' := by
  induction es generalizing kept with
  | nil =>
      obtain rfl := Except.ok.inj h
      exact .inl ⟨rfl, rfl⟩
  | cons e es ih =>
      obtain ⟨other, d⟩ := e
      by_cases hkey : key = other
      · subst hkey
        obtain ⟨d', later, hd, -, rfl⟩ := (fitEntries_cons_eq_ok_iff hfield).1 h
        exact .inr ⟨d, d', by simp, hd, by simp⟩
      · have hne : (key == other) = false := by simpa using hkey
        cases hother : fields.find? (·.key == other) with
        | none =>
            rw [fitEntries_cons_of_none hother] at h
            simpa [List.lookup_cons, hne] using ih h
        | some field' =>
            obtain ⟨d', later, -, hlater, rfl⟩ := (fitEntries_cons_eq_ok_iff hother).1 h
            simpa [List.lookup_cons, hne] using ih hlater

/-! ### Fields -/

/-- What is kept for the field, or stands for it when it is left out. -/
def keptFor {β : Type} (before : List (String × Datum)) (field : Field β) : Option Datum :=
  (before.lookup field.key).or field.absent

theorem complete_cons_eq_ok_iff {β : Type} {field : Field β} {fields : List (Field β)} :
    complete before (field :: fields) = .ok kept ↔
    ∃ d later, keptFor before field = some d ∧ complete before fields = .ok later ∧
      kept = (field.key, d) :: later := by
  rw [complete, keptFor]
  cases (before.lookup field.key).or field.absent with
  | none => simp
  | some d =>
      simp only [Outcome.bind_eq_ok_iff, Outcome.pure_eq_ok_iff]
      constructor
      · rintro ⟨later, hlater, rfl⟩
        exact ⟨d, later, rfl, hlater, rfl⟩
      · rintro ⟨_, later, hd, hlater, rfl⟩
        rw [Option.some.inj hd]
        exact ⟨later, hlater, rfl⟩

/-- A table fits a record when its entries do and no field is left without a value. -/
theorem fitRecord_table_eq_ok_iff {name : String} {d : Datum} :
    fitRecord name fields (.table es) = .ok d ↔
      ∃ before kept, fitEntries fields es = .ok before ∧ complete before fields = .ok kept ∧
        d = .table kept := by
  simp only [fitRecord, Outcome.bind_eq_ok_iff, Outcome.pure_eq_ok_iff]
  constructor
  · rintro ⟨before, hbefore, kept, hkept, rfl⟩
    exact ⟨before, kept, hbefore, hkept, rfl⟩
  · rintro ⟨before, kept, hbefore, hkept, rfl⟩
    exact ⟨before, hbefore, kept, hkept, rfl⟩

/-- Once the entries fit, the value for a field tells what the values under its key tell. -/
theorem keptFor_iff_tellsUnder {value : Datum → α} {tells : Datum → α → Prop} {v : α}
    (hfield : fields.find? (·.key == field.key) = some field)
    (hfit : Tells field.value value tells) (h : fitEntries fields es = .ok before) :
    (∃ d, keptFor before field = some d ∧ value d = v) ↔
      TellsUnder tells (field.absent.map value) field.key es v := by
  have hevery : ∀ d, (field.key, d) ∈ es → ∃ v, tells d v := by
    intro d hd
    obtain ⟨kept, hkept⟩ := exists_fitEntries_iff.1 ⟨before, h⟩ _ hd field hfield
    exact ⟨_, (hfit d _).1 ⟨kept, hkept, rfl⟩⟩
  rw [keptFor]
  rcases lookup_of_fitEntries hfield h with ⟨hnone, hbefore⟩ | ⟨d, kept, hd, hkept, hbefore⟩
  · rw [hbefore, Option.none_or]
    constructor
    · rintro ⟨d, habsent, rfl⟩
      exact ⟨hevery, .inr ⟨hnone, by rw [habsent, Option.map_some]⟩⟩
    · rintro ⟨-, ⟨d, hd, -⟩ | ⟨-, habsent⟩⟩
      · simp [hnone] at hd
      · exact Option.map_eq_some_iff.1 habsent
  · rw [hbefore, Option.some_or]
    constructor
    · rintro ⟨_, hsome, rfl⟩
      obtain rfl := Option.some.inj hsome
      exact ⟨hevery, .inl ⟨d, hd, (hfit d _).1 ⟨_, hkept, rfl⟩⟩⟩
    · rintro ⟨-, ⟨other, hother, htells⟩ | ⟨hnone, -⟩⟩
      · obtain rfl := Option.some.inj (hd.symm.trans hother)
        obtain ⟨kept', hkept', hvalue⟩ := (hfit d v).2 htells
        obtain rfl := Except.ok.inj (hkept.symm.trans hkept')
        exact ⟨kept, rfl, hvalue⟩
      · simp [hnone] at hd

/-- Entries fit when the values under the keys of all fields do. -/
theorem exists_fitEntries_of_forall
    (h : ∀ field ∈ fields, ∀ d, (field.key, d) ∈ es → ∃ kept, field.value d = .ok kept) :
    ∃ before, fitEntries fields es = .ok before := by
  apply exists_fitEntries_iff.2
  rintro ⟨key, d⟩ he field hfield
  have hkey : field.key = key := by simpa using List.find?_some hfield
  apply h field (List.mem_of_find?_eq_some hfield) d
  rwa [hkey]

theorem TellsUnder.exists_fit {fit : Fit} {value : Datum → α} {tells : Datum → α → Prop}
    {absent : Option α} {v : α} (h : TellsUnder tells absent key es v)
    (hfit : Tells fit value tells) (d : Datum) (hd : (key, d) ∈ es) :
    ∃ kept, fit d = .ok kept := by
  obtain ⟨v, hv⟩ := h.every d hd
  obtain ⟨kept, hkept, -⟩ := (hfit d v).2 hv
  exact ⟨kept, hkept⟩

/-! ### Items in order -/

variable {name expected : String} {index : Nat} {ds : List Datum} {d : Datum}

theorem fitRecord_list_eq_ok_iff : fitRecord name fields (.list ds) = .ok d ↔
    ∃ kept, fitInOrder (elements name fields.length) 0 fields ds = .ok kept ∧ d = .table kept := by
  simp only [fitRecord, Outcome.bind_eq_ok_iff, Outcome.pure_eq_ok_iff]
  constructor
  · rintro ⟨kept, hkept, rfl⟩
    exact ⟨kept, hkept, rfl⟩
  · rintro ⟨kept, hkept, rfl⟩
    exact ⟨kept, hkept, rfl⟩

theorem fitInOrder_cons_eq_ok_iff : fitInOrder expected index (field :: fields) (d :: ds) = .ok kept ↔
    ∃ d' later, field.value d = .ok d' ∧ fitInOrder expected (index + 1) fields ds = .ok later ∧
      kept = (field.key, d') :: later := by
  simp only [fitInOrder, Outcome.bind_eq_ok_iff, Outcome.pure_eq_ok_iff]
  constructor
  · rintro ⟨d', hd, later, hlater, rfl⟩
    exact ⟨d', later, hd, hlater, rfl⟩
  · rintro ⟨d', later, hd, hlater, rfl⟩
    exact ⟨d', hd, later, hlater, rfl⟩

/-- A field that may not be left out has an item. -/
theorem exists_cons_of_fitInOrder (hend : field.atEnd = none)
    (h : fitInOrder expected index (field :: fields) ds = .ok kept) : ∃ d later, ds = d :: later := by
  cases ds with
  | cons d later => exact ⟨d, later, rfl⟩
  | nil =>
      rw [fitInOrder, hend] at h
      cases h

/-- There is no item without a field. -/
theorem eq_nil_of_fitInOrder (h : fitInOrder expected index [] ds = .ok kept) :
    ds = [] ∧ kept = [] := by
  cases ds with
  | nil => exact ⟨rfl, (Except.ok.inj h).symm⟩
  | cons d later => cases h

/-! ### Records that are read -/

section Read

variable {readers : List FieldReader} {p : String → Datum → Prop} {c c' : Cursor}

/-- Whatever the reader reads is as `p` says. -/
def Yields (reader : Reader Datum) (p : Datum → Prop) : Prop :=
  ∀ c d c', reader c = .ok (d, c') → p d

theorem yields_reader_text : Yields (reader .text) fun d => ∃ s, d = .text s := by
  intro c d c' h
  obtain ⟨⟨k, c₁⟩, -, h⟩ := Outcome.bind_eq_ok_iff.1 h
  obtain ⟨⟨found, c₂⟩, -, h⟩ := Outcome.bind_eq_ok_iff.1 h
  dsimp only at h
  cases found with
  | text s => exact ⟨s, (Prod.mk.inj (Except.ok.inj h)).1.symm⟩
  | _ => cases h

theorem forall_of_fieldsIn (hreaders : ∀ r ∈ readers, Yields r.value (p r.key)) {fuel : Nat}
    {isFirst : Bool} (hbefore : ∀ e ∈ before, p e.1 e.2)
    (h : fieldsIn readers fuel isFirst before c = .ok (kept, c')) : ∀ e ∈ kept, p e.1 e.2 := by
  induction fuel generalizing isFirst before c with
  | zero => cases h
  | succ fuel ih =>
      obtain ⟨⟨more, c₁⟩, -, h⟩ := Outcome.bind_eq_ok_iff.1 h
      cases more with
      | false =>
          obtain ⟨rfl, -⟩ := Prod.mk.inj (Except.ok.inj h)
          exact hbefore
      | true =>
          obtain ⟨⟨key, c₂⟩, -, h⟩ := Outcome.bind_eq_ok_iff.1 h
          dsimp only at h
          split at h
          · obtain ⟨_, -, h⟩ := Outcome.bind_eq_ok_iff.1 h
            obtain ⟨_, -, h⟩ := Outcome.bind_eq_ok_iff.1 h
            exact ih hbefore h
          · next r hr =>
              split at h
              · cases h
              · obtain ⟨_, -, h⟩ := Outcome.bind_eq_ok_iff.1 h
                obtain ⟨⟨d, c₃⟩, hd, h⟩ := Outcome.bind_eq_ok_iff.1 h
                obtain rfl : r.key = key := by simpa using List.find?_some hr
                refine ih (List.forall_mem_cons.2 ⟨?_, hbefore⟩) h
                exact hreaders r (List.mem_of_find?_eq_some hr) _ _ _ hd

theorem forall_of_complete (hbefore : ∀ e ∈ before, p e.1 e.2)
    (habsent : ∀ r ∈ readers, ∀ d ∈ r.absent, p r.key d)
    (h : complete before readers = .ok kept) :
    kept.map Prod.fst = readers.map (·.key) ∧ ∀ e ∈ kept, p e.1 e.2 := by
  induction readers generalizing kept with
  | nil =>
      obtain rfl := Except.ok.inj h
      simp
  | cons r readers ih =>
      obtain ⟨hr, hlater⟩ := List.forall_mem_cons.1 habsent
      obtain ⟨d, later, hd, hcomplete, rfl⟩ := complete_cons_eq_ok_iff.1 h
      obtain ⟨hkeys, hforall⟩ := ih hlater hcomplete
      refine ⟨by rw [List.map_cons, List.map_cons, hkeys], List.forall_mem_cons.2 ⟨?_, hforall⟩⟩
      rcases Option.or_eq_some_iff.1 hd with hfound | ⟨-, hstands⟩
      · obtain ⟨front, back, rfl, -⟩ := List.lookup_eq_some_iff.1 hfound
        exact hbefore (r.key, d) (by simp)
      · exact hr d hstands

theorem forall_of_fieldsInOrder (hreaders : ∀ r ∈ readers, Yields r.value (p r.key))
    (hend : ∀ r ∈ readers, ∀ d ∈ r.atEnd, p r.key d) {expected : String} {index : Nat}
    (h : fieldsInOrder expected index readers c = .ok (kept, c')) :
    kept.map Prod.fst = readers.map (·.key) ∧ ∀ e ∈ kept, p e.1 e.2 := by
  induction readers generalizing kept index c with
  | nil =>
      obtain ⟨rfl, -⟩ := Prod.mk.inj (Except.ok.inj h)
      simp
  | cons r readers ih =>
      obtain ⟨hr, hreaders⟩ := List.forall_mem_cons.1 hreaders
      obtain ⟨hrend, hend⟩ := List.forall_mem_cons.1 hend
      have hlater {d : Datum} {c₁ : Cursor} (hd : p r.key d)
          (h : (fieldsInOrder expected (index + 1) readers c₁ >>= fun later =>
            pure ((r.key, d) :: later.1, later.2)) = .ok (kept, c')) :
          kept.map Prod.fst = (r :: readers).map (·.key) ∧ ∀ e ∈ kept, p e.1 e.2 := by
        obtain ⟨⟨later, c₂⟩, hlater, h⟩ := Outcome.bind_eq_ok_iff.1 h
        obtain ⟨rfl, rfl⟩ := Prod.mk.inj (Except.ok.inj h)
        obtain ⟨hkeys, hforall⟩ := ih hreaders hend hlater
        exact ⟨by rw [List.map_cons, List.map_cons, hkeys], List.forall_mem_cons.2 ⟨hd, hforall⟩⟩
      obtain ⟨⟨more, c₁⟩, -, h⟩ := Outcome.bind_eq_ok_iff.1 h
      cases more with
      | true =>
          obtain ⟨⟨d, c₂⟩, hd, h⟩ := Outcome.bind_eq_ok_iff.1 h
          exact hlater (hr _ _ _ hd) h
      | false =>
          dsimp only at h
          rw [if_neg (by decide)] at h
          split at h
          · next d hd => exact hlater (hrend d hd) h
          · cases h

/-- What is read of a record is a table of its fields, in their order, whether it was written as
a table or as a list. -/
theorem exists_of_record {name : String} {d : Datum}
    (hreaders : ∀ r ∈ readers, Yields r.value (p r.key))
    (habsent : ∀ r ∈ readers, ∀ d ∈ r.absent, p r.key d)
    (hend : ∀ r ∈ readers, ∀ d ∈ r.atEnd, p r.key d)
    (h : record name readers c = .ok (d, c')) :
    ∃ es, d = .table es ∧ es.map Prod.fst = readers.map (·.key) ∧ ∀ e ∈ es, p e.1 e.2 := by
  obtain ⟨⟨k, c₁⟩, -, h⟩ := Outcome.bind_eq_ok_iff.1 h
  dsimp only at h
  split at h
  · obtain ⟨⟨before, c₂⟩, hbefore, h⟩ := Outcome.bind_eq_ok_iff.1 h
    dsimp only at h
    split at h
    · next kept hkept =>
        obtain ⟨rfl, -⟩ := Prod.mk.inj (Except.ok.inj h)
        exact ⟨kept, rfl,
          forall_of_complete (forall_of_fieldsIn hreaders (by simp) hbefore) habsent hkept⟩
    · cases h
  · obtain ⟨⟨kept, c₂⟩, hkept, h⟩ := Outcome.bind_eq_ok_iff.1 h
    obtain ⟨_, -, h⟩ := Outcome.bind_eq_ok_iff.1 h
    obtain ⟨rfl, -⟩ := Prod.mk.inj (Except.ok.inj h)
    exact ⟨kept, rfl, forall_of_fieldsInOrder hreaders hend hkept⟩
  · obtain ⟨_, -, h⟩ := Outcome.bind_eq_ok_iff.1 h
    obtain ⟨_, -, h⟩ := Outcome.bind_eq_ok_iff.1 h
    cases h

end Read

end Json
end DocClaims
