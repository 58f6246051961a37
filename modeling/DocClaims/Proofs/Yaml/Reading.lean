import DocClaims.Proofs.Data.Fits
import DocClaims.Proofs.Number.Digits
import DocClaims.Proofs.Outcomes
import DocClaims.Proofs.Yaml.DataEvents
import DocClaims.Yaml.Reader

/-!
# Reading data from their contents

The reader of a shape gives back data of the shape from their contents: each way
of reading is followed over the contents of what it reads, and what comes behind
them is left.
-/

namespace DocClaims
namespace Yaml
namespace Document

variable {doc : Document} {d : Datum}

/-- The reader gives the data when their contents come next. -/
def ReadsAs (reader : NodeReader Datum) (d : Datum) : Prop :=
  ∀ (xs : List PlacedContent), xs.map (·.content) = Yaml.contents d →
    ∀ route rest followed, reader route ⟨xs ++ rest, followed⟩ = .ok (d, ⟨rest, followed⟩)

@[simp] theorem located_ok {α : Type} (place : Place) (route : Route) (a : α) (r : Reading) :
    located place route (.ok (a, r)) = .ok (a, r) := rfl

theorem visit_eq {α : Type} {reader : NodeReader α} {x : PlacedContent} {rest : List PlacedContent}
    (hx : ∀ target, x.content ≠ .reference target) (route : Route) (followed : Nat) :
    doc.visit reader route ⟨x :: rest, followed⟩ = reader route ⟨x :: rest, followed⟩ := by
  obtain ⟨content, place⟩ := x
  cases content with
  | reference target => exact absurd rfl (hx target)
  | _ => rfl

theorem exists_of_map_content_eq_cons {xs : List PlacedContent} {c : Content} {cs : List Content}
    (h : xs.map (·.content) = c :: cs) :
    ∃ place more, xs = ⟨c, place⟩ :: more ∧ more.map (·.content) = cs := by
  obtain ⟨⟨content, place⟩, more, rfl, rfl, hmore⟩ := List.map_eq_cons_iff.1 h
  exact ⟨place, more, rfl, hmore⟩

theorem exists_of_map_content_eq_singleton {xs : List PlacedContent} {c : Content}
    (h : xs.map (·.content) = [c]) : ∃ place, xs = [⟨c, place⟩] := by
  obtain ⟨place, more, rfl, hmore⟩ := exists_of_map_content_eq_cons h
  obtain rfl : more = [] := List.map_eq_nil_iff.1 hmore
  exact ⟨place, rfl⟩

/-! ### Scalars -/

theorem scalar_eq {expected : String} {accept : Scalar → Option Datum} {tag : Option String}
    {style : Style} {text : String} (haccept : accept ⟨tag, style, text⟩ = some d) (place : Place)
    (route : Route) (rest : List PlacedContent) (followed : Nat) :
    scalar doc expected accept route ⟨⟨.scalar tag style text, place⟩ :: rest, followed⟩ =
      .ok (d, ⟨rest, followed⟩) := by
  unfold scalar
  rw [visit_eq (by simp)]
  simp [haccept]

theorem readsAs_scalar {expected : String} {accept : Scalar → Option Datum} {style : Style}
    {text : String} (hcontents : Yaml.contents d = [.scalar none style text])
    (haccept : accept ⟨none, style, text⟩ = some d) : ReadsAs (scalar doc expected accept) d := by
  intro xs hxs route rest followed
  rw [hcontents] at hxs
  obtain ⟨place, rfl⟩ := exists_of_map_content_eq_singleton hxs
  exact scalar_eq haccept place route rest followed

theorem readsAs_text (expected s : String) : ReadsAs (scalar doc expected acceptText) (.text s) :=
  readsAs_scalar (by rw [Yaml.contents]) rfl

theorem readsAs_flag (expected : String) (b : Bool) :
    ReadsAs (scalar doc expected acceptFlag) (.flag b) := by
  cases b with
  | true => exact @readsAs_scalar doc _ _ _ .plain "true" (by simp [Yaml.contents, atom?]) rfl
  | false => exact @readsAs_scalar doc _ _ _ .plain "false" (by simp [Yaml.contents, atom?]) rfl

theorem ne_sign_of_decimalDigits {n : Nat} {c : Char} {cs : List Char}
    (h : Number.decimalDigits n = c :: cs) : c ≠ '-' ∧ c ≠ '+' := by
  have hdigit := @Number.isAsciiDigit_of_mem_decimalDigits n c (by simp [h])
  constructor
  · rintro rfl
    exact absurd hdigit (by decide)
  · rintro rfl
    exact absurd hdigit (by decide)

theorem isPaddedDigits_decimalDigits (n : Nat) :
    Plain.isPaddedDigits (Number.decimalDigits n) = false := by
  obtain ⟨c, cs, hcs⟩ := List.exists_cons_of_ne_nil (Number.decimalDigits_ne_nil n)
  by_cases hzero : c = '0'
  · obtain rfl : n = 0 := Number.eq_zero_of_head_decimalDigits (by rw [hcs, hzero]; rfl)
    decide
  · obtain ⟨hminus, hplus⟩ := ne_sign_of_decimalDigits hcs
    have hsign : Number.Literal.splitSign (c :: cs) = (false, c :: cs) := by
      simp [Number.Literal.splitSign, hminus, hplus]
    rw [hcs, Plain.isPaddedDigits, hsign]
    simp [hzero]

theorem baseOf_decimalDigits (n : Nat) : Plain.baseOf (Number.decimalDigits n) = none := by
  obtain ⟨c, cs, hcs⟩ := List.exists_cons_of_ne_nil (Number.decimalDigits_ne_nil n)
  by_cases hzero : c = '0'
  · obtain rfl : n = 0 := Number.eq_zero_of_head_decimalDigits (by rw [hcs, hzero]; rfl)
    rfl
  · rw [hcs, Plain.baseOf]
    all_goals simp [hzero]

theorem unsigned?_decimalDigits {n limit : Nat} (h : n < limit) :
    Plain.unsigned? limit (Number.decimalDigits n) = some n := by
  obtain ⟨c, cs, hcs⟩ := List.exists_cons_of_ne_nil (Number.decimalDigits_ne_nil n)
  have hplus : Plain.dropPlus (Number.decimalDigits n) = Number.decimalDigits n := by
    rw [hcs, Plain.dropPlus]
    simp [(ne_sign_of_decimalDigits hcs).2]
  simp [Plain.unsigned?, Plain.magnitude?, isPaddedDigits_decimalDigits, hplus,
    baseOf_decimalDigits, Number.whole?_decimalDigits, h]

theorem readsAs_count (expected : String) {n : Nat} (h : n < Shape.countLimit) :
    ReadsAs (scalar doc expected acceptCount) (.count n) := by
  have hcontents : Yaml.contents (Datum.count n) = [.scalar none .plain (toString (n : Int))] := by
    simp [Yaml.contents, atom?, Datum.count]
  apply readsAs_scalar hcontents
  have hcount : Plain.unsigned? Shape.countLimit (toString (n : Int)).toList = some n := by
    rw [Number.toString_natCast, unsigned?_decimalDigits h]
  simp only [acceptCount, mayMean, hcount]
  rfl

/-! ### The start of a node -/

def opensNode : Content → Bool
  | .scalar none _ _ | .listStart none | .tableStart none => true
  | _ => false

theorem contents_eq_cons (d : Datum) :
    ∃ c cs, Yaml.contents d = c :: cs ∧ opensNode c := by
  unfold Yaml.contents
  split
  · exact ⟨_, _, rfl, rfl⟩
  · exact ⟨_, _, rfl, rfl⟩
  · exact ⟨_, _, rfl, rfl⟩
  · exact ⟨_, _, rfl, rfl⟩

theorem ne_reference_of_opensNode {c : Content} (h : opensNode c) (target : Nat) :
    c ≠ .reference target := by
  rintro rfl
  simp [opensNode] at h

/-! ### Choices and options -/

theorem choice_eq {variants : List String} {s : String} (hs : s ∈ variants) (style : Style)
    (place : Place) (route : Route) (rest : List PlacedContent) (followed : Nat) :
    choice doc variants route ⟨⟨.scalar none style s, place⟩ :: rest, followed⟩ =
      .ok (.text s, ⟨rest, followed⟩) := by
  unfold choice
  rw [visit_eq (by simp)]
  simp [tagOf, variantTag?, hs]

theorem readsAs_choice {variants : List String} {s : String} (hs : s ∈ variants) :
    ReadsAs (choice doc variants) (.text s) := by
  intro xs hxs route rest followed
  rw [Yaml.contents] at hxs
  obtain ⟨place, rfl⟩ := exists_of_map_content_eq_singleton hxs
  exact choice_eq hs _ place route rest followed

theorem readsAs_optional_null (inner : NodeReader Datum) : ReadsAs (optional doc inner) .null := by
  intro xs hxs route rest followed
  rw [Yaml.contents] at hxs
  · obtain ⟨place, rfl⟩ := exists_of_map_content_eq_singleton hxs
    unfold optional
    rw [List.singleton_append, visit_eq (by simp)]
    rfl
  all_goals simp

theorem isNothing_decimalDigits (n : Nat) :
    isNothing ⟨none, .plain, toString (n : Int)⟩ = .ok false := by
  have hdigits : ∀ word : String, toString (n : Int) = word →
      word.toList ≠ [] ∧ word.toList.all Text.isAsciiDigit := by
    rintro word rfl
    rw [Number.toString_natCast, List.all_eq_true]
    exact ⟨Number.decimalDigits_ne_nil n, fun c => Number.isAsciiDigit_of_mem_decimalDigits⟩
  have hempty : toString (n : Int) ≠ "" := fun h => (hdigits _ h).1 rfl
  have hword : Plain.isNullWord (toString (n : Int)) = false := by
    simp only [Plain.isNullWord, Bool.or_eq_false_iff, beq_eq_false_iff_ne]
    refine ⟨⟨⟨?_, ?_⟩, ?_⟩, ?_⟩
    all_goals
      intro h
      exact absurd (hdigits _ h).2 (by decide)
  have hnull : ((toString (n : Int)).isEmpty || Plain.isNullWord (toString (n : Int))) = false := by
    rw [hword, Bool.or_false]
    simpa using hempty
  exact congrArg Except.ok hnull

theorem isNothing_text (s : String) : isNothing ⟨none, Style.ofText s, s⟩ = .ok false := by
  rcases style_cases s with ⟨hstyle, -, htext⟩ | ⟨hstyle, -⟩ | hstyle | ⟨hstyle, -⟩
  · have hnull : (s.isEmpty || Plain.isNullWord s) = false := by
      by_contra h
      have hread : Plain.read s = .null := by
        unfold Plain.read
        rw [if_pos (by simpa only [Bool.not_eq_false] using h)]
      rw [Plain.readsAsText, hread] at htext
      exact absurd htext (by simp)
    rw [hstyle]
    exact congrArg Except.ok hnull
  all_goals
    rw [hstyle]
    rfl

theorem isNothing_eq_false {style : Style} {text : String} {cs : List Content} (h : Regular d)
    (hnull : d ≠ .null) (hcontents : Yaml.contents d = .scalar none style text :: cs) :
    isNothing ⟨none, style, text⟩ = .ok false := by
  cases h with
  | null => exact absurd rfl hnull
  | flag b =>
      obtain ⟨⟨rfl, rfl⟩, -⟩ : (Style.plain = style ∧ (if b then "true" else "false") = text) ∧
          [] = cs := by
        simpa [Yaml.contents, atom?] using hcontents
      cases b <;> rfl
  | count n =>
      obtain ⟨⟨rfl, rfl⟩, -⟩ : (Style.plain = style ∧ toString (n : Int) = text) ∧ [] = cs := by
        simpa [Yaml.contents, atom?, Datum.count] using hcontents
      exact isNothing_decimalDigits n
  | text s =>
      obtain ⟨⟨rfl, rfl⟩, -⟩ : (Style.ofText s = style ∧ s = text) ∧ [] = cs := by
        simpa [Yaml.contents] using hcontents
      exact isNothing_text s
  | list h => simp [Yaml.contents] at hcontents
  | table hkeys h => simp [Yaml.contents] at hcontents

theorem readsAs_optional {inner : NodeReader Datum} (hd : Regular d) (h : ReadsAs inner d)
    (hnull : d ≠ .null) : ReadsAs (optional doc inner) d := by
  intro xs hxs route rest followed
  have hread := h xs hxs route rest followed
  obtain ⟨c, cs, hcontents, hopens⟩ := contents_eq_cons d
  rw [hcontents] at hxs
  obtain ⟨⟨content, place⟩, more, rfl, rfl, hmore⟩ := List.map_eq_cons_iff.1 hxs
  unfold optional
  rw [List.cons_append, visit_eq (ne_reference_of_opensNode hopens)]
  rw [List.cons_append] at hread
  cases content with
  | scalar tag style text =>
      cases tag with
      | some tag => simp [opensNode] at hopens
      | none =>
          have hnothing := isNothing_eq_false hd hnull hcontents
          simp only [hnothing]
          exact hread
  | listStart tag => exact hread
  | tableStart tag => exact hread
  | listEnd => simp [opensNode] at hopens
  | tableEnd => simp [opensNode] at hopens
  | reference target => simp [opensNode] at hopens
  | void => simp [opensNode] at hopens

/-! ### Lists -/

variable {item value : NodeReader Datum} {route : Route} {rest xs : List PlacedContent}
  {fuel followed : Nat} {x : PlacedContent}

theorem items_of_opensNode {found : List Datum} (hx : opensNode x.content) :
    Document.items doc item route (fuel + 1) found ⟨x :: rest, followed⟩ =
      (do
        let (d, r) ← item (.item route found.length) ⟨x :: rest, followed⟩
        Document.items doc item route fuel (d :: found) r) := by
  obtain ⟨content, place⟩ := x
  cases content with
  | listEnd => simp [opensNode] at hx
  | _ => rfl

theorem items_eq {ds : List Datum} (h : ∀ d ∈ ds, ReadsAs item d) (found : List Datum)
    (hxs : xs.map (·.content) = itemContents ds ++ [.listEnd]) (hfuel : xs.length ≤ fuel) :
    Document.items doc item route fuel found ⟨xs ++ rest, followed⟩ =
      .ok (found.reverse ++ ds, ⟨rest, followed⟩) := by
  induction ds generalizing xs found fuel with
  | nil =>
      obtain ⟨place, rfl⟩ := exists_of_map_content_eq_singleton hxs
      obtain ⟨fuel, rfl⟩ := Nat.exists_eq_add_of_le' hfuel
      rw [List.append_nil]
      rfl
  | cons d ds ih =>
      rw [itemContents, List.append_assoc] at hxs
      obtain ⟨ys, zs, rfl, hys, hzs⟩ := List.map_eq_append_iff.1 hxs
      have hread := h d (by simp) ys hys (.item route found.length) (zs ++ rest) followed
      obtain ⟨c, cs, hcontents, hopens⟩ := contents_eq_cons d
      rw [hcontents] at hys
      obtain ⟨y, more, rfl, rfl, -⟩ := List.map_eq_cons_iff.1 hys
      obtain ⟨fuel, rfl⟩ : ∃ k, fuel = k + 1 := ⟨fuel - 1, by simp at hfuel; omega⟩
      rw [List.cons_append] at hread
      rw [List.append_assoc, List.cons_append, items_of_opensNode hopens, hread]
      refine (ih (fun e he => h e (by simp [he])) (d :: found) hzs ?_).trans ?_
      · simp at hfuel
        omega
      · simp

theorem readsAs_list {ds : List Datum} (h : ∀ d ∈ ds, ReadsAs item d) :
    ReadsAs (list doc item) (.list ds) := by
  intro xs hxs route rest followed
  rw [Yaml.contents] at hxs
  obtain ⟨place, more, rfl, hmore⟩ := exists_of_map_content_eq_cons hxs
  have hitems := @items_eq doc item route rest more (more ++ rest).length followed ds h [] hmore
    (by simp)
  unfold list
  rw [List.cons_append, visit_eq (by simp)]
  simp only [hitems]
  rfl

/-! ### Tables with given keys -/

theorem entries_of_key {keys : List String} {found : List (String × Datum)} {key : String}
    {place : Place} (hkey : key ∈ keys) :
    Document.entries doc keys value route (fuel + 1) found
        ⟨⟨.scalar none .plain key, place⟩ :: rest, followed⟩ =
      (do
        let (d, r) ← value (.key route key) ⟨rest, followed⟩
        Document.entries doc keys value route fuel ((key, d) :: found) r) := by
  rw [Document.entries]
  simp only [choice_eq hkey]
  rfl

theorem entries_eq {keys : List String} {es : List (String × Datum)}
    (h : ∀ e ∈ es, e.1 ∈ keys ∧ ReadsAs value e.2) (found : List (String × Datum))
    (hxs : xs.map (·.content) = entryContents es ++ [.tableEnd]) (hfuel : xs.length ≤ fuel) :
    Document.entries doc keys value route fuel found ⟨xs ++ rest, followed⟩ =
      .ok (found.reverse ++ es, ⟨rest, followed⟩) := by
  induction es generalizing xs found fuel with
  | nil =>
      obtain ⟨place, rfl⟩ := exists_of_map_content_eq_singleton hxs
      obtain ⟨fuel, rfl⟩ := Nat.exists_eq_add_of_le' hfuel
      rw [List.append_nil]
      rfl
  | cons e es ih =>
      obtain ⟨key, d⟩ := e
      rw [entryContents, List.cons_append, List.append_assoc] at hxs
      obtain ⟨place, more, rfl, hmore⟩ := exists_of_map_content_eq_cons hxs
      obtain ⟨ys, zs, rfl, hys, hzs⟩ := List.map_eq_append_iff.1 hmore
      obtain ⟨hkey, hvalue⟩ := h (key, d) (by simp)
      have hread := hvalue ys hys (.key route key) (zs ++ rest) followed
      obtain ⟨fuel, rfl⟩ : ∃ k, fuel = k + 1 := ⟨fuel - 1, by simp at hfuel; omega⟩
      rw [List.cons_append, List.append_assoc, entries_of_key hkey, hread]
      refine (ih (fun f hf => h f (by simp [hf])) ((key, d) :: found) hzs ?_).trans ?_
      · simp at hfuel
        omega
      · simp

theorem readsAs_keyed {keys : List String} {es : List (String × Datum)}
    (h : ∀ e ∈ es, e.1 ∈ keys ∧ ReadsAs value e.2) :
    ReadsAs (keyed doc keys value) (.table es) := by
  intro xs hxs route rest followed
  rw [Yaml.contents] at hxs
  obtain ⟨place, more, rfl, hmore⟩ := exists_of_map_content_eq_cons hxs
  have hentries := @entries_eq doc value route rest more (more ++ rest).length followed keys es h
    [] hmore (by simp)
  unfold keyed
  rw [List.cons_append, visit_eq (by simp)]
  simp only [hentries]
  rfl

/-! ### Records -/

variable {readers : List FieldReader} {es found : List (String × Datum)}

def ReadFields (readers : List FieldReader) (es : List (String × Datum)) : Prop :=
  List.Forall₂ (fun reader e => reader.key = e.1 ∧ ReadsAs reader.value e.2) readers es

theorem fieldsIn_of_key {key : String} {place : Place} {reader : FieldReader}
    (hreader : readers.find? (·.key == key) = some reader) (hfound : found.lookup key = none) :
    fieldsIn doc readers route (fuel + 1) found
        ⟨⟨.scalar none .plain key, place⟩ :: rest, followed⟩ =
      (do
        let (d, r) ← reader.value (.key route key) ⟨rest, followed⟩
        fieldsIn doc readers route fuel ((key, d) :: found) r) := by
  have hkey := @scalar_eq doc (.text key) "field identifier" acceptText none .plain key rfl place
    route rest followed
  have htext : (Datum.text key).toText?.getD "" = key := rfl
  rw [fieldsIn]
  simp only [hkey, Outcome.ok_bind, htext, hreader, hfound]
  rfl

theorem fieldsIn_eq (hkeys : (es.map Prod.fst).Nodup)
    (h : ∀ e ∈ es, ∃ reader, readers.find? (·.key == e.1) = some reader ∧ ReadsAs reader.value e.2)
    (hfound : ∀ e ∈ es, found.lookup e.1 = none)
    (hxs : xs.map (·.content) = entryContents es ++ [.tableEnd]) (hfuel : xs.length ≤ fuel) :
    fieldsIn doc readers route fuel found ⟨xs ++ rest, followed⟩ =
      .ok (es.reverse ++ found, ⟨rest, followed⟩) := by
  induction es generalizing xs found fuel with
  | nil =>
      obtain ⟨place, rfl⟩ := exists_of_map_content_eq_singleton hxs
      obtain ⟨fuel, rfl⟩ := Nat.exists_eq_add_of_le' hfuel
      rfl
  | cons e es ih =>
      obtain ⟨key, d⟩ := e
      rw [entryContents, List.cons_append, List.append_assoc] at hxs
      obtain ⟨place, more, rfl, hmore⟩ := exists_of_map_content_eq_cons hxs
      obtain ⟨ys, zs, rfl, hys, hzs⟩ := List.map_eq_append_iff.1 hmore
      obtain ⟨reader, hreader, hvalue⟩ := h (key, d) (by simp)
      have hread := hvalue ys hys (.key route key) (zs ++ rest) followed
      obtain ⟨fuel, rfl⟩ : ∃ k, fuel = k + 1 := ⟨fuel - 1, by simp at hfuel; omega⟩
      rw [List.cons_append, List.append_assoc,
        fieldsIn_of_key hreader (hfound (key, d) (by simp)), hread]
      refine (ih (List.nodup_cons.1 hkeys).2 (fun f hf => h f (by simp [hf]))
        (lookup_cons_eq_none hkeys hfound) hzs ?_).trans ?_
      · simp at hfuel
        omega
      · simp

theorem complete_eq (h : ReadFields readers es) (hfound : ∀ e ∈ es, found.lookup e.1 = some e.2) :
    complete found readers = .ok es := by
  induction h with
  | nil => rfl
  | @cons reader e readers es hread _ ih =>
      rw [complete, hread.1, hfound e (by simp), ih fun f hf => hfound f (by simp [hf])]
      rfl

theorem readsAs_record {name : String} (h : ReadFields readers es)
    (hkeys : (es.map Prod.fst).Nodup) : ReadsAs (record doc name readers) (.table es) := by
  intro xs hxs route rest followed
  rw [Yaml.contents] at hxs
  obtain ⟨place, more, rfl, hmore⟩ := exists_of_map_content_eq_cons hxs
  have hfields := @fieldsIn_eq doc route rest more (more ++ rest).length followed readers es []
    hkeys (find?_of_forall₂ h hkeys) (by simp) hmore (by simp)
  rw [List.append_nil] at hfields
  have hcomplete : complete es.reverse readers = .ok es :=
    complete_eq h fun e he => lookup_reverse_of_mem hkeys he
  unfold record
  rw [List.cons_append, visit_eq (by simp)]
  simp only [hfields, Outcome.ok_bind, hcomplete]
  rfl

end Document
end Yaml
end DocClaims
