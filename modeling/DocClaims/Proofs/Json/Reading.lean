import DocClaims.Proofs.Data.Fits
import DocClaims.Proofs.Json.Scalars

/-!
# Reading lists and tables

The parts of a list or table are set apart by blanks and commas. Whatever the blanks are, the
readers read a list, a table with given keys or a record when the readers of its parts read
the parts.
-/

namespace DocClaims
namespace Json

variable {c : Char} {k : Kind} {p fuel : Nat} {rest blanks : Text.Bytes}

/-! ### Layouts -/

/-- The parts of a list or table, each behind a gap, with commas between them. -/
def joined (gap : List Char) (isFirst : Bool) : List (List Char) → List Char
  | [] => []
  | part :: parts =>
      (if isFirst then [] else [',']) ++ (gap ++ (part ++ joined gap false parts))

/-- The blanks before each part of a list or table, behind the colon of an entry and before
the end. -/
structure Layout where
  gap : List Char
  space : List Char
  closing : List Char
  isBlank_gap : ∀ b ∈ bytesOf gap, Cursor.isBlank b
  isBlank_space : ∀ b ∈ bytesOf space, Cursor.isBlank b
  isBlank_closing : ∀ b ∈ bytesOf closing, Cursor.isBlank b
  endsValue : ∀ c ∈ stops, ∀ rest, EndsValue (bytesOf closing ++ byteOf c :: rest)

namespace Layout

variable (l : Layout)

def entry (key : String) (text : List Char) : List Char :=
  quotedText key ++ ':' :: (l.space ++ text)

def brackets (opener closer : Char) (parts : List (List Char)) : List Char :=
  opener :: (joined l.gap true parts ++ (l.closing ++ [closer]))

def list (items : List (List Char)) : List Char := l.brackets '[' ']' items

def table (entries : List (List Char)) : List Char := l.brackets '\x7b' '\x7d' entries

end Layout

def comma (isFirst : Bool) : Text.Bytes := if isFirst then [] else [byteOf ',']

theorem bytesOf_joined (gap : List Char) (isFirst : Bool) (part : List Char)
    (parts : List (List Char)) :
    bytesOf (joined gap isFirst (part :: parts)) =
      comma isFirst ++ (bytesOf gap ++ (bytesOf part ++ bytesOf (joined gap false parts))) := by
  rw [joined, bytesOf_append, bytesOf_append, bytesOf_append]
  cases isFirst <;> rfl

theorem endsValue_joined {gap : List Char} {parts : List (List Char)} (h : EndsValue rest) :
    EndsValue (bytesOf (joined gap false parts) ++ rest) := by
  cases parts with
  | nil => exact h
  | cons part parts =>
      rw [bytesOf_joined]
      exact endsValue_stop (by decide)

theorem length_le_length_joined {gap : List Char} {isFirst : Bool} {parts : List (List Char)}
    (h : ∀ part ∈ parts, part ≠ []) : parts.length ≤ (joined gap isFirst parts).length := by
  induction parts generalizing isFirst with
  | nil => exact Nat.zero_le _
  | cons part parts ih =>
      have hpart := List.length_pos_iff.2 (h part (by simp))
      have hrest := @ih false fun part hpart => h part (by simp [hpart])
      rw [joined]
      simp only [List.length_append, List.length_cons]
      omega

theorem bytesOf_brackets (l : Layout) {opener closer : Char} (hopener : isAscii opener)
    (hcloser : isAscii closer) (parts : List (List Char)) :
    bytesOf (l.brackets opener closer parts) ++ rest =
      byteOf opener :: (bytesOf (joined l.gap true parts) ++
        (bytesOf l.closing ++ byteOf closer :: rest)) := by
  rw [Layout.brackets, bytesOf_cons hopener, bytesOf_append, bytesOf_append, bytesOf_cons hcloser]
  simp

/-- The bytes of brackets are more than what stands in them. -/
theorem length_lt_brackets {gap : List Char} {parts : List (List Char)}
    (h : ∀ part ∈ parts, part ≠ []) (opener : UInt8) (tail : Text.Bytes) :
    parts.length < (opener :: (bytesOf (joined gap true parts) ++ tail)).length + 1 := by
  have hparts := @length_le_length_joined gap true parts h
  have hbytes := length_le_length_bytesOf (joined gap true parts)
  rw [List.length_cons, List.length_append]
  omega

/-! ### Lists -/

theorem Begins.ne_closing (h : Begins c k) : c ≠ ']' := by
  rintro rfl
  have hnone : kindOf ']' = none := by decide
  rw [h.kind] at hnone
  cases hnone

theorem nextItem_eq (h : Begins c k) (hblanks : ∀ b ∈ blanks, Cursor.isBlank b) (isFirst : Bool) :
    ∃ q, nextItem isFirst ⟨p, comma isFirst ++ (blanks ++ byteOf c :: rest)⟩ =
      .ok (true, ⟨q, byteOf c :: rest⟩) := by
  have hskip (p : Nat) := @Cursor.skipBlanks_eq c p rest blanks hblanks h.not_isBlank
  cases isFirst with
  | true =>
      refine ⟨p + blanks.length, ?_⟩
      rw [comma, if_pos rfl, List.nil_append, nextItem, hskip]
      simp only [Cursor.head?_byteOf h.isAscii]
      split
      · next heq => cases heq
      · next heq => exact absurd (Option.some.inj heq) h.ne_closing
      · rfl
  | false =>
      refine ⟨p + 1 + blanks.length, ?_⟩
      have hat : Cursor.isAt ⟨p + 1 + blanks.length, byteOf c :: rest⟩ ']' = false := by
        rw [Cursor.isAt_byteOf h.isAscii]
        exact beq_eq_false_iff_ne.2 h.ne_closing
      rw [comma, if_neg (by simp), List.singleton_append, nextItem,
        Cursor.skipBlanks_byteOf (by decide)]
      have hhead : Cursor.head? ⟨p, byteOf ',' :: (blanks ++ byteOf c :: rest)⟩ = some ',' :=
        Cursor.head?_byteOf (by decide)
      simp [hhead, hskip, hat]

theorem nextItem_end (hblanks : ∀ b ∈ blanks, Cursor.isBlank b) (isFirst : Bool) :
    ∃ q, nextItem isFirst ⟨p, blanks ++ byteOf ']' :: rest⟩ =
      .ok (false, ⟨q, byteOf ']' :: rest⟩) := by
  have hskip := @Cursor.skipBlanks_eq ']' p rest blanks hblanks (by decide)
  refine ⟨p + blanks.length, ?_⟩
  rw [nextItem, hskip]
  rfl

/-- The text begins as that of a value. -/
def BeginsValue (text : List Char) : Prop := ∃ c cs k, text = c :: cs ∧ Begins c k

theorem BeginsValue.ne_nil {text : List Char} (h : BeginsValue text) : text ≠ [] := by
  obtain ⟨c, cs, k, rfl, -⟩ := h
  exact List.cons_ne_nil c cs

section

variable {l : Layout} {text : Datum → List Char} {kept : Datum → Datum}

theorem items_eq {item : Reader Datum} {ds before : List Datum}
    (h : ∀ d ∈ ds, BeginsValue (text d) ∧ Reads item (text d) (kept d))
    (hfuel : ds.length < fuel) :
    ∃ q, items item fuel before
        ⟨p, bytesOf (joined l.gap before.isEmpty (ds.map text)) ++
          (bytesOf l.closing ++ byteOf ']' :: rest)⟩ =
      .ok (before.reverse ++ ds.map kept, ⟨q, rest⟩) := by
  induction ds generalizing before p fuel with
  | nil =>
      obtain ⟨fuel, rfl⟩ := Nat.exists_eq_add_of_lt hfuel
      obtain ⟨q, hq⟩ := @nextItem_end p rest _ l.isBlank_closing before.isEmpty
      refine ⟨q + 1, ?_⟩
      rw [List.map_nil, joined, bytesOf_nil, List.nil_append, items, hq]
      simp
  | cons d ds ih =>
      obtain ⟨fuel, rfl⟩ : ∃ k, fuel = k + 1 := ⟨fuel - 1, by omega⟩
      obtain ⟨⟨c, cs, k, htext, hc⟩, hread⟩ := h d (by simp)
      rw [List.map_cons, bytesOf_joined]
      generalize hlater : bytesOf (joined l.gap false (ds.map text)) ++
        (bytesOf l.closing ++ byteOf ']' :: rest) = later
      have hstop : EndsValue later :=
        hlater ▸ endsValue_joined (l.endsValue ']' (by decide) rest)
      have hbytes : bytesOf (text d) ++ later = byteOf c :: (bytesOf cs ++ later) := by
        rw [htext, bytesOf_cons hc.isAscii, List.cons_append]
      obtain ⟨q, hq⟩ := @nextItem_eq c k p (bytesOf cs ++ later) (bytesOf l.gap) hc
        l.isBlank_gap before.isEmpty
      obtain ⟨q', hq'⟩ := hread q [] later (by simp) hstop
      obtain ⟨q'', hq''⟩ := @ih q' fuel (kept d :: before) (fun e he => h e (by simp [he]))
        (by simpa using hfuel)
      refine ⟨q'', ?_⟩
      rw [← hbytes] at hq
      rw [List.append_assoc, List.append_assoc, List.append_assoc, hlater, items, hq,
        Outcome.ok_bind]
      rw [List.nil_append] at hq'
      rw [List.isEmpty_cons, hlater] at hq''
      simp only [hq', if_true, Outcome.ok_bind]
      rw [hq'']
      simp

/-- Behind the opening bracket the items of a list are read. -/
theorem items_list {item : Reader Datum} {ds : List Datum}
    (h : ∀ d ∈ ds, BeginsValue (text d) ∧ Reads item (text d) (kept d)) (rest : Text.Bytes) :
    ∃ body, bytesOf (l.list (ds.map text)) ++ rest = byteOf '[' :: body ∧
      ∀ p, ∃ q, items item ((byteOf '[' :: body).length + 1) [] ⟨p, body⟩ =
        .ok (ds.map kept, ⟨q, rest⟩) := by
  refine ⟨_, bytesOf_brackets l (by decide) (by decide) _, fun p => ?_⟩
  refine @items_eq p _ rest l text kept item ds [] h ?_
  rw [← List.length_map text]
  refine length_lt_brackets ?_ _ _
  intro part hpart
  obtain ⟨d, hd, rfl⟩ := List.mem_map.1 hpart
  exact (h d hd).1.ne_nil

theorem begins_bracket : Begins '[' .list := ⟨by decide, by decide⟩

theorem reads_list {item : Reader Datum} {ds : List Datum}
    (h : ∀ d ∈ ds, BeginsValue (text d) ∧ Reads item (text d) (kept d)) :
    Reads (list item) (l.list (ds.map text)) (.list (ds.map kept)) := by
  intro p blanks rest hblanks _
  obtain ⟨body, hbody, hitems⟩ := @items_list l text kept item ds h rest
  obtain ⟨q, hq⟩ := hitems (p + blanks.length + 1)
  refine ⟨q, ?_⟩
  rw [hbody, list, opening_eq begins_bracket hblanks, Outcome.ok_bind]
  simp only [Cursor.next_cons, hq]
  rfl

end

/-! ### Tables with given keys -/

theorem nextKey_eq (hblanks : ∀ b ∈ blanks, Cursor.isBlank b) (isFirst : Bool) :
    ∃ q, nextKey isFirst ⟨p, comma isFirst ++ (blanks ++ byteOf '"' :: rest)⟩ =
      .ok (true, ⟨q, byteOf '"' :: rest⟩) := by
  have hskip (p : Nat) := @Cursor.skipBlanks_eq '"' p rest blanks hblanks (by decide)
  cases isFirst with
  | true =>
      refine ⟨p + blanks.length, ?_⟩
      rw [comma, if_pos rfl, List.nil_append, nextKey, hskip]
      rfl
  | false =>
      refine ⟨p + 1 + blanks.length, ?_⟩
      rw [comma, if_neg (by simp), List.singleton_append, nextKey,
        Cursor.skipBlanks_byteOf (by decide)]
      have hhead : Cursor.head? ⟨p, byteOf ',' :: (blanks ++ byteOf '"' :: rest)⟩ = some ',' :=
        Cursor.head?_byteOf (by decide)
      have hat : Cursor.isAt ⟨p + 1 + blanks.length, byteOf '"' :: rest⟩ '"' = true := rfl
      simp [hhead, hskip, hat]

theorem nextKey_end (hblanks : ∀ b ∈ blanks, Cursor.isBlank b) (isFirst : Bool) :
    ∃ q, nextKey isFirst ⟨p, blanks ++ byteOf '\x7d' :: rest⟩ =
      .ok (false, ⟨q, byteOf '\x7d' :: rest⟩) := by
  have hskip := @Cursor.skipBlanks_eq '\x7d' p rest blanks hblanks (by decide)
  refine ⟨p + blanks.length, ?_⟩
  rw [nextKey, hskip]
  rfl

theorem colon_eq : colon ⟨p, byteOf ':' :: rest⟩ = .ok ((), ⟨p + 1, rest⟩) := by
  rw [colon, Cursor.skipBlanks_byteOf (by decide)]
  rfl

section

variable {l : Layout} {text : Datum → List Char} {kept : Datum → Datum}
  {es before : List (String × Datum)}

/-- The parts of a table that has the entries. -/
def entryTexts (l : Layout) (text : Datum → List Char) (es : List (String × Datum)) :
    List (List Char) := es.map fun e => l.entry e.1 (text e.2)

/-- The entries as they are read. -/
def keptEntries (kept : Datum → Datum) (es : List (String × Datum)) : List (String × Datum) :=
  es.map fun e => (e.1, kept e.2)

theorem bytesOf_entry (l : Layout) (key : String) (cs : List Char) :
    bytesOf (l.entry key cs) ++ rest =
      bytesOf (quotedText key) ++ byteOf ':' :: (bytesOf l.space ++ (bytesOf cs ++ rest)) := by
  rw [Layout.entry, bytesOf_append, bytesOf_cons (by decide), bytesOf_append]
  simp

/-- Before an entry its key is announced, and behind the colon its value is read. -/
theorem nextKey_entry {reader : Reader Datum} {cs : List Char} {d : Datum}
    (hread : Reads reader cs d) (hrest : EndsValue rest) (isFirst : Bool) (key : String)
    (parts : List (List Char)) :
    ∃ q behind, nextKey isFirst
        ⟨p, bytesOf (joined l.gap isFirst (l.entry key cs :: parts)) ++ rest⟩ =
          .ok (true, ⟨q, bytesOf (quotedText key) ++ byteOf ':' :: behind⟩) ∧
      ∀ q, ∃ q', reader ⟨q, behind⟩ =
        .ok (d, ⟨q', bytesOf (joined l.gap false parts) ++ rest⟩) := by
  generalize hlater : bytesOf (joined l.gap false parts) ++ rest = later
  have hstop : EndsValue later := hlater ▸ endsValue_joined hrest
  generalize hbehind : bytesOf l.space ++ (bytesOf cs ++ later) = behind
  obtain ⟨q, hq⟩ := @nextKey_eq p
    (bytesOf (key.toList.flatMap escape ++ ['"']) ++ byteOf ':' :: behind)
    (bytesOf l.gap) l.isBlank_gap isFirst
  rw [← List.cons_append, ← bytesOf_quotedText] at hq
  refine ⟨q, behind, ?_, ?_⟩
  · rw [bytesOf_joined, List.append_assoc, List.append_assoc, List.append_assoc, hlater,
      bytesOf_entry, hbehind]
    exact hq
  · intro q
    rw [← hbehind]
    exact hread q _ later l.isBlank_space hstop

/-- The reader reads the key of an entry and stops before the colon. -/
def ReadsKey (reader : Reader String) (key : String) : Prop :=
  ∀ p rest, ∃ q, reader ⟨p, bytesOf (quotedText key) ++ rest⟩ = .ok (key, ⟨q, rest⟩)

theorem entries_eq {name : Reader String} {reader : Reader Datum}
    (h : ∀ e ∈ es, ReadsKey name e.1 ∧ Reads reader (text e.2) (kept e.2))
    (hfuel : es.length < fuel) :
    ∃ q, entries name reader fuel before
        ⟨p, bytesOf (joined l.gap before.isEmpty (entryTexts l text es)) ++
          (bytesOf l.closing ++ byteOf '\x7d' :: rest)⟩ =
      .ok (before.reverse ++ keptEntries kept es, ⟨q, rest⟩) := by
  induction es generalizing before p fuel with
  | nil =>
      obtain ⟨fuel, rfl⟩ := Nat.exists_eq_add_of_lt hfuel
      obtain ⟨q, hq⟩ := @nextKey_end p rest _ l.isBlank_closing before.isEmpty
      refine ⟨q + 1, ?_⟩
      rw [entryTexts, List.map_nil, joined, bytesOf_nil, List.nil_append, entries, hq]
      simp [keptEntries]
  | cons e es ih =>
      obtain ⟨key, d⟩ := e
      obtain ⟨fuel, rfl⟩ : ∃ k, fuel = k + 1 := ⟨fuel - 1, by omega⟩
      obtain ⟨hkey, hread⟩ := h (key, d) (by simp)
      obtain ⟨q₁, behind, hnext, hvalue⟩ := @nextKey_entry p _ l reader _ _ hread
        (l.endsValue '\x7d' (by decide) rest) before.isEmpty key (entryTexts l text es)
      obtain ⟨q₂, hname⟩ := hkey q₁ (byteOf ':' :: behind)
      obtain ⟨q₃, hdatum⟩ := hvalue (q₂ + 1)
      obtain ⟨q₄, hrest⟩ := @ih q₃ fuel ((key, kept d) :: before)
        (fun f hf => h f (by simp [hf])) (by simpa using hfuel)
      refine ⟨q₄, ?_⟩
      rw [List.isEmpty_cons] at hrest
      have htexts : entryTexts l text ((key, d) :: es) =
          l.entry key (text d) :: entryTexts l text es := rfl
      rw [htexts, entries, hnext, Outcome.ok_bind]
      simp only [hname, colon_eq, hdatum, if_true, Outcome.ok_bind]
      rw [hrest]
      simp [keptEntries]

theorem entryTexts_ne_nil : ∀ part ∈ entryTexts l text es, part ≠ [] := by
  intro part hpart
  obtain ⟨e, -, rfl⟩ := List.mem_map.1 hpart
  simp [Layout.entry]

/-- Behind the opening bracket the entries of a table are read. -/
theorem entries_table {name : Reader String} {reader : Reader Datum}
    (h : ∀ e ∈ es, ReadsKey name e.1 ∧ Reads reader (text e.2) (kept e.2)) (rest : Text.Bytes) :
    ∃ body, bytesOf (l.table (entryTexts l text es)) ++ rest = byteOf '\x7b' :: body ∧
      ∀ p, ∃ q, entries name reader ((byteOf '\x7b' :: body).length + 1) [] ⟨p, body⟩ =
        .ok (keptEntries kept es, ⟨q, rest⟩) := by
  refine ⟨_, bytesOf_brackets l (by decide) (by decide) _, fun p => ?_⟩
  refine @entries_eq p _ rest l text kept es [] name reader h ?_
  have hlength : (entryTexts l text es).length = es.length := List.length_map ..
  rw [← hlength]
  exact length_lt_brackets entryTexts_ne_nil _ _

theorem begins_brace : Begins '\x7b' .table := ⟨by decide, by decide⟩

theorem readsKey_variantName {keys : List String} {key : String} (h : key ∈ keys) :
    ReadsKey (variantName keys) key := fun p rest => @variantName_eq [] keys key h (by simp) p rest

theorem reads_keyed {keys : List String} {reader : Reader Datum}
    (h : ∀ e ∈ es, e.1 ∈ keys ∧ Reads reader (text e.2) (kept e.2)) :
    Reads (keyed keys reader) (l.table (entryTexts l text es)) (.table (keptEntries kept es)) := by
  intro p blanks rest hblanks _
  obtain ⟨body, hbody, hentries⟩ := @entries_table l text kept es (variantName keys) reader
    (fun e he => ⟨readsKey_variantName (h e he).1, (h e he).2⟩) rest
  obtain ⟨q, hq⟩ := hentries (p + blanks.length + 1)
  refine ⟨q, ?_⟩
  rw [hbody, keyed, opening_eq begins_brace hblanks, Outcome.ok_bind]
  simp only [Cursor.next_cons, hq]
  rfl

/-! ### Records -/

variable {readers : List FieldReader}

/-- The readers read the entries, one by one. -/
def ReadFields (text : Datum → List Char) (kept : Datum → Datum) (readers : List FieldReader)
    (es : List (String × Datum)) : Prop :=
  List.Forall₂ (fun reader e => reader.key = e.1 ∧ Reads reader.value (text e.2) (kept e.2))
    readers es

theorem fieldsIn_eq {isFirst : Bool} (hkeys : (es.map Prod.fst).Nodup)
    (h : ∀ e ∈ es, ∃ reader, readers.find? (·.key == e.1) = some reader ∧
      Reads reader.value (text e.2) (kept e.2))
    (hbefore : ∀ e ∈ es, before.lookup e.1 = none) (hfuel : es.length < fuel) :
    ∃ q, fieldsIn readers fuel isFirst before
        ⟨p, bytesOf (joined l.gap isFirst (entryTexts l text es)) ++
          (bytesOf l.closing ++ byteOf '\x7d' :: rest)⟩ =
      .ok ((keptEntries kept es).reverse ++ before, ⟨q, rest⟩) := by
  induction es generalizing before p fuel isFirst with
  | nil =>
      obtain ⟨fuel, rfl⟩ := Nat.exists_eq_add_of_lt hfuel
      obtain ⟨q, hq⟩ := @nextKey_end p rest _ l.isBlank_closing isFirst
      refine ⟨q + 1, ?_⟩
      rw [entryTexts, List.map_nil, joined, bytesOf_nil, List.nil_append, fieldsIn, hq]
      rfl
  | cons e es ih =>
      obtain ⟨key, d⟩ := e
      obtain ⟨fuel, rfl⟩ : ∃ k, fuel = k + 1 := ⟨fuel - 1, by omega⟩
      obtain ⟨reader, hreader, hread⟩ := h (key, d) (by simp)
      have hnone : before.lookup key = none := hbefore (key, d) (by simp)
      obtain ⟨q₁, behind, hnext, hvalue⟩ := @nextKey_entry p _ l reader.value _ _ hread
        (l.endsValue '\x7d' (by decide) rest) isFirst key (entryTexts l text es)
      obtain ⟨q₂, hname⟩ := string_eq key (q₁ + 1) (byteOf ':' :: behind)
      obtain ⟨q₃, hdatum⟩ := hvalue (q₂ + 1)
      have hlater : ∀ e ∈ es, ((key, kept d) :: before).lookup e.1 = none := by
        refine @lookup_cons_eq_none key (kept d) es before hkeys fun e he => ?_
        rcases List.mem_cons.1 he with rfl | he
        · exact hnone
        · exact hbefore e (by simp [he])
      obtain ⟨q₄, hrest⟩ := @ih q₃ fuel ((key, kept d) :: before) false
        (List.nodup_cons.1 hkeys).2 (fun f hf => h f (by simp [hf])) hlater (by simpa using hfuel)
      refine ⟨q₄, ?_⟩
      rw [bytesOf_quotedText, List.cons_append] at hnext
      have htexts : entryTexts l text ((key, d) :: es) =
          l.entry key (text d) :: entryTexts l text es := rfl
      rw [htexts, fieldsIn, hnext, Outcome.ok_bind]
      simp only [Cursor.next_cons, hname, hreader, hnone, colon_eq, hdatum, Outcome.ok_bind]
      refine Eq.trans ?_ (hrest.trans ?_)
      · rfl
      · simp [keptEntries]

theorem complete_eq (h : ReadFields text kept readers es)
    (hbefore : ∀ e ∈ keptEntries kept es, before.lookup e.1 = some e.2) :
    complete before readers = .ok (keptEntries kept es) := by
  induction h with
  | nil => rfl
  | @cons reader e readers es hread _ ih =>
      have hfirst : before.lookup e.1 = some (kept e.2) := hbefore (e.1, kept e.2) (.head _)
      rw [complete, hread.1, hfirst, ih fun f hf => hbefore f (.tail _ hf)]
      rfl

/-- The fields of a record may be written in any order. -/
theorem reads_record {name : String} {written : List (String × Datum)}
    (h : ReadFields text kept readers es) (hkeys : (es.map Prod.fst).Nodup)
    (hperm : written.Perm es) :
    Reads (record name readers) (l.table (entryTexts l text written))
      (.table (keptEntries kept es)) := by
  intro p blanks rest hblanks _
  have hwritten : (written.map Prod.fst).Nodup := (hperm.map Prod.fst).nodup_iff.2 hkeys
  have hkept : ((keptEntries kept written).map Prod.fst).Nodup := by
    rwa [keptEntries, List.map_map]
  have hcomplete : complete (keptEntries kept written).reverse readers =
      .ok (keptEntries kept es) :=
    complete_eq h fun e he =>
      lookup_reverse_of_mem hkept ((hperm.map fun e => (e.1, kept e.2)).mem_iff.2 he)
  have hfound : ∀ e ∈ es, ∃ reader, readers.find? (·.key == e.1) = some reader ∧
      Reads reader.value (text e.2) (kept e.2) :=
    @find?_of_forall₂ FieldReader (·.key) (fun reader d => Reads reader.value (text d) (kept d))
      readers es h hkeys
  rw [Layout.table, bytesOf_brackets l (by decide) (by decide)]
  generalize hbody : bytesOf (joined l.gap true (entryTexts l text written)) ++
    (bytesOf l.closing ++ byteOf '\x7d' :: rest) = body
  have hlength : written.length < (byteOf '\x7b' :: body).length + 1 := by
    have htexts : (entryTexts l text written).length = written.length := List.length_map ..
    rw [← htexts, ← hbody]
    exact length_lt_brackets entryTexts_ne_nil _ _
  obtain ⟨q, hq⟩ := @fieldsIn_eq (p + blanks.length + 1) _ rest l text kept written [] readers true
    hwritten (fun e he => hfound e (hperm.mem_iff.1 he)) (by simp) hlength
  refine ⟨q, ?_⟩
  rw [hbody, List.append_nil] at hq
  rw [record, opening_eq begins_brace hblanks, Outcome.ok_bind]
  simp only [Cursor.next_cons, hq, Outcome.ok_bind, hcomplete]
  rfl

/-- A text that holds nothing else is read to its end. -/
theorem readWith_of_reads {reader : Reader Datum} {cs : List Char} {d : Datum}
    (h : Reads reader cs d) : readWith reader (bytesOf cs) = .ok d := by
  obtain ⟨q, hq⟩ := h 0 [] [] (by simp) endsValue_nil
  rw [List.nil_append, List.append_nil] at hq
  rw [readWith, Cursor.start, hq]
  rfl

end

/-! ### Values on lines of their own -/

theorem isBlank_newline (level : Nat) : ∀ b ∈ bytesOf (newline level), Cursor.isBlank b := by
  intro b hmem
  obtain ⟨c, hc, hb⟩ := List.mem_flatMap.1 hmem
  obtain rfl | rfl : c = '\n' ∨ c = ' ' := by
    rcases List.mem_cons.1 hc with h | h
    · exact .inl h
    · exact .inr (List.eq_of_mem_replicate h)
  all_goals exact List.all_eq_true.1 (by decide) b hb

/-- Parts of a value at the level stand on lines of their own, and so does its end unless
it is empty. -/
def Layout.lines (level : Nat) (isEmpty : Bool) : Layout where
  gap := newline (level + 1)
  space := [' ']
  closing := if isEmpty then [] else newline level
  isBlank_gap := isBlank_newline (level + 1)
  isBlank_space := List.all_eq_true.1 (by decide)
  isBlank_closing := by
    split
    · simp
    · exact isBlank_newline level
  endsValue c hc rest := by
    split
    · exact endsValue_stop hc
    · rw [newline, bytesOf_cons (by decide)]
      exact endsValue_stop (by decide)

theorem laterItems_eq (level : Nat) (ds : List Datum) :
    laterItems level ds = joined (newline level) false (ds.map (value level)) := by
  induction ds with
  | nil => rw [laterItems, List.map_nil, joined]
  | cons d ds ih =>
      rw [laterItems, List.map_cons, joined, ih]
      simp

theorem laterEntries_eq (level : Nat) (es : List (String × Datum)) :
    laterEntries level es = joined (newline level) false (es.map (entry level)) := by
  induction es with
  | nil => rw [laterEntries, List.map_nil, joined]
  | cons e es ih =>
      rw [laterEntries, List.map_cons, joined, ih]
      simp

theorem entry_eq (level : Nat) (isEmpty : Bool) (e : String × Datum) :
    entry (level + 1) e = (Layout.lines level isEmpty).entry e.1 (value (level + 1) e.2) := by
  obtain ⟨key, d⟩ := e
  rw [entry, Layout.entry, List.append_assoc]
  rfl

theorem value_list (level : Nat) (ds : List Datum) :
    value level (.list ds) =
      (Layout.lines level ds.isEmpty).list (ds.map (value (level + 1))) := by
  cases ds with
  | nil => rw [value]; rfl
  | cons d ds =>
      rw [value, laterItems_eq, Layout.list, Layout.brackets, List.map_cons, joined]
      simp [Layout.lines]

theorem value_table (level : Nat) (es : List (String × Datum)) :
    value level (.table es) =
      (Layout.lines level es.isEmpty).table
        (entryTexts (.lines level es.isEmpty) (value (level + 1)) es) := by
  cases es with
  | nil => rw [value]; rfl
  | cons e es =>
      have htexts : entryTexts (.lines level false) (value (level + 1)) (e :: es) =
          (e :: es).map (entry (level + 1)) :=
        List.map_congr_left fun e _ => (entry_eq level false e).symm
      rw [value, laterEntries_eq, List.isEmpty_cons, htexts, Layout.table, Layout.brackets,
        List.map_cons, joined]
      simp [Layout.lines]

theorem BeginsAsValue.beginsValue {d : Datum} (h : BeginsAsValue d) (level : Nat) :
    BeginsValue (value level d) := by
  obtain ⟨c, cs, k, hvalue, hc, -⟩ := h level
  exact ⟨c, cs, k, hvalue, hc⟩

theorem keptEntries_id (es : List (String × Datum)) : keptEntries id es = es := List.map_id es

theorem readsBack_list {item : Reader Datum} {ds : List Datum}
    (h : ∀ d ∈ ds, BeginsAsValue d ∧ ReadsBack item d) : ReadsBack (list item) (.list ds) := by
  intro level
  have hread := @reads_list (.lines level ds.isEmpty) (value (level + 1)) id item ds fun d hd =>
    ⟨(h d hd).1.beginsValue _, (h d hd).2 _⟩
  rwa [List.map_id, ← value_list] at hread

theorem readsBack_keyed {keys : List String} {reader : Reader Datum} {es : List (String × Datum)}
    (h : ∀ e ∈ es, e.1 ∈ keys ∧ ReadsBack reader e.2) :
    ReadsBack (keyed keys reader) (.table es) := by
  intro level
  have hread := @reads_keyed (.lines level es.isEmpty) (value (level + 1)) id es keys reader
    fun e he => ⟨(h e he).1, (h e he).2 _⟩
  rwa [keptEntries_id, ← value_table] at hread

/-- The readers give the entries back, one by one. -/
def FieldsReadBack (readers : List FieldReader) (es : List (String × Datum)) : Prop :=
  List.Forall₂ (fun reader e => reader.key = e.1 ∧ ReadsBack reader.value e.2) readers es

theorem readsBack_record {name : String} {readers : List FieldReader}
    {es : List (String × Datum)} (h : FieldsReadBack readers es)
    (hkeys : (es.map Prod.fst).Nodup) : ReadsBack (record name readers) (.table es) := by
  intro level
  have hfields : ReadFields (value (level + 1)) id readers es :=
    List.Forall₂.imp (fun reader e hread => ⟨hread.1, hread.2 _⟩) h
  have hread := @reads_record (.lines level es.isEmpty) (value (level + 1)) id es readers name es
    hfields hkeys (.refl es)
  rwa [keptEntries_id, ← value_table] at hread

end Json
end DocClaims
