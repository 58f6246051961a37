import DocClaims.Json.Value
import DocClaims.Proofs.Json.Reading
import Mathlib.Data.List.Nodup

/-!
# Compact values

A value can be written on one line, without blanks. What reads values of any shape reads it
again, as far as lists and tables are not nested too deep, with the entries of its tables in
the order of their keys.
-/

namespace DocClaims
namespace Json

/-! ### Writing -/

def Layout.compact : Layout where
  gap := []
  space := []
  closing := []
  isBlank_gap := by simp
  isBlank_space := by simp
  isBlank_closing := by simp
  endsValue _ hc _ := endsValue_stop hc

mutual

/-- The text of a value without any blanks. -/
def compact : Datum → List Char
  | .list ds => Layout.compact.list (compactItems ds)
  | .table es => Layout.compact.table (compactEntries es)
  | d => value 0 d

def compactItems : List Datum → List (List Char)
  | [] => []
  | d :: ds => compact d :: compactItems ds

def compactEntries : List (String × Datum) → List (List Char)
  | [] => []
  | (key, d) :: es => Layout.compact.entry key (compact d) :: compactEntries es

end

theorem compactItems_eq (ds : List Datum) : compactItems ds = ds.map compact := by
  induction ds with
  | nil => rw [compactItems, List.map_nil]
  | cons d ds ih => rw [compactItems, List.map_cons, ih]

theorem compactEntries_eq (es : List (String × Datum)) :
    compactEntries es = entryTexts .compact compact es := by
  induction es with
  | nil => rw [compactEntries, entryTexts, List.map_nil]
  | cons e es ih =>
      obtain ⟨key, d⟩ := e
      rw [compactEntries, ih]
      rfl

theorem compact_null : compact .null = "null".toList := by
  rw [compact, value] <;> simp

theorem compact_flag (b : Bool) :
    compact (.flag b) = (if b then "true" else "false").toList := by
  rw [compact, value] <;> simp

theorem compact_text (s : String) : compact (.text s) = quotedText s := by
  rw [compact, value] <;> simp

theorem compact_count (m : Nat) : compact (.integer m) = Number.decimalDigits m := by
  rw [compact, value, Number.toString_natCast] <;> simp

theorem compact_list (ds : List Datum) :
    compact (.list ds) = Layout.compact.list (ds.map compact) := by
  rw [compact, compactItems_eq]

theorem compact_table (es : List (String × Datum)) :
    compact (.table es) = Layout.compact.table (entryTexts .compact compact es) := by
  rw [compact, compactEntries_eq]

/-! ### What is kept -/

mutual

/-- The value with the entries of its tables by key. -/
def kept : Datum → Datum
  | .list ds => .list (keptItems ds)
  | .table es => .table (byKey (keptPairs es))
  | d => d

def keptItems : List Datum → List Datum
  | [] => []
  | d :: ds => kept d :: keptItems ds

def keptPairs : List (String × Datum) → List (String × Datum)
  | [] => []
  | (key, d) :: es => (key, kept d) :: keptPairs es

end

theorem kept_list (ds : List Datum) : kept (.list ds) = .list (ds.map kept) := by
  have hitems : keptItems ds = ds.map kept := by
    induction ds with
    | nil => rw [keptItems, List.map_nil]
    | cons d ds ih => rw [keptItems, List.map_cons, ih]
  rw [kept, hitems]

theorem kept_table (es : List (String × Datum)) :
    kept (.table es) = .table (byKey (keptEntries kept es)) := by
  have hentries : keptPairs es = keptEntries kept es := by
    induction es with
    | nil => rw [keptPairs, keptEntries, List.map_nil]
    | cons e es ih =>
        obtain ⟨key, d⟩ := e
        rw [keptPairs, ih]
        rfl
  rw [kept, hentries]

theorem lastOfEach_eq {es : List (String × Datum)} (h : es.Pairwise (·.1 < ·.1)) :
    lastOfEach es = es := by
  induction es with
  | nil =>
      rw [lastOfEach]
      simp
  | cons e es ih =>
      obtain ⟨hfirst, hrest⟩ := List.pairwise_cons.1 h
      cases es with
      | nil =>
          rw [lastOfEach]
          simp
      | cons f es =>
          have hne : ¬(e.1 == f.1) = true := by
            rw [beq_iff_eq]
            intro heq
            exact String.lt_irrefl _ (heq ▸ hfirst f (by simp))
          rw [lastOfEach, if_neg hne, ih hrest]

/-- Entries whose keys differ are put in the order of their keys. -/
theorem byKey_eq_of_perm {es sorted : List (String × Datum)} (hperm : es.Perm sorted)
    (h : sorted.Pairwise (·.1 < ·.1)) : byKey es = sorted := by
  have hkeys : (sorted.map Prod.fst).Nodup := by
    rw [List.Nodup, List.pairwise_map]
    refine h.imp fun {a b} hlt heq => ?_
    exact String.lt_irrefl _ (heq ▸ hlt)
  have hall := (List.mergeSort_perm es fun a b => decide (a.1 ≤ b.1)).trans hperm
  have hsort : (es.mergeSort fun a b => decide (a.1 ≤ b.1)) = sorted := by
    refine hall.eq_of_pairwise ?_ (List.pairwise_mergeSort ?_ ?_ es) (h.imp ?_)
    · intro a b ha hb hle hge
      exact List.inj_on_of_nodup_map hkeys (hall.subset ha) hb
        (String.le_antisymm (by simpa using hle) (by simpa using hge))
    · intro a b c hab hbc
      simp only [decide_eq_true_eq] at hab hbc ⊢
      exact String.le_trans hab hbc
    · intro a b
      simpa using String.le_total a.1 b.1
    · intro a b hlt
      simpa using Std.le_of_lt hlt
  rw [byKey, hsort, lastOfEach_eq h]

/-! ### Reading -/

/-- At most `n` lists and tables within one another, and no numbers but whole ones that fit
in a word. -/
inductive Shallow : Nat → Datum → Prop
  | null {n : Nat} : Shallow n .null
  | flag {n : Nat} (b : Bool) : Shallow n (.flag b)
  | text {n : Nat} (s : String) : Shallow n (.text s)
  | count {n m : Nat} (h : m < wordLimit) : Shallow n (.integer m)
  | list {n : Nat} {ds : List Datum} (h : ∀ d ∈ ds, Shallow n d) : Shallow (n + 1) (.list ds)
  | table {n : Nat} {es : List (String × Datum)} (h : ∀ e ∈ es, Shallow n e.2) :
      Shallow (n + 1) (.table es)

variable {c : Char} {cs text : List Char} {k : Kind} {n p : Nat} {d : Datum}
  {blanks rest : Text.Bytes}

/-- A value that holds no others is read as a leaf, however deep it stands. -/
theorem reads_leaf (htext : text = c :: cs) (h : Begins c k) (hlist : k ≠ .list)
    (htable : k ≠ .table)
    (hleaf : ∀ p rest, EndsValue rest →
      ∃ q, leaf k ⟨p, bytesOf text ++ rest⟩ = .ok (d, ⟨q, rest⟩)) :
    BeginsValue text ∧ Reads (anything n) text d := by
  refine ⟨⟨c, cs, k, htext, h⟩, fun p blanks rest hblanks hrest => ?_⟩
  obtain ⟨q, hq⟩ := hleaf (p + blanks.length) rest hrest
  refine ⟨q, ?_⟩
  rw [htext, bytesOf_cons h.isAscii, List.cons_append] at hq ⊢
  cases n with
  | zero =>
      rw [anything]
      dsimp only
      rw [opening_eq h hblanks, Outcome.ok_bind]
      simp [hlist, htable, hq]
  | succ n =>
      rw [anything]
      dsimp only
      rw [opening_eq h hblanks, Outcome.ok_bind]
      cases k with
      | list => exact absurd rfl hlist
      | table => exact absurd rfl htable
      | null | yes | no | number | text => exact hq

/-- The value that a word stands for. -/
def wordValue : Found → Datum
  | .flag b => .flag b
  | _ => .null

theorem leaf_word {f : Found} {cur cur' : Cursor} (hnumber : k ≠ .number) (htext : k ≠ .text)
    (h : found k cur = .ok (f, cur')) : leaf k cur = .ok (wordValue f, cur') := by
  rw [leaf, h]
  · rfl
  · exact hnumber
  · exact htext

theorem reads_null : BeginsValue (compact .null) ∧ Reads (anything n) (compact .null) .null := by
  rw [compact_null]
  refine @reads_leaf 'n' "ull".toList _ .null n _ rfl ⟨by decide, by decide⟩ (by decide)
    (by decide) fun p rest _ => ?_
  obtain ⟨q, hq⟩ := found_null p rest
  exact ⟨q, leaf_word (by decide) (by decide) hq⟩

theorem reads_flag (b : Bool) :
    BeginsValue (compact (.flag b)) ∧ Reads (anything n) (compact (.flag b)) (.flag b) := by
  rw [compact_flag]
  cases b with
  | true =>
      refine @reads_leaf 't' "rue".toList _ .yes n _ rfl ⟨by decide, by decide⟩ (by decide)
        (by decide) fun p rest _ => ?_
      obtain ⟨q, hq⟩ := found_yes p rest
      exact ⟨q, leaf_word (by decide) (by decide) hq⟩
  | false =>
      refine @reads_leaf 'f' "alse".toList _ .no n _ rfl ⟨by decide, by decide⟩ (by decide)
        (by decide) fun p rest _ => ?_
      obtain ⟨q, hq⟩ := found_no p rest
      exact ⟨q, leaf_word (by decide) (by decide) hq⟩

theorem reads_text (s : String) :
    BeginsValue (compact (.text s)) ∧ Reads (anything n) (compact (.text s)) (.text s) := by
  rw [compact_text]
  refine @reads_leaf '"' (s.toList.flatMap escape ++ ['"']) _ .text n _ rfl begins_quote (by decide)
    (by decide) fun p rest _ => ?_
  obtain ⟨q, hq⟩ := string_eq s (p + 1) rest
  refine ⟨q, ?_⟩
  rw [bytesOf_quotedText, List.cons_append, leaf, Cursor.next_cons, hq]
  rfl

theorem reads_count {m : Nat} (hm : m < wordLimit) :
    BeginsValue (compact (.integer m)) ∧ Reads (anything n) (compact (.integer m)) (.integer m) := by
  rw [compact_count]
  obtain ⟨c, cs, hcs⟩ := List.exists_cons_of_ne_nil (Number.decimalDigits_ne_nil m)
  have hdigit := @Number.isAsciiDigit_of_mem_decimalDigits m c (by simp [hcs])
  refine reads_leaf hcs (begins_number hdigit) (by decide) (by decide) fun p rest hrest => ?_
  obtain ⟨q, hq⟩ := @signedNumeral_eq p rest m hm hrest
  refine ⟨q, ?_⟩
  rw [leaf, hq]
  rfl

theorem readsKey_string : ∀ key, ReadsKey (fun c => string c.next) key := by
  intro key p rest
  obtain ⟨q, hq⟩ := string_eq key (p + 1) rest
  refine ⟨q, ?_⟩
  rw [bytesOf_quotedText, List.cons_append]
  exact hq

/-- Values that are not nested too deep are read again. -/
theorem reads_anything (h : Shallow n d) :
    BeginsValue (compact d) ∧ Reads (anything n) (compact d) (kept d) := by
  induction h with
  | null => exact reads_null
  | flag b => exact reads_flag b
  | text s => exact reads_text s
  | count hm => exact reads_count hm
  | @list n ds _ ih =>
      rw [compact_list, kept_list]
      refine ⟨⟨_, _, .list, rfl, begins_bracket⟩, fun p blanks rest hblanks _ => ?_⟩
      obtain ⟨body, hbody, hread⟩ := items_list (l := .compact) ih rest
      obtain ⟨q, hq⟩ := hread (p + blanks.length + 1)
      refine ⟨q, ?_⟩
      rw [hbody, anything]
      dsimp only
      rw [opening_eq begins_bracket hblanks, Outcome.ok_bind]
      simp only [Cursor.next_cons, hq]
      rfl
  | @table n es _ ih =>
      rw [compact_table, kept_table]
      have hentries : ∀ e ∈ es, ReadsKey (fun c => string c.next) e.1 ∧
          Reads (anything n) (compact e.2) (kept e.2) :=
        fun e he => ⟨readsKey_string e.1, (ih e he).2⟩
      refine ⟨⟨_, _, .table, rfl, begins_brace⟩, fun p blanks rest hblanks _ => ?_⟩
      obtain ⟨body, hbody, hread⟩ := entries_table (l := .compact) hentries rest
      obtain ⟨q, hq⟩ := hread (p + blanks.length + 1)
      refine ⟨q, ?_⟩
      rw [hbody, anything]
      dsimp only
      rw [opening_eq begins_brace hblanks, Outcome.ok_bind]
      simp only [Cursor.next_cons, hq]
      rfl

/-! ### One line -/

theorem newline_not_mem_escape (c : Char) : '\n' ∉ escape c := by
  rcases escape_cases c with ⟨letter, hletter, hescape⟩ | ⟨hlt, hescape⟩ | ⟨hlow, -, -, hescape⟩
  · have hall : ∀ e ∈ escapeLetters, '\n' ∉ ['\\', e.2] := by decide
    rw [hescape]
    exact hall _ hletter
  · have hall : ∀ n < 32, '\n' ∉
        ['\\', 'u', '0', '0', Text.hexDigit (n / 16), Text.hexDigit (n % 16)] := by decide
    rw [hescape]
    exact hall _ hlt
  · rw [hescape, List.mem_singleton]
    rintro rfl
    exact absurd hlow (by decide)

theorem newline_not_mem_quotedText (s : String) : '\n' ∉ quotedText s := by
  simp [quotedText, newline_not_mem_escape]

theorem newline_not_mem_joined {isFirst : Bool} {parts : List (List Char)}
    (h : ∀ part ∈ parts, '\n' ∉ part) : '\n' ∉ joined [] isFirst parts := by
  induction parts generalizing isFirst with
  | nil => simp [joined]
  | cons part parts ih =>
      have hpart := h part (by simp)
      have hrest := @ih false fun part hpart => h part (by simp [hpart])
      cases isFirst <;> simp [joined, hpart, hrest]

theorem newline_not_mem_brackets {opener closer : Char} {parts : List (List Char)}
    (hopener : '\n' ≠ opener) (hcloser : '\n' ≠ closer) (h : ∀ part ∈ parts, '\n' ∉ part) :
    '\n' ∉ Layout.compact.brackets opener closer parts := by
  have hbrackets : Layout.compact.brackets opener closer parts =
      opener :: (joined [] true parts ++ [closer]) := rfl
  simp [hbrackets, hopener, hcloser, newline_not_mem_joined h]

/-- Compact values stand on one line. -/
theorem newline_not_mem_compact (h : Shallow n d) : '\n' ∉ compact d := by
  induction h with
  | null =>
      rw [compact_null]
      decide
  | flag b =>
      rw [compact_flag]
      cases b <;> decide
  | text s =>
      rw [compact_text]
      exact newline_not_mem_quotedText s
  | count hm =>
      rw [compact_count]
      intro h
      exact absurd (Number.isAsciiDigit_of_mem_decimalDigits h) (by decide)
  | @list n ds _ ih =>
      have hitems : ∀ part ∈ ds.map compact, '\n' ∉ part := by
        intro part hpart
        obtain ⟨d, hd, rfl⟩ := List.mem_map.1 hpart
        exact ih d hd
      rw [compact_list]
      exact newline_not_mem_brackets (by decide) (by decide) hitems
  | @table n es _ ih =>
      have hentries : ∀ part ∈ entryTexts .compact compact es, '\n' ∉ part := by
        intro part hpart
        obtain ⟨e, he, rfl⟩ := List.mem_map.1 hpart
        simp [Layout.entry, Layout.compact, newline_not_mem_quotedText, ih e he]
      rw [compact_table]
      exact newline_not_mem_brackets (by decide) (by decide) hentries

end Json
end DocClaims
