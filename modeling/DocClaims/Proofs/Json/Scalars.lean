import DocClaims.Proofs.Json.Strings

/-!
# Reading written scalars

The readers give back a scalar, a choice or an option from its written text, with
blanks before it and the end of a value behind it.
-/

namespace DocClaims
namespace Json

variable {c : Char} {k : Kind} {cs : List Char} {p : Nat} {rest blanks : Text.Bytes}
  {d : Datum}

/-! ### The start of a value -/

def kindOf (c : Char) : Option Kind :=
  if c == '-' || isDigit c then some .number
  else [('n', Kind.null), ('t', .yes), ('f', .no), ('"', .text), ('[', .list),
    ('\x7b', .table)].lookup c

theorem kind?_byteOf (h : isAscii c) : Cursor.kind? ⟨p, byteOf c :: rest⟩ = kindOf c := by
  simp [Cursor.kind?, beginsNumber, Cursor.isAt_byteOf h, Cursor.head?_byteOf h, kindOf]

/-- The character begins values of the kind. -/
structure Begins (c : Char) (k : Kind) : Prop where
  isAscii : isAscii c
  kind : kindOf c = some k

theorem Begins.not_isBlank (h : Begins c k) : Cursor.isBlank (byteOf c) = false := by
  have hall : ∀ n < 0x80, (kindOf (Char.ofNat n)).isSome →
      Cursor.isBlank (byteOf (Char.ofNat n)) = false := by decide
  have hc := hall c.toNat (by simpa [Json.isAscii] using h.isAscii)
  rw [Char.ofNat_toNat, h.kind] at hc
  exact hc rfl

theorem opening_eq (h : Begins c k) (hblanks : ∀ b ∈ blanks, Cursor.isBlank b) :
    opening ⟨p, blanks ++ byteOf c :: rest⟩ =
      .ok (k, ⟨p + blanks.length, byteOf c :: rest⟩) := by
  have hskip := @Cursor.skipBlanks_eq c p rest blanks hblanks h.not_isBlank
  simp [opening, hskip, kind?_byteOf h.isAscii, h.kind]

/-- The reader reads the text as the value wherever the text comes next. -/
def Reads (reader : Reader Datum) (text : List Char) (d : Datum) : Prop :=
  ∀ p blanks rest, (∀ b ∈ blanks, Cursor.isBlank b) → EndsValue rest →
    ∃ q, reader ⟨p, blanks ++ (bytesOf text ++ rest)⟩ = .ok (d, ⟨q, rest⟩)

/-- The reader gives the value back where its text comes next. -/
def ReadsBack (reader : Reader Datum) (d : Datum) : Prop :=
  ∀ level, Reads reader (value level d) d

/-! ### Scalars -/

theorem scalar_eq {accept : Found → Except Mismatch Datum} {f : Found} (h : Begins c k)
    (hfound : ∀ p, ∃ q, found k ⟨p, bytesOf (c :: cs) ++ rest⟩ = .ok (f, ⟨q, rest⟩))
    (haccept : accept f = .ok d) (hblanks : ∀ b ∈ blanks, Cursor.isBlank b) :
    ∃ q, scalar accept ⟨p, blanks ++ (bytesOf (c :: cs) ++ rest)⟩ = .ok (d, ⟨q, rest⟩) := by
  obtain ⟨q, hq⟩ := hfound (p + blanks.length)
  refine ⟨q, ?_⟩
  rw [bytesOf_cons h.isAscii, List.cons_append] at hq ⊢
  rw [scalar, opening_eq h hblanks, Outcome.ok_bind]
  simp [hq, haccept]

theorem found_null (p : Nat) (rest : Text.Bytes) :
    ∃ q, found .null ⟨p, bytesOf "null".toList ++ rest⟩ = .ok (.null, ⟨q, rest⟩) := by
  obtain ⟨q, hq⟩ := @word_eq "null".toList p rest (List.all_eq_true.1 (by decide))
  exact ⟨q, by rw [found, hq]; rfl⟩

theorem found_yes (p : Nat) (rest : Text.Bytes) :
    ∃ q, found .yes ⟨p, bytesOf "true".toList ++ rest⟩ = .ok (.flag true, ⟨q, rest⟩) := by
  obtain ⟨q, hq⟩ := @word_eq "true".toList p rest (List.all_eq_true.1 (by decide))
  exact ⟨q, by rw [found, hq]; rfl⟩

theorem found_no (p : Nat) (rest : Text.Bytes) :
    ∃ q, found .no ⟨p, bytesOf "false".toList ++ rest⟩ = .ok (.flag false, ⟨q, rest⟩) := by
  obtain ⟨q, hq⟩ := @word_eq "false".toList p rest (List.all_eq_true.1 (by decide))
  exact ⟨q, by rw [found, hq]; rfl⟩

theorem found_number {n : Nat} (hn : n < wordLimit) (hrest : EndsValue rest) (p : Nat) :
    ∃ q, found .number ⟨p, bytesOf (Number.decimalDigits n) ++ rest⟩ =
      .ok (.integer n, ⟨q, rest⟩) := by
  obtain ⟨q, hq⟩ := @signedNumeral_eq p rest n hn hrest
  exact ⟨q, by rw [found, hq]; rfl⟩

theorem bytesOf_quotedText (s : String) :
    bytesOf (quotedText s) = byteOf '"' :: bytesOf (s.toList.flatMap escape ++ ['"']) := by
  rw [quotedText, List.append_assoc, List.singleton_append, bytesOf_cons (by decide)]

theorem begins_quote : Begins '"' .text := ⟨by decide, by decide⟩

theorem begins_number (h : Text.isAsciiDigit c) : Begins c .number := by
  refine ⟨isAscii_of_isAsciiDigit h, ?_⟩
  rw [kindOf, isDigit_of_isAsciiDigit h, Bool.or_true]
  rfl

theorem found_text (s : String) (p : Nat) (rest : Text.Bytes) :
    ∃ q, found .text ⟨p, bytesOf (quotedText s) ++ rest⟩ = .ok (.text s, ⟨q, rest⟩) := by
  obtain ⟨q, hq⟩ := string_eq s (p + 1) rest
  refine ⟨q, ?_⟩
  rw [bytesOf_quotedText, List.cons_append, found, Cursor.next_cons, hq]
  rfl

theorem readsBack_null : ReadsBack (scalar fun _ => .ok .null) .null := by
  intro level p blanks rest hblanks _
  rw [value]
  exact scalar_eq ⟨by decide, by decide⟩ (fun p => found_null p rest) rfl hblanks

theorem readsBack_flag (expected : String) (b : Bool) :
    ReadsBack (scalar (acceptFlag expected)) (.flag b) := by
  intro level p blanks rest hblanks _
  rw [value]
  cases b with
  | true => exact scalar_eq ⟨by decide, by decide⟩ (fun p => found_yes p rest) rfl hblanks
  | false => exact scalar_eq ⟨by decide, by decide⟩ (fun p => found_no p rest) rfl hblanks

theorem text_eq (expected s : String) (hblanks : ∀ b ∈ blanks, Cursor.isBlank b) (p : Nat)
    (rest : Text.Bytes) :
    ∃ q, scalar (acceptText expected) ⟨p, blanks ++ (bytesOf (quotedText s) ++ rest)⟩ =
      .ok (.text s, ⟨q, rest⟩) :=
  scalar_eq begins_quote (fun p => found_text s p rest) rfl hblanks

theorem readsBack_text (expected s : String) :
    ReadsBack (scalar (acceptText expected)) (.text s) := by
  intro level p blanks rest hblanks _
  rw [value]
  exact text_eq expected s hblanks p rest

theorem readsBack_count (kind : String) {n : Nat} (hn : n < Shape.countLimit) :
    ReadsBack (scalar (acceptCount kind)) (.count n) := by
  intro level p blanks rest hblanks hrest
  have haccept : acceptCount kind (.integer n) = .ok (.count n) := by
    rw [acceptCount, if_pos (Int.natCast_nonneg n)]
    rfl
  have hfound := fun p => @found_number rest n hn hrest p
  rw [Datum.count, value, Number.toString_natCast, ← Datum.count]
  obtain ⟨c, cs, hcs⟩ := List.exists_cons_of_ne_nil (Number.decimalDigits_ne_nil n)
  have hdigit := @Number.isAsciiDigit_of_mem_decimalDigits n c (by simp [hcs])
  rw [hcs] at hfound ⊢
  exact scalar_eq (begins_number hdigit) hfound haccept hblanks

/-! ### Choices and options -/

theorem variantName_eq {variants : List String} {s : String} (hs : s ∈ variants)
    (hblanks : ∀ b ∈ blanks, Cursor.isBlank b) (p : Nat) (rest : Text.Bytes) :
    ∃ q, variantName variants ⟨p, blanks ++ (bytesOf (quotedText s) ++ rest)⟩ =
      .ok (s, ⟨q, rest⟩) := by
  obtain ⟨q, hq⟩ := text_eq (Shape.choice variants).expected s hblanks p rest
  refine ⟨q, ?_⟩
  rw [variantName, hq, Outcome.ok_bind]
  exact if_pos (by simpa [Datum.toText?] using hs)

theorem readsBack_choice {variants : List String} {s : String} (hs : s ∈ variants) :
    ReadsBack (choice variants) (.text s) := by
  intro level p blanks rest hblanks hrest
  obtain ⟨q, hq⟩ := @variantName_eq [] variants s hs (by simp) (p + blanks.length) rest
  refine ⟨q, ?_⟩
  rw [value]
  rw [List.nil_append] at hq
  rw [bytesOf_quotedText, List.cons_append] at hq ⊢
  rw [choice, opening_eq begins_quote hblanks, Outcome.ok_bind]
  simp only [hq]
  rfl

theorem optional_eq (inner : Reader Datum) (h : Begins c k)
    (hblanks : ∀ b ∈ blanks, Cursor.isBlank b) :
    optional inner ⟨p, blanks ++ byteOf c :: rest⟩ =
      if c == 'n' then scalar (fun _ => .ok .null) ⟨p, blanks ++ byteOf c :: rest⟩
      else inner ⟨p, blanks ++ byteOf c :: rest⟩ := by
  have hskip := @Cursor.skipBlanks_eq c p rest blanks hblanks h.not_isBlank
  rw [optional, hskip, Cursor.isAt_byteOf h.isAscii]

theorem readsBack_optional_null (inner : Reader Datum) : ReadsBack (optional inner) .null := by
  intro level p blanks rest hblanks hrest
  have hbegins : Begins 'n' .null := ⟨by decide, by decide⟩
  have hnull := readsBack_null level p blanks rest hblanks hrest
  have hbytes : bytesOf (value level .null) = byteOf 'n' :: bytesOf "ull".toList := by
    rw [value]
    decide
  rw [hbytes, List.cons_append] at hnull ⊢
  rw [optional_eq inner hbegins hblanks]
  exact hnull

/-- The text of the value begins as that of a value, and only null with the letter n. -/
def BeginsAsValue (d : Datum) : Prop :=
  ∀ level, ∃ c cs k, value level d = c :: cs ∧ Begins c k ∧ (c = 'n' → d = .null)

theorem readsBack_optional {inner : Reader Datum} (hbegins : BeginsAsValue d)
    (h : ReadsBack inner d) (hnull : d ≠ .null) : ReadsBack (optional inner) d := by
  intro level p blanks rest hblanks hrest
  have hinner := h level p blanks rest hblanks hrest
  obtain ⟨c, cs, k, hvalue, hc, hn⟩ := hbegins level
  have hne : (c == 'n') = false := beq_eq_false_iff_ne.2 fun heq => hnull (hn heq)
  rw [hvalue, bytesOf_cons hc.isAscii, List.cons_append] at hinner ⊢
  rw [optional_eq inner hc hblanks, hne]
  exact hinner

end Json
end DocClaims
