import DocClaims.Json.Reader
import DocClaims.Json.Writer
import DocClaims.Proofs.Number.Digits
import DocClaims.Proofs.Outcomes
import DocClaims.Proofs.Text.Utf8

/-!
# Reading words and whole numbers

What the readers of words and of whole numbers do at a cursor before the bytes of
written characters.
-/

namespace DocClaims
namespace Json

/-! ### Bytes of characters -/

def bytesOf (cs : List Char) : Text.Bytes := cs.flatMap String.utf8EncodeChar

theorem encode_write (d : Datum) : Text.encode (write d) = bytesOf (value 0 d) := by
  rw [Text.encode, write, String.toList_ofList, bytesOf]

@[simp] theorem bytesOf_nil : bytesOf [] = [] := rfl

@[simp] theorem bytesOf_append (cs ds : List Char) :
    bytesOf (cs ++ ds) = bytesOf cs ++ bytesOf ds := by
  rw [bytesOf, List.flatMap_append]
  rfl

def isAscii (c : Char) : Bool := c.toNat < 0x80

def byteOf (c : Char) : UInt8 := UInt8.ofNat c.toNat

variable {a c : Char} {cs : List Char} {p fuel : Nat} {rest : Text.Bytes}

theorem toNat_byteOf (h : isAscii c) : (byteOf c).toNat = c.toNat := by
  rw [isAscii, decide_eq_true_eq] at h
  rw [byteOf, UInt8.toNat_ofNat']
  omega

theorem bytesOf_cons (h : isAscii c) : bytesOf (c :: cs) = byteOf c :: bytesOf cs := by
  rw [isAscii, decide_eq_true_eq] at h
  rw [bytesOf, List.flatMap_cons, Text.utf8EncodeChar_ascii h]
  rfl

theorem length_le_length_flatMap {α β : Type} {f : α → List β} (h : ∀ a, f a ≠ []) (l : List α) :
    l.length ≤ (l.flatMap f).length := by
  induction l with
  | nil => exact Nat.le_refl 0
  | cons a l ih =>
      have hpos := List.length_pos_iff.2 (h a)
      rw [List.flatMap_cons, List.length_append, List.length_cons]
      omega

theorem length_le_length_bytesOf (cs : List Char) : cs.length ≤ (bytesOf cs).length :=
  length_le_length_flatMap (fun _ => String.utf8EncodeChar_ne_nil) cs

/-! ### Cursors -/

namespace Cursor

@[simp] theorem head?_byteOf (h : isAscii c) : head? ⟨p, byteOf c :: rest⟩ = some c := by
  simp [head?, toNat_byteOf h]

@[simp] theorem next_cons (b : UInt8) : next ⟨p, b :: rest⟩ = ⟨p + 1, rest⟩ := rfl

theorem isAt_byteOf (h : isAscii c) : isAt ⟨p, byteOf c :: rest⟩ a = (c == a) := by
  rw [isAt, head?_byteOf h]
  rfl

theorem skipBlanks_eq {blanks : Text.Bytes} (h : ∀ b ∈ blanks, isBlank b)
    (hc : isBlank (byteOf c) = false) :
    skipBlanks ⟨p, blanks ++ byteOf c :: rest⟩ = ⟨p + blanks.length, byteOf c :: rest⟩ := by
  have htake : (blanks ++ byteOf c :: rest).takeWhile isBlank = blanks := by
    rw [List.takeWhile_append_of_pos h, List.takeWhile_cons_of_neg (by simp [hc]),
      List.append_nil]
  simp [skipBlanks, forward, htake]

theorem skipBlanks_byteOf (hc : isBlank (byteOf c) = false) :
    skipBlanks ⟨p, byteOf c :: rest⟩ = ⟨p, byteOf c :: rest⟩ :=
  @skipBlanks_eq c p rest [] (by simp) hc

end Cursor

/-! ### Words -/

theorem word_eq (h : ∀ c ∈ cs, isAscii c) :
    ∃ q, word cs ⟨p, bytesOf cs ++ rest⟩ = .ok ((), ⟨q, rest⟩) := by
  induction cs generalizing p with
  | nil => exact ⟨p, rfl⟩
  | cons c cs ih =>
      have hc : isAscii c := h c (by simp)
      obtain ⟨q, hq⟩ := @ih (p + 1) fun d hd => h d (by simp [hd])
      refine ⟨q, ?_⟩
      rw [bytesOf_cons hc, List.cons_append, word, Cursor.head?_byteOf hc]
      simpa using hq

/-! ### Whole numbers -/

/-- What stands right behind a value: a comma, a line or the end of a list or table. -/
def stops : List Char := [',', '\n', ']', '\x7d']

/-- A value ends here: at the end of the text, or before a character that stops it. -/
def EndsValue (rest : Text.Bytes) : Prop := ∀ b ∈ rest.head?, b ∈ stops.map byteOf

theorem endsValue_nil : EndsValue [] := by simp [EndsValue]

theorem endsValue_stop (h : c ∈ stops) : EndsValue (byteOf c :: rest) := by
  intro b hb
  obtain rfl : byteOf c = b := by simpa using hb
  exact List.mem_map_of_mem h

theorem EndsValue.head? (h : EndsValue rest) :
    Cursor.head? ⟨p, rest⟩ = none ∨ ∃ c ∈ stops, Cursor.head? ⟨p, rest⟩ = some c := by
  cases rest with
  | nil => exact .inl rfl
  | cons b rest =>
      obtain ⟨c, hc, rfl⟩ := List.mem_map.1 (h b (by simp))
      have hascii : stops.all isAscii := by decide
      exact .inr ⟨c, hc, Cursor.head?_byteOf (List.all_eq_true.1 hascii c hc)⟩

/-- Nothing that could go on with a number comes next. -/
theorem EndsValue.not_numeral (h : EndsValue rest) :
    (Cursor.head? ⟨p, rest⟩).any isDigit = false ∧
      ∀ a ∈ ['.', 'e', 'E'], Cursor.isAt ⟨p, rest⟩ a = false := by
  rcases @EndsValue.head? p rest h with hhead | ⟨c, hc, hhead⟩
  · simp [Cursor.isAt, hhead]
  · have hdigits : stops.all (isDigit · == false) := by decide
    have hmarks : stops.all fun c => ['.', 'e', 'E'].all (c != ·) := by decide
    refine ⟨?_, fun a ha => ?_⟩
    · rw [hhead, Option.any_some]
      exact beq_iff_eq.1 (List.all_eq_true.1 hdigits c hc)
    · rw [Cursor.isAt, hhead]
      simpa using List.all_eq_true.1 (List.all_eq_true.1 hmarks c hc) a ha

theorem afterWhole_eq (h : EndsValue rest) (n : Nat) :
    afterWhole false n 0 ⟨p, rest⟩ = .ok (.whole n, ⟨p, rest⟩) := by
  have hmarks := (@EndsValue.not_numeral p rest h).2
  simp [afterWhole, hmarks '.' (by simp), hmarks 'e' (by simp), hmarks 'E' (by simp)]

theorem isDigit_of_isAsciiDigit (h : Text.isAsciiDigit c) : isDigit c := h

theorem isAscii_of_isAsciiDigit (h : Text.isAsciiDigit c) : isAscii c := by
  simp only [Text.isAsciiDigit, Bool.and_eq_true, decide_eq_true_eq] at h
  have hle : c.toNat ≤ 57 := h.2
  rw [isAscii, decide_eq_true_eq]
  omega

theorem digitOf_eq (h : Text.isAsciiDigit c) : digitOf c = Number.digitValue c :=
  (Number.digitValue_of_isAsciiDigit h).1.symm

theorem le_foldl_digits (cs : List Char) (n : Nat) :
    n ≤ cs.foldl (fun n c => n * 10 + Number.digitValue c) n := by
  induction cs generalizing n with
  | nil => exact Nat.le_refl n
  | cons c cs ih =>
      have hstep := ih (n * 10 + Number.digitValue c)
      rw [List.foldl_cons]
      omega

theorem wholeDigits_eq {n : Nat} (h : ∀ c ∈ cs, Text.isAsciiDigit c) (hrest : EndsValue rest)
    (hlimit : cs.foldl (fun n c => n * 10 + Number.digitValue c) n < wordLimit)
    (hfuel : cs.length ≤ fuel) :
    ∃ q, wholeDigits false fuel n ⟨p, bytesOf cs ++ rest⟩ =
      .ok (.whole (cs.foldl (fun n c => n * 10 + Number.digitValue c) n : Nat), ⟨q, rest⟩) := by
  induction cs generalizing n p fuel with
  | nil =>
      refine ⟨p, ?_⟩
      cases fuel with
      | zero => exact afterWhole_eq hrest n
      | succ fuel =>
          refine Eq.trans ?_ (afterWhole_eq hrest n)
          have hdigit := (@EndsValue.not_numeral p rest hrest).1
          rw [bytesOf_nil, List.nil_append, wholeDigits]
          cases hhead : Cursor.head? ⟨p, rest⟩ with
          | none => simp
          | some d =>
              rw [hhead, Option.any_some] at hdigit
              simp [hdigit]
  | cons c cs ih =>
      have hc := h c (by simp)
      have hascii := isAscii_of_isAsciiDigit hc
      obtain ⟨fuel, rfl⟩ : ∃ k, fuel = k + 1 := ⟨fuel - 1, by simp at hfuel; omega⟩
      rw [List.foldl_cons] at hlimit
      have hsmall : ¬wordLimit ≤ n * 10 + Number.digitValue c := by
        have hle := le_foldl_digits cs (n * 10 + Number.digitValue c)
        omega
      obtain ⟨q, hq⟩ := @ih (p + 1) fuel _ (fun d hd => h d (by simp [hd])) hlimit
        (by simpa using hfuel)
      refine ⟨q, ?_⟩
      rw [bytesOf_cons hascii, List.cons_append, wholeDigits, Cursor.head?_byteOf hascii]
      simp only [isDigit_of_isAsciiDigit hc, digitOf_eq hc, if_true, if_neg hsmall,
        Cursor.next_cons]
      exact hq

theorem signedNumeral_eq {n : Nat} (hn : n < wordLimit) (hrest : EndsValue rest) :
    ∃ q, signedNumeral ⟨p, bytesOf (Number.decimalDigits n) ++ rest⟩ =
      .ok (.whole n, ⟨q, rest⟩) := by
  have hdigits : ∀ c ∈ Number.decimalDigits n, Text.isAsciiDigit c :=
    fun c => Number.isAsciiDigit_of_mem_decimalDigits
  have hvalue := Number.valueOfDigits_decimalDigits n
  have hzero := @Number.eq_zero_of_head_decimalDigits n
  obtain ⟨c, cs, hcs⟩ := List.exists_cons_of_ne_nil (Number.decimalDigits_ne_nil n)
  rw [hcs] at hdigits hvalue hzero ⊢
  have hc := hdigits c (by simp)
  have hascii := isAscii_of_isAsciiDigit hc
  have hminus : c ≠ '-' := by
    rintro rfl
    exact absurd hc (by decide)
  rw [bytesOf_cons hascii, List.cons_append, signedNumeral, Cursor.isAt_byteOf hascii,
    if_neg (by simpa using hminus), numeral, Cursor.head?_byteOf hascii]
  by_cases hc0 : c = '0'
  · obtain rfl : n = 0 := hzero (by rw [hc0]; rfl)
    obtain rfl : cs = [] := by
      have hnil : ['0'] = c :: cs := hcs
      simpa using (List.cons.inj hnil).2
    have hhead := (@EndsValue.not_numeral (p + 1) rest hrest).1
    refine ⟨p + 1, ?_⟩
    simp [hc0, hhead, afterWhole_eq hrest 0]
  · have hfold : cs.foldl (fun n c => n * 10 + Number.digitValue c) (Number.digitValue c) = n := by
      simpa [Number.valueOfDigits] using hvalue
    have hfuel : cs.length ≤ (byteOf c :: (bytesOf cs ++ rest)).length := by
      have hbytes := length_le_length_bytesOf cs
      simp only [List.length_cons, List.length_append]
      omega
    obtain ⟨q, hq⟩ := @wholeDigits_eq cs (p + 1) (byteOf c :: (bytesOf cs ++ rest)).length rest
      (Number.digitValue c) (fun d hd => hdigits d (by simp [hd])) hrest (by rw [hfold]; exact hn)
      hfuel
    rw [hfold] at hq
    refine ⟨q, ?_⟩
    simp only [beq_eq_false_iff_ne.2 hc0, isDigit_of_isAsciiDigit hc, digitOf_eq hc,
      Cursor.next_cons]
    exact hq

end Json
end DocClaims
