import DocClaims.Number.Literal

/-!
# Digits of whole numbers

The decimal digits of a number read back as the number, and only zero begins with
the digit zero.
-/

namespace DocClaims
namespace Number

def decimalDigits (n : Nat) : List Char := (toString n).toList

theorem decimalDigits_eq (n : Nat) : decimalDigits n = Nat.toDigits 10 n := Nat.toList_repr

theorem toString_natCast (n : Nat) : (toString (n : Int)).toList = decimalDigits n := rfl

theorem decimalDigits_ne_nil (n : Nat) : decimalDigits n ≠ [] := by
  rw [decimalDigits_eq]
  exact Nat.toDigits_ne_nil

theorem isAsciiDigit_of_mem_decimalDigits {n : Nat} {c : Char} (h : c ∈ decimalDigits n) :
    Text.isAsciiDigit c := by
  rw [decimalDigits_eq] at h
  have hdigit := Nat.isDigit_of_mem_toDigits (by decide) (by decide) h
  simp only [Char.isDigit, Bool.and_eq_true, decide_eq_true_eq] at hdigit
  simp only [Text.isAsciiDigit, Bool.and_eq_true, decide_eq_true_eq]
  exact hdigit

theorem digitValue_of_isAsciiDigit {c : Char} (h : Text.isAsciiDigit c) :
    digitValue c = c.toNat - 48 ∧ digitValue c < 10 := by
  have hvalue : digitValue c = c.toNat - 48 := if_pos h
  simp only [Text.isAsciiDigit, Bool.and_eq_true, decide_eq_true_eq] at h
  have hle : c.toNat ≤ 57 := h.2
  exact ⟨hvalue, by omega⟩

theorem valueOfDigits_eq {ds : List Char} (h : ∀ d ∈ ds, Text.isAsciiDigit d) :
    valueOfDigits 10 ds = Nat.ofDigitChars 10 ds 0 := by
  rw [valueOfDigits, Nat.ofDigitChars_eq_foldl]
  generalize 0 = value
  induction ds generalizing value with
  | nil => rfl
  | cons d ds ih =>
      have hvalue : value * 10 + digitValue d = 10 * value + (d.toNat - '0'.toNat) := by
        rw [(digitValue_of_isAsciiDigit (h d (by simp))).1, Nat.mul_comm]
        rfl
      rw [List.foldl_cons, List.foldl_cons, hvalue]
      exact ih (fun e he => h e (by simp [he])) _

theorem valueOfDigits_decimalDigits (n : Nat) : valueOfDigits 10 (decimalDigits n) = n := by
  rw [valueOfDigits_eq fun d hd => isAsciiDigit_of_mem_decimalDigits hd, decimalDigits_eq,
    Nat.ofDigitChars_ten_toDigits]

theorem whole?_decimalDigits (n : Nat) : whole? 10 (decimalDigits n) = some n := by
  have hdigits : (decimalDigits n).all (fun c => digitValue c < 10) = true := by
    rw [List.all_eq_true]
    intro c hc
    simpa using (digitValue_of_isAsciiDigit (isAsciiDigit_of_mem_decimalDigits hc)).2
  have hempty : (decimalDigits n).isEmpty = false := by
    simpa using decimalDigits_ne_nil n
  simp [whole?, hdigits, hempty, valueOfDigits_decimalDigits]

theorem eq_zero_of_head_decimalDigits {n : Nat} (h : (decimalDigits n).head? = some '0') :
    n = 0 := by
  induction n using Nat.strongRecOn with
  | ind n ih =>
      rw [decimalDigits_eq] at h
      by_cases hlt : n < 10
      · rw [Nat.toDigits_of_lt_base hlt] at h
        have hone : ∀ m < 10, [Nat.digitChar m].head? = some '0' → m = 0 := by decide
        exact hone n hlt h
      · have hle : 10 ≤ n := by omega
        obtain ⟨c, cs, hcs⟩ := List.exists_cons_of_ne_nil (decimalDigits_ne_nil (n / 10))
        rw [Nat.toDigits_of_base_le (by decide) hle, ← decimalDigits_eq, hcs] at h
        have hzero := ih (n / 10) (by omega) (by rw [hcs]; exact h)
        omega

end Number
end DocClaims
