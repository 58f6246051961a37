import DocClaims.Proofs.Json.Lexemes

/-!
# Reading written strings

A string is written with escapes for quotes, backslashes and controls, and is read
back as it was.
-/

namespace DocClaims
namespace Json

variable {c letter : Char} {cs : List Char} {n p fuel : Nat} {rest out : Text.Bytes}

/-! ### Escapes -/

theorem escape_cases (c : Char) :
    (∃ letter, (c.toNat, letter) ∈ escapeLetters ∧ escape c = ['\\', letter]) ∨
      (c.toNat < 32 ∧ escape c =
        ['\\', 'u', '0', '0', Text.hexDigit (c.toNat / 16), Text.hexDigit (c.toNat % 16)]) ∨
      (32 ≤ c.toNat ∧ c.toNat ≠ 34 ∧ c.toNat ≠ 92 ∧ escape c = [c]) := by
  unfold escape
  split
  · next letter h =>
      obtain ⟨before, after, heq, -⟩ := List.lookup_eq_some_iff.1 h
      exact .inl ⟨letter, by rw [heq]; simp, rfl⟩
  · next h =>
      have hquote : c.toNat ≠ 34 := fun heq => by simp [heq, escapeLetters] at h
      have hslash : c.toNat ≠ 92 := fun heq => by simp [heq, escapeLetters] at h
      split
      · next hlt => exact .inr (.inl ⟨hlt, rfl⟩)
      · next hlt => exact .inr (.inr ⟨by omega, hquote, hslash, rfl⟩)

theorem escaped_letter (h : (c.toNat, letter) ∈ escapeLetters) :
    escaped ⟨p, bytesOf [letter] ++ rest⟩ = .ok (bytesOf [c], ⟨p + 1, rest⟩) := by
  have hall : ∀ e ∈ escapeLetters, isAscii e.2 ∧
      escapedBytes.lookup e.2 = some (UInt8.ofNat e.1) ∧ e.1 < 0x80 := by decide
  obtain ⟨hletter, hlookup, hc⟩ := hall _ h
  have hascii : isAscii c := by simpa [isAscii] using hc
  rw [bytesOf_cons hletter, bytesOf_cons hascii, bytesOf_nil, List.singleton_append, escaped,
    Cursor.head?_byteOf hletter]
  simp only [hlookup, Cursor.next_cons, byteOf]

theorem fourHex_eq (h : n < 32) :
    fourHex ⟨p, bytesOf ['0', '0', Text.hexDigit (n / 16), Text.hexDigit (n % 16)] ++ rest⟩ =
      .ok (n, ⟨p + 4, rest⟩) := by
  have hall : ∀ n < 32, isAscii (Text.hexDigit (n / 16)) ∧ isAscii (Text.hexDigit (n % 16)) ∧
      [byteOf '0', byteOf '0', byteOf (Text.hexDigit (n / 16)),
        byteOf (Text.hexDigit (n % 16))].map hexValue = [0, 0, n / 16, n % 16] := by decide
  obtain ⟨hhigh, hlow, hvalues⟩ := hall n h
  have hbytes : bytesOf ['0', '0', Text.hexDigit (n / 16), Text.hexDigit (n % 16)] =
      [byteOf '0', byteOf '0', byteOf (Text.hexDigit (n / 16)),
        byteOf (Text.hexDigit (n % 16))] := by
    rw [bytesOf_cons (by decide), bytesOf_cons (by decide), bytesOf_cons hhigh,
      bytesOf_cons hlow, bytesOf_nil]
  rw [hbytes]
  simp only [List.cons_append, List.nil_append, fourHex, hvalues]
  have hfold : [0, 0, n / 16, n % 16].foldl (fun n d => n * 16 + d) 0 = n := by
    simp only [List.foldl_cons, List.foldl_nil]
    omega
  have hany : [0, 0, n / 16, n % 16].any (16 ≤ ·) = false := by
    simp
    omega
  rw [hfold, hany]
  rfl

theorem escaped_digits (h : c.toNat < 32) :
    escaped ⟨p, bytesOf ['u', '0', '0', Text.hexDigit (c.toNat / 16),
      Text.hexDigit (c.toNat % 16)] ++ rest⟩ = .ok (bytesOf [c], ⟨p + 5, rest⟩) := by
  rw [bytesOf_cons (by decide), List.cons_append, escaped, Cursor.head?_byteOf (by decide)]
  have hpoint : codePoint ⟨p + 1, bytesOf ['0', '0', Text.hexDigit (c.toNat / 16),
      Text.hexDigit (c.toNat % 16)] ++ rest⟩ = .ok (c, ⟨p + 5, rest⟩) := by
    have hlow : ¬(0xDC00 ≤ c.toNat && c.toNat ≤ 0xDFFF) := by
      simp
      omega
    have hplane : (c.toNat < 0xD800 || 0xDBFF < c.toNat) = true := by
      simp
      omega
    rw [codePoint, fourHex_eq h, Outcome.ok_bind]
    dsimp only
    rw [if_neg hlow, if_pos hplane, Char.ofNat_toNat]
    rfl
  have hencode : Text.encode (String.singleton c) = bytesOf [c] := by
    rw [Text.encode, String.toList_singleton]
    rfl
  simp only [Cursor.next_cons, hpoint, Outcome.ok_bind, hencode]
  rfl

/-! ### Stretches -/

theorem not_endsStretch (hlow : 32 ≤ c.toNat) (hquote : c.toNat ≠ 34) (hslash : c.toNat ≠ 92) :
    ∀ b ∈ bytesOf [c], endsStretch b = false := by
  have hends : ∀ b : UInt8, b.toNat = c.toNat ∨ 0x80 ≤ b.toNat → endsStretch b = false := by
    intro b hb
    simp only [endsStretch, Bool.or_eq_false_iff, beq_eq_false_iff_ne, ne_eq,
      decide_eq_false_iff_not, UInt8.lt_iff_toNat_lt, ← UInt8.toNat_inj, UInt8.reduceToNat]
    omega
  intro b hb
  apply hends b
  by_cases hc : isAscii c
  · rw [bytesOf_cons hc, bytesOf_nil, List.mem_singleton] at hb
    rw [hb, toNat_byteOf hc]
    exact .inl rfl
  · simp only [bytesOf, List.flatMap_singleton] at hb
    simp only [isAscii, decide_eq_true_eq, Nat.not_lt] at hc
    exact .inr (Text.le_of_mem_utf8EncodeChar hc b hb)

theorem stringBytes_append {stretch : Text.Bytes} (h : ∀ b ∈ stretch, endsStretch b = false) :
    stringBytes (fuel + 1) out ⟨p, stretch ++ rest⟩ =
      stringBytes (fuel + 1) (stretch.reverse ++ out) ⟨p + stretch.length, rest⟩ := by
  have htake : (stretch ++ rest).takeWhile (!endsStretch ·) =
      stretch ++ rest.takeWhile (!endsStretch ·) :=
    List.takeWhile_append_of_pos fun b hb => by simp [h b hb]
  have hdrop (k : Nat) : (stretch ++ rest).drop (stretch.length + k) = rest.drop k := by
    simp [List.drop_append]
  rw [stringBytes, stringBytes]
  simp only [htake, Cursor.forward, List.length_append, hdrop, List.reverse_append,
    List.append_assoc, Nat.add_assoc]

theorem stringBytes_escape {more after : Text.Bytes} {q : Nat}
    (h : escaped ⟨p + 1, rest⟩ = .ok (more, ⟨q, after⟩)) :
    stringBytes (fuel + 1) out ⟨p, byteOf '\\' :: rest⟩ =
      stringBytes fuel (more.reverse ++ out) ⟨q, after⟩ := by
  have htake : (byteOf '\\' :: rest).takeWhile (!endsStretch ·) = [] := rfl
  have hstep : Cursor.forward ⟨p, byteOf '\\' :: rest⟩ 0 = ⟨p, byteOf '\\' :: rest⟩ := rfl
  have hquote : (byteOf '\\' == 34) = false := rfl
  have hslash : (byteOf '\\' == 92) = true := rfl
  rw [stringBytes, htake]
  simp only [List.length_nil, hstep, hquote, hslash, Cursor.next_cons, h]
  rfl

theorem stringBytes_end :
    stringBytes (fuel + 1) out ⟨p, byteOf '"' :: rest⟩ = .ok (out.reverse, ⟨p + 1, rest⟩) := by
  have htake : (byteOf '"' :: rest).takeWhile (!endsStretch ·) = [] := rfl
  rw [stringBytes, htake]
  rfl

/-! ### Strings -/

theorem stringBytes_eq (hfuel : cs.length < fuel) :
    ∃ q, stringBytes fuel out ⟨p, bytesOf (cs.flatMap escape) ++ byteOf '"' :: rest⟩ =
      .ok (out.reverse ++ bytesOf cs, ⟨q, rest⟩) := by
  induction cs generalizing p fuel out with
  | nil =>
      obtain ⟨fuel, rfl⟩ := Nat.exists_eq_add_of_lt hfuel
      exact ⟨p + 1, by simpa using stringBytes_end⟩
  | cons c cs ih =>
      obtain ⟨fuel, rfl⟩ : ∃ k, fuel = k + 1 := ⟨fuel - 1, by omega⟩
      simp only [List.length_cons] at hfuel
      have hchars : bytesOf (c :: cs) = bytesOf [c] ++ bytesOf cs := by
        rw [← bytesOf_append]
        rfl
      rw [List.flatMap_cons, bytesOf_append, List.append_assoc, hchars]
      rcases escape_cases c with ⟨letter, hletter, hescape⟩ | ⟨hlt, hescape⟩ |
        ⟨hlow, hquote, hslash, hescape⟩
      · obtain ⟨q, hq⟩ := @ih (p + 2) fuel ((bytesOf [c]).reverse ++ out) (by omega)
        refine ⟨q, ?_⟩
        rw [hescape, bytesOf_cons (by decide), List.cons_append,
          stringBytes_escape (escaped_letter hletter), hq]
        simp
      · obtain ⟨q, hq⟩ := @ih (p + 6) fuel ((bytesOf [c]).reverse ++ out) (by omega)
        refine ⟨q, ?_⟩
        rw [hescape, bytesOf_cons (by decide), List.cons_append,
          stringBytes_escape (escaped_digits hlt), hq]
        simp
      · obtain ⟨q, hq⟩ := @ih (p + (bytesOf [c]).length) (fuel + 1) ((bytesOf [c]).reverse ++ out)
          (by omega)
        refine ⟨q, ?_⟩
        rw [hescape, stringBytes_append (not_endsStretch hlow hquote hslash), hq]
        simp

theorem escape_ne_nil (c : Char) : escape c ≠ [] := by
  rcases escape_cases c with ⟨letter, -, hescape⟩ | ⟨-, hescape⟩ | ⟨-, -, -, hescape⟩
  all_goals simp [hescape]

theorem string_eq (s : String) (p : Nat) (rest : Text.Bytes) :
    ∃ q, string ⟨p, bytesOf (s.toList.flatMap escape ++ ['"']) ++ rest⟩ =
      .ok (s, ⟨q, rest⟩) := by
  have hbytes : bytesOf (s.toList.flatMap escape ++ ['"']) ++ rest =
      bytesOf (s.toList.flatMap escape) ++ byteOf '"' :: rest := by
    rw [bytesOf_append, bytesOf_cons (by decide), bytesOf_nil, List.append_assoc]
    rfl
  rw [hbytes]
  have hlength : s.toList.length <
      (bytesOf (s.toList.flatMap escape) ++ byteOf '"' :: rest).length + 1 := by
    have hescapes := length_le_length_flatMap escape_ne_nil s.toList
    have hlength := length_le_length_bytesOf (s.toList.flatMap escape)
    rw [List.length_append]
    omega
  obtain ⟨q, hq⟩ := @stringBytes_eq s.toList p _ rest [] hlength
  have hdecode : Text.decode? (bytesOf s.toList) = some s.toList := by
    rw [bytesOf, ← Text.encode, Text.decode?_encode]
  refine ⟨q, ?_⟩
  rw [string, hq, Outcome.ok_bind]
  simp [hdecode]

end Json
end DocClaims
