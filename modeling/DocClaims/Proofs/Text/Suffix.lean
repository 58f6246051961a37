import DocClaims.Proofs.Text.Utf8

/-!
# Ends of encoded texts

A text ends with another exactly if its bytes end with those of the other, because
no character begins within the bytes of a character.
-/

namespace DocClaims
namespace Text

variable {xs ys : List Char}

theorem flatMap_utf8EncodeChar_injective
    (h : xs.flatMap String.utf8EncodeChar = ys.flatMap String.utf8EncodeChar) : xs = ys := by
  have hpieces := congrArg (pieces <| · ++ []) h
  rw [pieces_flatMap_append, pieces_flatMap_append] at hpieces
  exact (List.map_inj_right fun _ _ => Option.some.inj).1 (List.append_cancel_right hpieces)

/-- A byte below 128 is a character of its own. -/
theorem eq_of_mem_utf8EncodeChar {b : UInt8} {c : Char} (hb : b.toNat < 0x80)
    (h : b ∈ String.utf8EncodeChar c) : c = Char.ofNat b.toNat := by
  by_cases hc : 0x80 ≤ c.toNat
  · have hle := le_of_mem_utf8EncodeChar hc b h
    omega
  · rw [utf8EncodeChar_ascii (Nat.lt_of_not_le hc), List.mem_singleton] at h
    have hvalue : b.toNat = c.toNat := by
      rw [h, UInt8.toNat_ofNat']
      omega
    rw [hvalue, Char.ofNat_toNat]

theorem not_mem_flatMap_utf8EncodeChar {b : UInt8} (hb : b.toNat < 0x80)
    (h : Char.ofNat b.toNat ∉ xs) : b ∉ xs.flatMap String.utf8EncodeChar := by
  intro hmem
  obtain ⟨c, hc, hbyte⟩ := List.mem_flatMap.1 hmem
  exact h (eq_of_mem_utf8EncodeChar hb hbyte ▸ hc)

theorem isUTF8FirstByte_of_flatMap {b : UInt8} {bytes : Bytes}
    (h : xs.flatMap String.utf8EncodeChar = b :: bytes) : b.IsUTF8FirstByte := by
  cases xs with
  | nil => cases h
  | cons x xs =>
      obtain ⟨lead, tail, hx, -⟩ := piece_utf8EncodeChar x []
      have hlead : lead = b := by
        rw [List.flatMap_cons, hx, List.cons_append] at h
        exact (List.cons.inj h).1
      have hlength : 0 < (String.utf8EncodeChar x).length := by simp [hx]
      have hfirst : (String.utf8EncodeChar x)[0].IsUTF8FirstByte :=
        UInt8.isUTF8FirstByte_getElem_utf8EncodeChar.2 rfl
      simpa [hx, hlead] using hfirst

theorem flatMap_utf8EncodeChar_suffix_iff :
    ys.flatMap String.utf8EncodeChar <:+ xs.flatMap String.utf8EncodeChar ↔ ys <:+ xs := by
  constructor
  · intro h
    induction xs with
    | nil =>
        have hnil : ys = [] := flatMap_utf8EncodeChar_injective (List.suffix_nil.1 h)
        exact hnil ▸ List.nil_suffix
    | cons x xs ih =>
        obtain ⟨front, hfront⟩ := h
        rw [List.flatMap_cons] at hfront
        rcases List.append_eq_append_iff.1 hfront with ⟨inside, hx, hys⟩ | ⟨between, -, hxs⟩
        · cases front with
          | nil =>
              have hcons : ys = x :: xs := flatMap_utf8EncodeChar_injective hfront
              exact hcons ▸ List.suffix_refl _
          | cons b front =>
              cases inside with
              | nil =>
                  have heq : ys = xs := flatMap_utf8EncodeChar_injective hys
                  exact heq ▸ List.suffix_cons _ _
              | cons b' inside =>
                  -- the bytes of `ys` would begin within those of `x`
                  have hlead := isUTF8FirstByte_of_flatMap hys
                  have hlength : front.length + 1 < (String.utf8EncodeChar x).length := by
                    simp [hx]
                  have hinside : (String.utf8EncodeChar x)[front.length + 1].IsUTF8FirstByte := by
                    simpa [hx] using hlead
                  exact absurd (UInt8.isUTF8FirstByte_getElem_utf8EncodeChar.1 hinside)
                    (Nat.succ_ne_zero _)
        · exact (ih ⟨between, hxs.symm⟩).trans (List.suffix_cons _ _)
  · rintro ⟨front, rfl⟩
    rw [List.flatMap_append]
    exact List.suffix_append _ _

/-- The bytes of `s` end with those of `t` exactly if `s` ends with `t`. -/
theorem encode_suffix_iff {s t : String} : encode t <:+ encode s ↔ t.toList <:+ s.toList := by
  rw [encode, encode, flatMap_utf8EncodeChar_suffix_iff]

end Text
end DocClaims
