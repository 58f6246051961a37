import DocClaims.Glob.Basic
import DocClaims.Proofs.Text.Suffix

/-!
# What pieces accept

A row of bytes accepts itself, and with a star before it whatever ends with it. Of
other pieces it matters how many bytes they can cover.
-/

namespace DocClaims
namespace Glob

open Text (Bytes)

variable {pieces others : List Piece} {next : Bytes → Bool} {s : Bytes}

theorem acceptsThen_append (pieces others : List Piece) (next : Bytes → Bool) :
    acceptsThen (pieces ++ others) next = acceptsThen pieces (acceptsThen others next) := by
  induction pieces with
  | nil => rfl
  | cons p pieces ih => rw [List.cons_append, acceptsThen, ih, acceptsThen]

theorem byteThen_iff {test : UInt8 → Bool} :
    byteThen test next s ↔ ∃ b rest, s = b :: rest ∧ test b ∧ next rest := by
  cases s with
  | nil => simp [byteThen]
  | cons b rest =>
      rw [byteThen, Bool.and_eq_true]
      constructor
      · intro h
        exact ⟨b, rest, rfl, h⟩
      · rintro ⟨b, rest, ⟨⟩, h⟩
        exact h

theorem anyThen_iff : anyThen next s ↔ ∃ rest, rest <:+ s ∧ next rest := by
  induction s with
  | nil => simp [anyThen]
  | cons b s ih => simp [anyThen, ih, List.suffix_cons_iff, or_and_right, exists_or]

theorem acceptsThen_bytes {bytes : Bytes} :
    acceptsThen (bytes.map .byte) next s ↔ ∃ rest, s = bytes ++ rest ∧ next rest := by
  induction bytes generalizing s with
  | nil => simp [acceptsThen]
  | cons b bytes ih =>
      rw [List.map_cons, acceptsThen, Piece.acceptsThen, byteThen_iff]
      constructor
      · rintro ⟨b', rest, rfl, htest, haccepts⟩
        obtain ⟨rest, rfl, hnext⟩ := ih.1 haccepts
        exact ⟨rest, by rw [beq_iff_eq.1 htest, List.cons_append], hnext⟩
      · rintro ⟨rest, rfl, hnext⟩
        exact ⟨b, bytes ++ rest, rfl, BEq.rfl, ih.2 ⟨rest, rfl, hnext⟩⟩

theorem acceptsThen_bytes_append (bytes rest : Bytes) (next : Bytes → Bool) :
    acceptsThen (bytes.map .byte) next (bytes ++ rest) = next rest := by
  rw [Bool.eq_iff_iff, acceptsThen_bytes]
  simp

/-- A star and bytes accept what ends with the bytes. -/
theorem accepts_star_bytes {t path : String} :
    accepts (.anyBytes :: (Text.encode t).map .byte) path ↔ t.toList <:+ path.toList := by
  rw [← Text.encode_suffix_iff, accepts, acceptsThen, Piece.acceptsThen, anyThen_iff]
  constructor
  · rintro ⟨rest, hrest, haccepts⟩
    obtain ⟨nothing, rfl, hnothing⟩ := acceptsThen_bytes.1 haccepts
    rw [List.isEmpty_iff.1 hnothing, List.append_nil] at hrest
    exact hrest
  · intro h
    exact ⟨_, h, acceptsThen_bytes.2 ⟨[], by simp, rfl⟩⟩

/-! ### Bytes covered -/

/-- The pieces cover at most `n` bytes of what they accept. -/
def CoverAtMost (n : Nat) (pieces : List Piece) : Prop :=
  ∀ next s, acceptsThen pieces next s →
    ∃ front rest, s = front ++ rest ∧ front.length ≤ n ∧ next rest

namespace CoverAtMost

variable {m n : Nat}

theorem nil : CoverAtMost 0 [] := fun _ s h => ⟨[], s, rfl, Nat.le_refl _, h⟩

theorem mono (h : CoverAtMost m pieces) (hle : m ≤ n) : CoverAtMost n pieces := by
  intro next s haccepts
  obtain ⟨front, rest, hs, hlength, hnext⟩ := h next s haccepts
  exact ⟨front, rest, hs, Nat.le_trans hlength hle, hnext⟩

theorem append (h : CoverAtMost m pieces) (h' : CoverAtMost n others) :
    CoverAtMost (m + n) (pieces ++ others) := by
  intro next s haccepts
  rw [acceptsThen_append] at haccepts
  obtain ⟨front, rest, rfl, hfront, hothers⟩ := h _ _ haccepts
  obtain ⟨middle, rest, rfl, hmiddle, hnext⟩ := h' _ _ hothers
  refine ⟨front ++ middle, rest, (List.append_assoc _ _ _).symm, ?_, hnext⟩
  rw [List.length_append]
  omega

theorem of_byteThen {p : Piece} {test : UInt8 → Bool}
    (h : ∀ next, p.acceptsThen next = byteThen test next) : CoverAtMost 1 [p] := by
  intro next s haccepts
  rw [acceptsThen, h] at haccepts
  obtain ⟨b, rest, rfl, -, hnext⟩ := byteThen_iff.1 haccepts
  exact ⟨[b], rest, rfl, Nat.le_refl _, hnext⟩

theorem anyByte : CoverAtMost 1 [.anyByte] := of_byteThen fun _ => rfl

theorem oneOf (ranges : List (UInt8 × UInt8)) : CoverAtMost 1 [.oneOf ranges] :=
  of_byteThen fun _ => rfl

theorem noneOf (ranges : List (UInt8 × UInt8)) : CoverAtMost 1 [.noneOf ranges] :=
  of_byteThen fun _ => rfl

theorem bytes (bytes : Bytes) : CoverAtMost bytes.length (bytes.map .byte) := by
  intro next s haccepts
  obtain ⟨rest, hs, hnext⟩ := acceptsThen_bytes.1 haccepts
  exact ⟨bytes, rest, hs, Nat.le_refl _, hnext⟩

theorem someAcceptsThen {options : List (List Piece)} (h : ∀ o ∈ options, CoverAtMost n o) :
    ∀ next s, Glob.someAcceptsThen options next s →
      ∃ front rest, s = front ++ rest ∧ front.length ≤ n ∧ next rest := by
  intro next s haccepts
  induction options with
  | nil => cases haccepts
  | cons o options ih =>
      rw [List.forall_mem_cons] at h
      rw [Glob.someAcceptsThen, Bool.or_eq_true] at haccepts
      rcases haccepts with ho | hoptions
      · exact h.1 next s ho
      · exact ih h.2 hoptions

theorem choice {options : List (List Piece)} (h : ∀ o ∈ options, CoverAtMost n o) :
    CoverAtMost n [.choice options] := by
  intro next s haccepts
  cases options with
  | nil => exact ⟨[], s, rfl, Nat.zero_le n, haccepts⟩
  | cons o options => exact someAcceptsThen h next s haccepts

end CoverAtMost

end Glob
end DocClaims
