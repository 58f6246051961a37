import DocClaims.Proofs.Glob.Reading
import Mathlib.Data.List.Basic

/-!
# Globs of extensions

An extension behind a star and a dot is taken literally exactly if no character of it
has a meaning in globs.
-/

namespace DocClaims
namespace Glob

variable {e e' : String} {pieces : List Piece}

/-! ### Reading -/

/-- The reader behind a star and a dot. -/
def starDot : Progress := ⟨[.byte 46, .anyBytes], [], some '.'⟩

theorem readFrom_extension (e : String) :
    readFrom ("*." ++ e).toList.length .start ("*." ++ e).toList =
      readFrom e.toList.length starDot e.toList := by
  have hchars : ("*." ++ e).toList = '*' :: '.' :: e.toList := by simp
  have hdot : (Progress.start.add [.anyBytes] '*').addLiteral '.' = starDot := by
    rw [Progress.addLiteral, bytesOf_eq]
    rfl
  rw [hchars, ← hdot]
  simp [readFrom]

theorem read_extension_of_units (h : ∀ c ∈ e.toList, isUnit c) :
    read ("*." ++ e) = .ok (.anyBytes :: .byte 46 :: e.toList.flatMap unit) := by
  obtain ⟨p, hread, hgroups, hpieces⟩ :=
    readFrom_units (p := starDot) rfl (Nat.le_refl e.toList.length) h
  rw [← readFrom_extension] at hread
  have hleading : p.pieces ≠ [.leading] := by
    intro heq
    rw [heq] at hpieces
    cases hpieces
  rw [read_of_readFrom hread hgroups hleading, hpieces]
  rfl

theorem read_extension_atMost (hstar : '*' ∉ e.toList) (h : read ("*." ++ e) = .ok pieces) :
    ∃ tail n, pieces = .anyBytes :: .byte 46 :: tail ∧ CoverAtMost n tail ∧
      n ≤ size e.toList ∧ (n = size e.toList → ∀ c ∈ e.toList, isUnit c) := by
  obtain ⟨p, hread, hgroups, hpieces⟩ := readFrom_of_read h
  rw [readFrom_extension] at hread
  have hstart : ReadsAtMost [.anyBytes, .byte 46] 0 starDot.pieces starDot.groups :=
    ⟨[], rfl, .nil⟩
  obtain ⟨n, hreads, hle, hunits⟩ := readFrom_atMost hstar hstart hread
  rw [hgroups] at hreads
  obtain ⟨tail, htail, hcover⟩ := hreads
  rw [Nat.zero_add] at hle hunits
  refine ⟨tail, n, ?_, hcover, hle, hunits⟩
  rcases hpieces with hleading | rfl
  · rw [hleading] at htail
    cases htail
  · exact htail

/-! ### Accepting -/

theorem isUnit_of_not_isOperator {c : Char} (h : isOperator c = false) : isUnit c := by
  simp [isUnit, h]

theorem unit_of_not_isOperator {c : Char} (h : isOperator c = false) :
    unit c = (String.utf8EncodeChar c).map .byte := by
  have hquestion : ¬(c == '?') = true := by
    rw [beq_iff_eq]
    rintro rfl
    cases h
  rw [unit, if_neg hquestion, bytesOf_eq]

theorem encode_dot (cs : List Char) :
    Text.encode (String.ofList ('.' :: cs)) = 46 :: cs.flatMap String.utf8EncodeChar := by
  rw [Text.encode, String.toList_ofList]
  rfl

/-- An extension without operators is taken literally. -/
theorem accepts_extension (h : ∀ c ∈ e.toList, isOperator c = false) :
    ∃ pieces, read ("*." ++ e) = .ok pieces ∧
      ∀ path, accepts pieces path ↔ '.' :: e.toList <:+ path.toList := by
  refine ⟨_, read_extension_of_units fun c hc => isUnit_of_not_isOperator (h c hc), ?_⟩
  have hbytes : .byte 46 :: e.toList.flatMap unit =
      (Text.encode (String.ofList ('.' :: e.toList))).map .byte := by
    rw [List.flatMap_congr fun c hc => unit_of_not_isOperator (h c hc), encode_dot, List.map_cons,
      List.map_flatMap]
  intro path
  rw [hbytes, accepts_star_bytes, String.toList_ofList]

/-- The characters with a star for each question mark. -/
def starred (cs : List Char) : List Char := cs.map fun c => if c == '?' then '*' else c

theorem star_mem_starred {cs : List Char} (h : '?' ∈ cs) : '*' ∈ starred cs :=
  List.mem_map.2 ⟨'?', h, rfl⟩

theorem dot_not_mem_starred {cs : List Char} (h : '.' ∉ cs) : '.' ∉ starred cs := by
  intro hmem
  obtain ⟨c, hc, hdot⟩ := List.mem_map.1 hmem
  split at hdot
  · cases hdot
  · exact h (hdot ▸ hc)

theorem acceptsThen_starred (cs : List Char) (next : Text.Bytes → Bool) (rest : Text.Bytes) :
    acceptsThen (cs.flatMap unit) next ((starred cs).flatMap String.utf8EncodeChar ++ rest) =
      next rest := by
  induction cs with
  | nil => rfl
  | cons c cs ih =>
      rw [starred, List.map_cons, List.flatMap_cons, List.flatMap_cons, acceptsThen_append, unit,
        List.append_assoc]
      split
      · exact ih
      · rw [bytesOf_eq, acceptsThen_bytes_append]
        exact ih

/-- A question mark accepts a star, which no extension has. -/
theorem accepts_starred (e : String) :
    accepts (.anyBytes :: .byte 46 :: e.toList.flatMap unit)
      (String.ofList ('.' :: starred e.toList)) := by
  rw [accepts, encode_dot, acceptsThen, Piece.acceptsThen, anyThen_iff]
  refine ⟨_, List.suffix_refl _, ?_⟩
  have hrest := acceptsThen_starred e.toList List.isEmpty []
  rw [List.append_nil] at hrest
  rw [acceptsThen, Piece.acceptsThen, byteThen, hrest]
  rfl

/-- A file name that is a dot and an extension is not longer than an extension whose glob
accepts it, and has as many bytes only if that stands for bytes alone. -/
theorem size_le_of_accepts (hstar : '*' ∉ e.toList) (hdot : '.' ∉ e'.toList)
    (h : read ("*." ++ e) = .ok pieces)
    (haccepts : accepts pieces (String.ofList ('.' :: e'.toList))) :
    size e'.toList ≤ size e.toList ∧
      (size e'.toList = size e.toList → ∀ c ∈ e.toList, isUnit c) := by
  obtain ⟨tail, n, rfl, hcover, hle, hunits⟩ := read_extension_atMost hstar h
  rw [accepts, encode_dot, acceptsThen, Piece.acceptsThen, anyThen_iff] at haccepts
  obtain ⟨rest, hrest, haccepts⟩ := haccepts
  rw [acceptsThen, Piece.acceptsThen, byteThen_iff] at haccepts
  obtain ⟨b, bytes, rfl, hb, haccepts⟩ := haccepts
  obtain ⟨front, nothing, rfl, hfront, hnothing⟩ := hcover _ _ haccepts
  rw [List.isEmpty_iff.1 hnothing, List.append_nil] at hrest
  have hsize : size e'.toList ≤ n := by
    rcases List.suffix_cons_iff.1 hrest with heq | hinside
    · rw [size, ← (List.cons.inj heq).2]
      exact hfront
    · have hmem := hinside.subset List.mem_cons_self
      obtain ⟨c, hc, hbytes⟩ := List.mem_flatMap.1 hmem
      rw [beq_iff_eq.1 hb] at hbytes
      exact absurd (Text.eq_of_mem_utf8EncodeChar (by decide) hbytes ▸ hc) hdot
  exact ⟨Nat.le_trans hsize hle, fun heq => hunits (by omega)⟩

end Glob
end DocClaims
