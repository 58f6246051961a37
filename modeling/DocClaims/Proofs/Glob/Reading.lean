import DocClaims.Glob.Reader
import DocClaims.Proofs.Glob.Matching
import DocClaims.Proofs.Outcomes

/-!
# What is read of a glob

Characters without a meaning in globs stand for their bytes, and a question mark for
one byte. Every other construct takes more bytes to write than it covers.
-/

namespace DocClaims
namespace Glob

open Outcome
open Text (Bytes)

/-- The characters that stand for something else than themselves. A comma does so only
in a group. -/
def isOperator (c : Char) : Bool :=
  c == '?' || c == '*' || c == '[' || c == '\x7b' || c == '\x7d' || c == '\\'

/-- The characters that stand for bytes. -/
def isUnit (c : Char) : Bool := c == '?' || !isOperator c

/-- The number of bytes of a text. -/
def size (cs : List Char) : Nat := (cs.flatMap String.utf8EncodeChar).length

variable {c : Char} {cs rest : List Char} {fuel n : Nat} {p p' : Progress}

@[simp] theorem size_nil : size [] = 0 := rfl

theorem size_append (cs ds : List Char) : size (cs ++ ds) = size cs + size ds := by
  simp [size]

theorem size_cons (c : Char) (cs : List Char) : size (c :: cs) = size [c] + size cs :=
  size_append [c] cs

theorem size_le_of_suffix (h : rest <:+ cs) : size rest ≤ size cs := by
  obtain ⟨front, rfl⟩ := h
  rw [size_append]
  omega

theorem size_singleton_pos (c : Char) : 0 < size [c] := by
  obtain ⟨lead, tail, hc, -⟩ := Text.piece_utf8EncodeChar c []
  simp [size, hc]

theorem bytesOf_eq (c : Char) : bytesOf c = String.utf8EncodeChar c := by
  simp [bytesOf, Text.encode]

/-! ### Characters and question marks -/

/-- The pieces for a character that is not part of a larger construct. -/
def unit (c : Char) : List Piece := if c == '?' then [.anyByte] else (bytesOf c).map .byte

theorem readFrom_unit (hgroups : p.groups = []) (hc : isUnit c) :
    readFrom (fuel + 1) p (c :: rest) = readFrom fuel (p.add (unit c) c) rest := by
  rw [isUnit, Bool.or_eq_true, beq_iff_eq, Bool.not_eq_true'] at hc
  rcases hc with rfl | hc
  · rfl
  · simp only [isOperator, Bool.or_eq_false_iff, beq_eq_false_iff_ne, ne_eq] at hc
    obtain ⟨⟨⟨⟨⟨hquestion, hstar⟩, hclass⟩, hopen⟩, hclose⟩, hescape⟩ := hc
    have hunit : p.add (unit c) c = p.addLiteral c := by
      rw [unit, if_neg (by simpa using hquestion)]
      rfl
    rw [hunit]
    by_cases hcomma : c = ','
    · subst hcomma
      have hnext : p.nextOption = p.addLiteral ',' := by rw [Progress.nextOption, hgroups]
      rw [← hnext, readFrom]
    · rw [readFrom]
      all_goals simp [*]

theorem readFrom_units (hgroups : p.groups = []) (hfuel : cs.length ≤ fuel)
    (hcs : ∀ c ∈ cs, isUnit c) :
    ∃ p', readFrom fuel p cs = .ok p' ∧ p'.groups = [] ∧
      p'.pieces.reverse = p.pieces.reverse ++ cs.flatMap unit := by
  induction cs generalizing fuel p with
  | nil => cases fuel <;> exact ⟨p, rfl, hgroups, by simp⟩
  | cons c cs ih =>
      obtain ⟨fuel, rfl⟩ := Nat.exists_eq_add_of_le' (Nat.le_trans (Nat.succ_pos _) hfuel)
      rw [List.forall_mem_cons] at hcs
      rw [readFrom_unit hgroups hcs.1]
      have hfuel : cs.length ≤ fuel := Nat.le_of_succ_le_succ hfuel
      obtain ⟨p', hread, hgroups', hpieces⟩ := ih (p := p.add (unit c) c) hgroups hfuel hcs.2
      refine ⟨p', hread, hgroups', ?_⟩
      rw [hpieces]
      simp [Progress.add]

/-! ### Other constructs -/

/-- What was read so far is `base`, and behind it what covers at most `n` bytes. -/
def ReadsAtMost (base : List Piece) : Nat → List Piece → List Group → Prop
  | n, pieces, [] => ∃ tail, pieces.reverse = base ++ tail ∧ CoverAtMost n tail
  | n, pieces, g :: groups => ∃ before within, before + within ≤ n ∧
      ReadsAtMost base before g.before groups ∧ CoverAtMost within pieces.reverse ∧
      ∀ o ∈ g.options, CoverAtMost within o

namespace ReadsAtMost

variable {base pieces more : List Piece} {groups : List Group} {g : Group} {m : Nat}

theorem mono (h : ReadsAtMost base m pieces groups) (hle : m ≤ n) :
    ReadsAtMost base n pieces groups := by
  cases groups with
  | nil =>
      obtain ⟨tail, hpieces, hcover⟩ := h
      exact ⟨tail, hpieces, hcover.mono hle⟩
  | cons g groups =>
      obtain ⟨before, within, hsum, hrest⟩ := h
      exact ⟨before, within, Nat.le_trans hsum hle, hrest⟩

theorem add (h : ReadsAtMost base m pieces groups) (hmore : CoverAtMost n more) :
    ReadsAtMost base (m + n) (more.reverse ++ pieces) groups := by
  cases groups with
  | nil =>
      obtain ⟨tail, hpieces, hcover⟩ := h
      exact ⟨tail ++ more, by simp [hpieces], hcover.append hmore⟩
  | cons g groups =>
      obtain ⟨before, within, hsum, hbefore, hcover, hoptions⟩ := h
      refine ⟨before, within + n, by omega, hbefore, ?_, ?_⟩
      · simpa using hcover.append hmore
      · exact fun o ho => (hoptions o ho).mono (Nat.le_add_right _ _)

theorem addLiteral (h : ReadsAtMost base n p.pieces p.groups) (c : Char) :
    ReadsAtMost base (n + size [c]) (p.addLiteral c).pieces (p.addLiteral c).groups := by
  have hbytes : (bytesOf c).length = size [c] := by simp [bytesOf_eq, size]
  exact hbytes ▸ h.add (.bytes (bytesOf c))

theorem openGroup (h : ReadsAtMost base n p.pieces p.groups) :
    ReadsAtMost base n p.openGroup.pieces p.openGroup.groups :=
  ⟨n, 0, Nat.le_refl n, h, .nil, by simp⟩

theorem closeGroup (h : ReadsAtMost base n p.pieces p.groups) (hclose : p.closeGroup = .ok p') :
    ReadsAtMost base n p'.pieces p'.groups := by
  obtain ⟨pieces, groups, last⟩ := p
  cases groups with
  | nil => cases hclose
  | cons g groups =>
      cases hclose
      obtain ⟨before, within, hsum, hbefore, hcover, hoptions⟩ := h
      refine (hbefore.add (.choice ?_)).mono hsum
      intro o ho
      rw [List.mem_reverse] at ho
      rcases List.mem_cons.1 (List.mem_filter.1 ho).1 with hcurrent | hbefore
      · exact hcurrent ▸ hcover
      · exact hoptions o hbefore

theorem nextOption (h : ReadsAtMost base n pieces (g :: groups)) :
    ReadsAtMost base n [] ({ g with options := pieces.reverse :: g.options } :: groups) := by
  obtain ⟨before, within, hsum, hbefore, hcover, hoptions⟩ := h
  refine ⟨before, within, hsum, hbefore, CoverAtMost.nil.mono (Nat.zero_le _), ?_⟩
  exact List.forall_mem_cons.2 ⟨hcover, hoptions⟩

end ReadsAtMost

/-- Reading `cs` made `p` of what covers at most `n` bytes: at most the bytes of `cs` were
added, and fewer if something in `cs` stands for more than one byte. -/
def AddsAtMost (base : List Piece) (n : Nat) (cs : List Char) (p : Progress) : Prop :=
  ∃ m, ReadsAtMost base m p.pieces p.groups ∧ m ≤ n + size cs ∧
    (m = n + size cs → ∀ c ∈ cs, isUnit c)

namespace AddsAtMost

variable {base : List Piece} {m : Nat}

theorem of_fewer (h : AddsAtMost base m rest p) (hfewer : m + size rest < n + size cs) :
    AddsAtMost base n cs p := by
  obtain ⟨k, hreads, hle, -⟩ := h
  exact ⟨k, hreads, by omega, fun heq => by omega⟩

theorem of_unit (h : AddsAtMost base (n + size [c]) rest p) (hc : isUnit c) :
    AddsAtMost base n (c :: rest) p := by
  have hsize := size_cons c rest
  obtain ⟨k, hreads, hle, hunits⟩ := h
  refine ⟨k, hreads, by omega, ?_⟩
  intro heq
  exact List.forall_mem_cons.2 ⟨hc, hunits (by omega)⟩

theorem of_silent (h : AddsAtMost base n rest p) (c : Char) : AddsAtMost base n (c :: rest) p := by
  apply h.of_fewer
  have hpos := size_singleton_pos c
  rw [size_cons]
  omega

end AddsAtMost

theorem readRanges_suffix {ranges ranges' : List (Char × Char)} {inRange : Bool}
    (h : readRanges ranges inRange cs = .ok (ranges', rest)) : ∃ c, c :: rest <:+ cs := by
  fun_induction readRanges ranges inRange cs with
  | case1 => cases h
  | case3 _ c =>
      cases h
      exact ⟨c, List.suffix_refl _⟩
  | case4 => cases h
  | case2 | case5 | case6 | case7 =>
      rename_i ih
      obtain ⟨c, hc⟩ := ih h
      exact ⟨c, hc.trans (List.suffix_cons _ _)⟩

theorem readClass_spec {piece : Piece} (h : readClass cs = .ok (piece, rest)) :
    CoverAtMost 1 [piece] ∧ ∃ c, c :: rest <:+ cs := by
  unfold readClass at h
  obtain ⟨⟨ranges, after⟩, hranges, hpiece⟩ := bind_eq_ok_iff.1 h
  obtain ⟨c, hc⟩ := readRanges_suffix hranges
  cases hpiece
  constructor
  · split
    · exact .noneOf _
    · exact .oneOf _
  · refine ⟨c, hc.trans ?_⟩
    split
    · exact List.tail_suffix cs
    · exact List.suffix_refl cs

/-- A run of the reader adds at most the bytes it reads. -/
theorem readFrom_atMost {base : List Piece} (hstar : '*' ∉ cs)
    (h : ReadsAtMost base n p.pieces p.groups) (hread : readFrom fuel p cs = .ok p') :
    AddsAtMost base n cs p' := by
  fun_induction readFrom fuel p cs generalizing n with
  | case1 p cs =>
      cases hread
      refine ⟨n, h, Nat.le_add_right _ _, ?_⟩
      intro heq
      cases cs with
      | nil => simp
      | cons c cs =>
          have hpos := size_singleton_pos c
          have hsize := size_cons c cs
          omega
  | case2 =>
      cases hread
      exact ⟨n, h, Nat.le_refl _, by simp⟩
  | case3 fuel p rest ih =>
      exact (ih (List.not_mem_of_not_mem_cons hstar) (h.add .anyByte) hread).of_unit rfl
  | case4 => exact absurd List.mem_cons_self hstar
  | case5 => exact absurd List.mem_cons_self hstar
  | case6 fuel p rest ih =>
      -- a class is written with two brackets and covers one byte
      obtain ⟨⟨piece, after⟩, hclass, hread⟩ := bind_eq_ok_iff.1 hread
      obtain ⟨hcover, c, hsuffix⟩ := readClass_spec hclass
      have hafter : '*' ∉ after := fun hmem =>
        hstar (List.mem_cons_of_mem _ (hsuffix.subset (List.mem_cons_of_mem _ hmem)))
      refine (ih piece after hafter (h.add hcover) hread).of_fewer ?_
      have hpos := size_singleton_pos c
      have hsize := size_cons c after
      have hle := size_le_of_suffix hsuffix
      have hbracket : size ('[' :: rest) = 1 + size rest := size_cons _ _
      omega
  | case7 fuel p rest ih =>
      exact (ih (List.not_mem_of_not_mem_cons hstar) h.openGroup hread).of_silent _
  | case8 fuel p rest ih =>
      obtain ⟨closed, hclose, hread⟩ := bind_eq_ok_iff.1 hread
      have hrest := List.not_mem_of_not_mem_cons hstar
      exact (ih closed hrest (h.closeGroup hclose) hread).of_silent _
  | case9 fuel p rest ih =>
      -- a comma stands for itself unless a group is open
      have hrest := List.not_mem_of_not_mem_cons hstar
      obtain ⟨pieces, groups, last⟩ := p
      cases groups with
      | nil => exact (ih hrest (h.addLiteral ',') hread).of_unit rfl
      | cons g groups => exact (ih hrest h.nextOption hread).of_silent _
  | case10 => cases hread
  | case11 fuel p d after ih =>
      have hafter : '*' ∉ after :=
        List.not_mem_of_not_mem_cons (List.not_mem_of_not_mem_cons hstar)
      refine (ih hafter (h.addLiteral d) hread).of_fewer ?_
      have hescape : size ('\\' :: d :: after) = 1 + size (d :: after) := size_cons _ _
      rw [hescape, size_cons d after]
      omega
  | case12 fuel p c rest hquestion hstar' hclass hopen hclose _ _ hdangling hescape ih =>
      have hbackslash : c ≠ '\\' := by
        rintro rfl
        cases rest with
        | nil => exact hdangling rfl rfl
        | cons d after => exact hescape d after rfl rfl
      have hunit : isUnit c := by
        simp_all [isUnit, isOperator]
      exact (ih (List.not_mem_of_not_mem_cons hstar) (h.addLiteral c) hread).of_unit hunit

/-! ### Whole globs -/

variable {glob : String} {pieces : List Piece}

theorem read_of_readFrom (h : readFrom glob.toList.length .start glob.toList = .ok p)
    (hgroups : p.groups = []) (hleading : p.pieces ≠ [.leading]) :
    read glob = .ok p.pieces.reverse := by
  rw [read, h]
  simp [hgroups]

theorem readFrom_of_read (h : read glob = .ok pieces) :
    ∃ p, readFrom glob.toList.length .start glob.toList = .ok p ∧ p.groups = [] ∧
      (p.pieces = [.leading] ∨ pieces = p.pieces.reverse) := by
  unfold read at h
  dsimp only at h
  split at h
  · cases h
  · next p hread =>
    refine ⟨p, hread, ?_⟩
    split at h
    · cases h
    · next hgroups =>
      refine ⟨by simpa using hgroups, ?_⟩
      split at h
      · next hpieces => exact .inl hpieces
      · cases h
        exact .inr rfl

end Glob
end DocClaims
