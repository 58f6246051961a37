/-!
# Sorted sets of texts

A set of texts is kept as the strictly increasing list of its members, so equal
sets are equal lists. Texts are ordered by code points.
-/

namespace DocClaims

structure SortedTexts where
  toList : List String
  sorted : toList.Pairwise (· < ·)
  deriving DecidableEq

namespace SortedTexts

def empty : SortedTexts := ⟨[], .nil⟩

def size (t : SortedTexts) : Nat := t.toList.length

def contains (t : SortedTexts) (s : String) : Bool := t.toList.contains s

/-- The increasing list with one more text, unless it is already there. -/
def insertInto (s : String) : List String → List String
  | [] => [s]
  | a :: rest =>
      if s < a then s :: a :: rest else if s = a then a :: rest else a :: insertInto s rest

theorem mem_insertInto {s b : String} {l : List String} : b ∈ insertInto s l ↔ b = s ∨ b ∈ l := by
  induction l with
  | nil => simp [insertInto]
  | cons a rest ih =>
      unfold insertInto
      split
      · simp
      · split
        · next h => simp [h]
        · simp only [List.mem_cons, ih]
          constructor
          · rintro (h | h | h) <;> simp [h]
          · rintro (h | h | h) <;> simp [h]

theorem lt_of_not_lt_of_ne {a b : String} (h : ¬a < b) (hne : a ≠ b) : b < a :=
  Std.lt_of_le_of_ne (String.not_lt.1 h) (Ne.symm hne)

theorem sorted_insertInto {s : String} {l : List String} (h : l.Pairwise (· < ·)) :
    (insertInto s l).Pairwise (· < ·) := by
  induction l with
  | nil => simp [insertInto]
  | cons a rest ih =>
      have hrest := List.pairwise_cons.1 h
      unfold insertInto
      split
      · next hlt =>
          refine List.pairwise_cons.2 ⟨?_, h⟩
          intro b hb
          rcases List.mem_cons.1 hb with rfl | hb
          · exact hlt
          · exact String.lt_trans hlt (hrest.1 b hb)
      · next hnot =>
          split
          · exact h
          · next hne =>
              refine List.pairwise_cons.2 ⟨?_, ih hrest.2⟩
              intro b hb
              rcases mem_insertInto.1 hb with rfl | hb
              · exact lt_of_not_lt_of_ne hnot hne
              · exact hrest.1 b hb

def insert (t : SortedTexts) (s : String) : SortedTexts :=
  ⟨insertInto s t.toList, sorted_insertInto t.sorted⟩

def ofList (l : List String) : SortedTexts := l.foldl insert empty

end SortedTexts
end DocClaims
