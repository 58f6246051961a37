import DocClaims.Path
import DocClaims.Proofs.Text.Suffix
import Mathlib.Data.List.DropRight

/-!
# Segments of paths

Names that are joined by slashes are the segments of the path, and the segments of paths that are
joined are those of the one and of the other. The steps of a text are its pieces between slashes;
its bytes have these steps as their segments.
-/

namespace DocClaims

namespace Text

variable {α : Type} [BEq α] [LawfulBEq α] {a : α}

theorem splitFrom_append_cons (piece xs ys : List α) :
    splitFrom a piece (xs ++ a :: ys) = splitFrom a piece xs ++ split a ys := by
  induction xs generalizing piece with
  | nil => simp [splitFrom, split]
  | cons x xs ih =>
      rw [List.cons_append, splitFrom, splitFrom, ih, ih]
      split <;> rfl

theorem splitFrom_of_not_mem {piece xs : List α} (h : a ∉ xs) :
    splitFrom a piece xs = [piece.reverse ++ xs] := by
  induction xs generalizing piece with
  | nil => simp [splitFrom]
  | cons x xs ih =>
      have hx : ¬(x == a) = true := by
        rw [beq_iff_eq]
        exact (List.ne_of_not_mem_cons h).symm
      rw [splitFrom, if_neg hx, ih (List.not_mem_of_not_mem_cons h)]
      simp

theorem split_of_not_mem {xs : List α} (h : a ∉ xs) : split a xs = [xs] := splitFrom_of_not_mem h

theorem bne_of_mem_reverse {xs : List α} (h : a ∉ xs) : ∀ x ∈ xs.reverse, (x != a) = true := by
  intro x hx
  rw [bne_iff_ne]
  rintro rfl
  exact h (List.mem_reverse.1 hx)

theorem split_append_cons_of_not_mem {xs : List α} (h : a ∉ xs) (ys : List α) :
    split a (xs ++ a :: ys) = xs :: split a ys := by
  rw [split, splitFrom_append_cons, splitFrom_of_not_mem h]
  rfl

/-- What holds of texts without separators, and of a text for what follows its first one. -/
theorem split_induction {motive : List α → Prop} (a : α)
    (last : ∀ xs, a ∉ xs → motive xs)
    (piece : ∀ xs ys, a ∉ xs → motive ys → motive (xs ++ a :: ys)) (xs : List α) : motive xs := by
  induction hn : xs.length using Nat.strongRecOn generalizing xs with
  | ind n ih =>
      by_cases hmem : a ∈ xs
      · obtain ⟨front, rest, rfl, hfront⟩ := List.eq_append_cons_of_mem hmem
        apply piece front rest hfront
        apply ih rest.length _ rest rfl
        rw [← hn, List.length_append, List.length_cons]
        omega
      · exact last xs hmem

theorem of_mem_split {piece xs : List α} (h : piece ∈ split a xs) : a ∉ piece ∧ piece ⊆ xs := by
  induction xs using split_induction a with
  | last xs hxs =>
      rw [split_of_not_mem hxs, List.mem_singleton] at h
      rw [h]
      exact ⟨hxs, List.Subset.refl _⟩
  | piece xs ys hxs ih =>
      rw [split_append_cons_of_not_mem hxs] at h
      rcases List.mem_cons.1 h with rfl | hrest
      · exact ⟨hxs, List.subset_append_left _ _⟩
      · obtain ⟨hpiece, hsubset⟩ := ih hrest
        refine ⟨hpiece, fun x hx => ?_⟩
        exact List.mem_append_right _ (List.mem_cons_of_mem _ (hsubset hx))

/-- Pieces that are joined by a separator are told apart again. -/
theorem split_intercalate {pieces : List (List α)} (hne : pieces ≠ [])
    (h : ∀ piece ∈ pieces, a ∉ piece) : split a ([a].intercalate pieces) = pieces := by
  induction pieces with
  | nil => exact absurd rfl hne
  | cons piece rest ih =>
      obtain ⟨hpiece, hrest⟩ := List.forall_mem_cons.1 h
      cases rest with
      | nil => rw [List.intercalate_singleton, split_of_not_mem hpiece]
      | cons other rest =>
          rw [List.intercalate_cons_cons, List.append_assoc, List.singleton_append,
            split_append_cons_of_not_mem hpiece, ih (List.cons_ne_nil _ _) hrest]

theorem splitFrom_append_of_not_mem {piece xs : List α} (h : a ∉ xs) (ys : List α) :
    splitFrom a piece (xs ++ ys) = splitFrom a (xs.reverse ++ piece) ys := by
  induction xs generalizing piece with
  | nil => rfl
  | cons x xs ih =>
      have hx : ¬(x == a) = true := by
        rw [beq_iff_eq]
        exact (List.ne_of_not_mem_cons h).symm
      rw [List.cons_append, splitFrom, if_neg hx, ih (List.not_mem_of_not_mem_cons h),
        List.reverse_cons, List.append_assoc, List.singleton_append]

omit [LawfulBEq α] in
/-- What has been read before belongs to the first piece. -/
theorem exists_splitFrom_eq (a : α) (xs : List α) :
    ∃ first rest, ∀ piece, splitFrom a piece xs = (piece.reverse ++ first) :: rest := by
  induction xs with
  | nil => exact ⟨[], [], fun piece => by rw [splitFrom, List.append_nil]⟩
  | cons x xs ih =>
      obtain ⟨first, rest, hsplit⟩ := ih
      by_cases hx : (x == a) = true
      · refine ⟨[], splitFrom a [] xs, fun piece => ?_⟩
        rw [splitFrom, if_pos hx, List.append_nil]
      · refine ⟨x :: first, rest, fun piece => ?_⟩
        rw [splitFrom, if_neg hx, hsplit, List.reverse_cons, List.append_assoc,
          List.singleton_append]

theorem intercalate_split (xs : List α) : [a].intercalate (split a xs) = xs := by
  induction xs using split_induction a with
  | last xs hxs => rw [split_of_not_mem hxs, List.intercalate_singleton]
  | piece xs ys hxs ih =>
      obtain ⟨first, rest, hsplit⟩ := exists_splitFrom_eq a ys
      have hys : split a ys = first :: rest := hsplit []
      rw [split_append_cons_of_not_mem hxs, hys, List.intercalate_cons_cons, ← hys, ih,
        List.append_assoc, List.singleton_append]

/-- What comes behind belongs to the last piece. -/
theorem exists_splitFrom_append_eq (a : α) (piece xs : List α) :
    ∃ front last, ∀ ys, a ∉ ys → splitFrom a piece (xs ++ ys) = front ++ [last ++ ys] := by
  induction xs generalizing piece with
  | nil => exact ⟨[], piece.reverse, fun ys hys => splitFrom_of_not_mem hys⟩
  | cons x xs ih =>
      by_cases hx : (x == a) = true
      · obtain ⟨front, last, hsplit⟩ := ih []
        refine ⟨piece.reverse :: front, last, fun ys hys => ?_⟩
        rw [List.cons_append, splitFrom, if_pos hx, hsplit ys hys, List.cons_append]
      · obtain ⟨front, last, hsplit⟩ := ih (x :: piece)
        refine ⟨front, last, fun ys hys => ?_⟩
        rw [List.cons_append, splitFrom, if_neg hx, hsplit ys hys]

/-- The last piece is what follows the last separator. -/
theorem split_eq (a : α) (xs : List α) :
    ∃ front, split a xs = front ++ [xs.rtakeWhile (· != a)] := by
  have hlast : a ∉ xs.rtakeWhile (· != a) := by
    intro h
    simpa using List.mem_rtakeWhile_imp h
  have hxs : xs = xs.rdropWhile (· != a) ++ xs.rtakeWhile (· != a) :=
    List.rdropWhile_append_rtakeWhile.symm
  by_cases hfront : xs.rdropWhile (· != a) = []
  · refine ⟨[], ?_⟩
    rw [hfront, List.nil_append] at hxs
    rw [← hxs] at hlast ⊢
    exact split_of_not_mem hlast
  · have hseparator : (xs.rdropWhile (· != a)).getLast hfront = a := by
      simpa using List.rdropWhile_last_not (· != a) xs hfront
    refine ⟨splitFrom a [] (xs.rdropWhile (· != a)).dropLast, ?_⟩
    calc
      _ = split a ((xs.rdropWhile (· != a)).dropLast ++ a :: xs.rtakeWhile (· != a)) := by
        conv_lhs => rw [hxs, ← List.dropLast_concat_getLast hfront, hseparator]
        rw [List.append_assoc, List.singleton_append]
      _ = _ := by
        rw [split, splitFrom_append_cons, split, splitFrom_of_not_mem hlast]
        rfl

end Text

namespace Path

open Text (Bytes)

variable {p q : Bytes}

/-! ### Segments -/

theorem exists_segments_eq_cons (p : Bytes) : ∃ first rest, segments p = first :: rest := by
  obtain ⟨first, rest, hsplit⟩ := Text.exists_splitFrom_eq slash p
  exact ⟨first, rest, hsplit []⟩

theorem segments_ne_nil (p : Bytes) : segments p ≠ [] := by
  obtain ⟨first, rest, hsegments⟩ := exists_segments_eq_cons p
  rw [hsegments]
  exact List.cons_ne_nil _ _

theorem segments_of_not_mem (h : slash ∉ p) : segments p = [p] := Text.split_of_not_mem h

theorem segments_append_slash (p q : Bytes) :
    segments (p ++ slash :: q) = segments p ++ segments q :=
  Text.splitFrom_append_cons [] p q

theorem intercalate_segments (p : Bytes) : [slash].intercalate (segments p) = p :=
  Text.intercalate_split p

theorem segments_intercalate {names : List Bytes} (h : ∀ name ∈ names, slash ∉ name)
    (hne : names ≠ []) : segments ([slash].intercalate names) = names :=
  Text.split_intercalate hne h

/-- The segment names an entry: it is not empty and no dots that stand for a directory. -/
def IsName (s : Bytes) : Prop := s ≠ [] ∧ s ≠ [dot] ∧ s ≠ [dot, dot]

instance : DecidablePred IsName := fun _ => inferInstanceAs (Decidable (_ ∧ _ ∧ _))

/-- The segment says nothing behind another one. -/
def IsSilent (s : Bytes) : Prop := s = [] ∨ s = [dot]

theorem IsName.not_isSilent {s : Bytes} (h : IsName s) : ¬IsSilent s := by
  rintro (rfl | rfl)
  · exact h.1 rfl
  · exact h.2.1 rfl

/-- The second path ends with another name than the first, behind the same segments but for
silent ones. -/
inductive Beside (p q : Bytes) : Prop
  | intro {front silent back : List Bytes} {name other : Bytes} :
      segments p = front ++ silent ++ name :: back → (∀ s ∈ silent ++ back, IsSilent s) →
      segments q = front ++ [other] → isAbsolute q = isAbsolute p →
      IsName name → IsName other → other ≠ name → Beside p q

/-- A relative path behind a directory goes on with its segments, in place of what follows a
slash that ends the directory. -/
theorem exists_segments_join {root rel : Bytes} (hrel : isAbsolute rel = false)
    (hroot : root ≠ []) :
    ∃ front back, segments root = front ++ back ∧ (∀ s ∈ back, s = []) ∧
      segments (join root rel) = front ++ segments rel := by
  by_cases hslash : root.getLast? = some slash
  · obtain ⟨front, rfl⟩ := List.getLast?_eq_some_iff.1 hslash
    have hjoin : join (front ++ [slash]) rel = front ++ slash :: rel := by
      rw [join, hrel]
      simp
    refine ⟨segments front, [[]], ?_, by simp, ?_⟩
    · exact segments_append_slash front []
    · rw [hjoin, segments_append_slash]
  · have hjoin : join root rel = root ++ slash :: rel := by
      rw [join, hrel]
      simp [hroot, hslash]
    refine ⟨segments root, [], (List.append_nil _).symm, by simp, ?_⟩
    rw [hjoin, segments_append_slash]

theorem isAbsolute_join {root rel : Bytes} (hrel : isAbsolute rel = false)
    (hroot : root ≠ []) : isAbsolute (join root rel) = isAbsolute root := by
  rw [join, hrel, if_neg (by decide)]
  split
  · rw [isAbsolute, List.head?_append_of_ne_nil _ hroot, isAbsolute]
  · rw [isAbsolute, List.head?_append_of_ne_nil _ hroot, isAbsolute]

/-! ### Texts -/

section Texts

variable {s t : String}

theorem slash_not_mem_encode (h : '/' ∉ s.toList) : slash ∉ Text.encode s :=
  Text.not_mem_flatMap_utf8EncodeChar (by decide) h

theorem slash_mem_encode_iff : slash ∈ Text.encode s ↔ '/' ∈ s.toList := by
  constructor
  · intro h
    by_contra hnot
    exact slash_not_mem_encode hnot h
  · intro h
    exact List.mem_flatMap.2 ⟨'/', h, by decide⟩

theorem isName_encode_iff : IsName (Text.encode s) ↔ s ≠ "" ∧ s ≠ "." ∧ s ≠ ".." := by
  have hdot : [dot] = Text.encode "." := by decide
  have hdots : [dot, dot] = Text.encode ".." := by decide
  rw [IsName, hdots, hdot, ne_eq, ne_eq, ne_eq, Text.encode_eq_nil, Text.encode_inj,
    Text.encode_inj]

theorem isAbsolute_encode : isAbsolute (Text.encode s) = (s.toList.head? == some '/') := by
  rw [isAbsolute, Text.encode]
  cases s.toList with
  | nil => rfl
  | cons c cs =>
      obtain ⟨lead, tail, hbytes, -⟩ := Text.piece_utf8EncodeChar c []
      rw [List.flatMap_cons, hbytes, List.cons_append, List.head?_cons, List.head?_cons,
        Bool.eq_iff_iff, beq_iff_eq, beq_iff_eq, Option.some.injEq, Option.some.injEq]
      constructor
      · rintro rfl
        have hmem : slash ∈ String.utf8EncodeChar c := by simp [hbytes]
        exact Text.eq_of_mem_utf8EncodeChar (by decide) hmem
      · rintro rfl
        have hslash : String.utf8EncodeChar '/' = [slash] := by decide
        rw [hslash] at hbytes
        exact (List.cons.inj hbytes).1.symm

/-- The pieces of a text between its slashes. -/
def steps (s : String) : List String := (Text.split '/' s.toList).map String.ofList

theorem segments_encode (s : String) : segments (Text.encode s) = (steps s).map Text.encode := by
  have hsegments (cs : List Char) : Text.split slash (cs.flatMap String.utf8EncodeChar) =
      (Text.split '/' cs).map fun piece => piece.flatMap String.utf8EncodeChar := by
    induction cs using Text.split_induction '/' with
    | last cs hcs =>
        have hbytes := @Text.not_mem_flatMap_utf8EncodeChar _ slash (by decide) hcs
        rw [Text.split_of_not_mem hbytes, Text.split_of_not_mem hcs, List.map_singleton]
    | piece cs ds hcs ih =>
        have hbytes := @Text.not_mem_flatMap_utf8EncodeChar _ slash (by decide) hcs
        have hslash : String.utf8EncodeChar '/' = [slash] := by decide
        rw [Text.split_append_cons_of_not_mem hcs, List.flatMap_append, List.flatMap_cons, hslash,
          List.singleton_append, Text.split_append_cons_of_not_mem hbytes, ih, List.map_cons]
  rw [segments, Text.encode, hsegments, steps, List.map_map]
  apply List.map_congr_left
  intro cs _
  rw [Function.comp_apply, Text.encode, String.toList_ofList]

theorem steps_of_not_mem (h : '/' ∉ s.toList) : steps s = [s] := by
  rw [steps, Text.split_of_not_mem h]
  simp

theorem steps_append_slash (s t : String) : steps (s ++ "/" ++ t) = steps s ++ steps t := by
  have hchars : (s ++ "/" ++ t).toList = s.toList ++ '/' :: t.toList := by simp
  rw [steps, hchars, Text.split, Text.splitFrom_append_cons, List.map_append]
  rfl

theorem steps_intercalate_eq_flatMap {texts : List String} (hne : texts ≠ []) :
    steps (String.intercalate "/" texts) = texts.flatMap steps := by
  induction texts with
  | nil => exact absurd rfl hne
  | cons s rest ih =>
      cases rest with
      | nil => simp
      | cons t rest =>
          rw [String.intercalate_cons_cons, steps_append_slash, ih (List.cons_ne_nil _ _)]
          exact List.flatMap_cons.symm

/-- A text without slashes that comes before another one belongs to its first step. -/
theorem exists_steps_eq_cons (s : String) :
    ∃ first rest, steps s = first :: rest ∧
      ∀ t, '/' ∉ t.toList → steps (t ++ s) = (t ++ first) :: rest := by
  obtain ⟨first, rest, hsplit⟩ := Text.exists_splitFrom_eq '/' s.toList
  refine ⟨String.ofList first, rest.map String.ofList, ?_, ?_⟩
  · rw [steps, Text.split, hsplit]
    rfl
  · intro t ht
    rw [steps, String.toList_append, Text.split, Text.splitFrom_append_of_not_mem ht, hsplit]
    simp

/-- A text without slashes that comes behind another one belongs to its last step. -/
theorem exists_steps_eq_concat (s : String) :
    ∃ front last, steps s = front ++ [last] ∧
      ∀ t, '/' ∉ t.toList → steps (s ++ t) = front ++ [last ++ t] := by
  obtain ⟨front, last, hsplit⟩ := Text.exists_splitFrom_append_eq '/' [] s.toList
  refine ⟨front.map String.ofList, String.ofList last, ?_, ?_⟩
  · have hnil := hsplit [] List.not_mem_nil
    rw [List.append_nil, List.append_nil] at hnil
    rw [steps, Text.split, hnil]
    simp
  · intro t ht
    rw [steps, String.toList_append, Text.split, hsplit t.toList ht]
    simp

theorem intercalate_steps (s : String) : String.intercalate "/" (steps s) = s := by
  have hslash : "/".toList = ['/'] := by simp
  rw [← String.toList_inj, String.toList_intercalate, steps, List.map_map, hslash]
  simpa using Text.intercalate_split s.toList

theorem steps_intercalate {texts : List String} (h : ∀ s ∈ texts, '/' ∉ s.toList)
    (hne : texts ≠ []) : steps (String.intercalate "/" texts) = texts := by
  have hsplit := Text.split_intercalate (mt List.map_eq_nil_iff.1 hne) (List.forall_mem_map.2 h)
  have hslash : "/".toList = ['/'] := by simp
  rw [steps, String.toList_intercalate, hslash, hsplit, List.map_map]
  simp

theorem encode_intercalate (texts : List String) :
    Text.encode (String.intercalate "/" texts) = [slash].intercalate (texts.map Text.encode) := by
  have hslash : Text.encode "/" = [slash] := by decide
  induction texts with
  | nil => rfl
  | cons s rest ih =>
      cases rest with
      | nil => simp
      | cons t rest =>
          rw [String.intercalate_cons_cons, Text.encode_append, Text.encode_append, ih, hslash]
          exact (List.intercalate_cons_cons ..).symm

/-! ### The last step -/

/-- The text behind the last slash. -/
def leaf (s : String) : String := String.ofList (s.toList.rtakeWhile (· != '/'))

theorem leaf_suffix (s : String) : (leaf s).toList <:+ s.toList := by
  rw [leaf, String.toList_ofList]
  exact List.rtakeWhile_suffix _ _

/-- What has no slash ends the last step if it ends the text. -/
theorem suffix_leaf_iff {cs : List Char} (h : '/' ∉ cs) :
    cs <:+ (leaf s).toList ↔ cs <:+ s.toList := by
  constructor
  · intro hsuffix
    exact hsuffix.trans (leaf_suffix s)
  · rintro ⟨front, hs⟩
    rw [leaf, String.toList_ofList, ← hs, List.rtakeWhile, List.reverse_append,
      List.takeWhile_append_of_pos (Text.bne_of_mem_reverse h), List.reverse_append,
      List.reverse_reverse]
    exact List.suffix_append _ _

theorem steps_eq (s : String) : ∃ front, steps s = front ++ [leaf s] := by
  obtain ⟨front, hsplit⟩ := Text.split_eq '/' s.toList
  refine ⟨front.map String.ofList, ?_⟩
  rw [steps, hsplit, List.map_append]
  rfl

theorem leaf_intercalate {texts : List String} (h : ∀ s ∈ texts, '/' ∉ s.toList) :
    leaf (String.intercalate "/" texts) = texts.getLast?.getD "" := by
  by_cases hne : texts = []
  · rw [hne]
    rfl
  · obtain ⟨front, hsteps⟩ := steps_eq (String.intercalate "/" texts)
    rw [steps_intercalate h hne] at hsteps
    rw [hsteps, List.getLast?_concat, Option.getD_some, ← hsteps]

end Texts

end Path
end DocClaims
