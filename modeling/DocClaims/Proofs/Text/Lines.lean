import DocClaims.Text.Lines
import Mathlib.Data.List.Basic

/-!
# Lines of a text

The lines of a text, told by where they end. A text has its lines and no others.
-/

namespace DocClaims
namespace Text

/-- A line ends before a line feed, or before a carriage return and a line feed. What is left at
the end of the text is a line unless it is empty. -/
inductive HasLines : List Char → List (List Char) → Prop
  | nil : HasLines [] []
  | last {line : List Char} : line ≠ [] → '\n' ∉ line → HasLines line [line]
  | feed {line rest : List Char} {lines : List (List Char)} :
      '\n' ∉ line → line.getLast? ≠ some '\r' → HasLines rest lines →
      HasLines (line ++ '\n' :: rest) (line :: lines)
  | returnFeed {line rest : List Char} {lines : List (List Char)} :
      '\n' ∉ line → HasLines rest lines →
      HasLines (line ++ '\r' :: '\n' :: rest) (line :: lines)

variable {line cs rest : List Char} {ls : List (List Char)}

theorem dropReturn_of_head? (h : line.head? ≠ some '\r') : dropReturn line = line := by
  cases line with
  | nil => rfl
  | cons c line =>
      rw [dropReturn]
      rintro _ heq
      obtain ⟨rfl, -⟩ := List.cons.inj heq
      exact absurd rfl h

theorem linesFrom_append (h : '\n' ∉ cs) (rest : List Char) :
    linesFrom line (cs ++ rest) = linesFrom (cs.reverse ++ line) rest := by
  induction cs generalizing line with
  | nil => rfl
  | cons c cs ih =>
      have hc : ¬(c == '\n') = true := by
        rw [beq_iff_eq]
        exact (List.ne_of_not_mem_cons h).symm
      rw [List.cons_append, linesFrom, if_neg hc, ih (List.not_mem_of_not_mem_cons h),
        List.reverse_cons, List.append_assoc, List.singleton_append]

theorem linesFrom_feed (line rest : List Char) :
    linesFrom line ('\n' :: rest) = (dropReturn line).reverse :: lines rest := by
  rw [linesFrom, if_pos (beq_self_eq_true _), lines]

theorem lines_append_feed (h : '\n' ∉ line) (hend : line.getLast? ≠ some '\r') :
    lines (line ++ '\n' :: rest) = line :: lines rest := by
  have hhead : line.reverse.head? ≠ some '\r' := by rwa [List.head?_reverse]
  rw [lines, linesFrom_append h, List.append_nil, linesFrom_feed, dropReturn_of_head? hhead,
    List.reverse_reverse]

theorem lines_append_returnFeed (h : '\n' ∉ line) :
    lines (line ++ '\r' :: '\n' :: rest) = line :: lines rest := by
  have hline : '\n' ∉ line ++ ['\r'] := by simpa using h
  have hwhole : line ++ '\r' :: '\n' :: rest = (line ++ ['\r']) ++ '\n' :: rest := by simp
  rw [hwhole, lines, linesFrom_append hline, List.append_nil, linesFrom_feed, List.reverse_concat,
    dropReturn, List.reverse_reverse]

theorem lines_of_not_mem (hne : line ≠ []) (h : '\n' ∉ line) : lines line = [line] := by
  have hend : linesFrom [] (line ++ []) = _ := linesFrom_append h []
  rw [List.append_nil, List.append_nil] at hend
  rw [lines, hend, linesFrom, if_neg (by simpa using hne), List.reverse_reverse]

theorem hasLines_lines (cs : List Char) : HasLines cs (lines cs) := by
  -- by the length of the text, line by line
  induction hn : cs.length using Nat.strongRecOn generalizing cs with
  | ind n ih =>
      by_cases hfeed : '\n' ∈ cs
      · obtain ⟨line, rest, rfl, hline⟩ := List.eq_append_cons_of_mem hfeed
        have hrest : HasLines rest (lines rest) := ih rest.length (by simp [← hn]; omega) rest rfl
        by_cases hend : line.getLast? = some '\r'
        · obtain ⟨front, rfl⟩ := List.getLast?_eq_some_iff.1 hend
          have hfront : '\n' ∉ front := fun h => hline (List.mem_append_left _ h)
          rw [List.append_assoc, List.singleton_append, lines_append_returnFeed hfront]
          exact .returnFeed hfront hrest
        · rw [lines_append_feed hline hend]
          exact .feed hline hend hrest
      · by_cases hne : cs = []
        · rw [hne]
          exact .nil
        · rw [lines_of_not_mem hne hfeed]
          exact .last hne hfeed

/-- A text has its lines and no others. -/
theorem hasLines_iff : HasLines cs ls ↔ lines cs = ls := by
  constructor
  · intro h
    induction h with
    | nil => rfl
    | last hne hline => exact lines_of_not_mem hne hline
    | feed hline hend _ ih => rw [lines_append_feed hline hend, ih]
    | returnFeed hline _ ih => rw [lines_append_returnFeed hline, ih]
  · rintro rfl
    exact hasLines_lines cs

/-- A carriage return that no line feed follows stays. -/
example : HasLines "a\r\n\nb\r".toList ["a".toList, [], "b\r".toList] := by
  rw [hasLines_iff]
  decide

end Text
end DocClaims
