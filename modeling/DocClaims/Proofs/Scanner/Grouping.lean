import DocClaims.Scanner
import Mathlib.Data.List.SplitBy

/-!
# Text units as groups

The units of a document, told without the scanner's buffer: the texts of the
document fall into groups of neighbours, and every group that is not blank is a
unit. Two neighbours belong together if both are buffered and no verbatim
container ends between them.
-/

namespace DocClaims
namespace Scanner

open Markup

variable (scanner : Scanner)

/-- A text among the events of a document. -/
structure Piece where
  text : String
  /-- The text stands in a verbatim container or holds the marker. -/
  buffered : Bool
  /-- A verbatim container ends between the text before and this one. -/
  cut : Bool
  deriving DecidableEq, Repr

def Piece.joins (p q : Piece) : Bool := p.buffered && q.buffered && !q.cut

def isVerbatimStart : Event → Bool
  | .start name => scanner.isVerbatim name
  | _ => false

def isVerbatimEnd : Event → Bool
  | .finish name => scanner.isVerbatim name
  | _ => false

def isText : Event → Bool
  | .text _ => true
  | _ => false

/-- The last verbatim tag of `before`, which is in reverse, is a start tag. -/
def inContainer (before : List Event) : Bool :=
  (before.find? fun e => scanner.isVerbatimStart e || scanner.isVerbatimEnd e).any
    scanner.isVerbatimStart

/-- A verbatim end tag follows the last text of `before`, which is in reverse. -/
def endsContainer (before : List Event) : Bool :=
  (before.takeWhile (!isText ·)).any scanner.isVerbatimEnd

/-- The texts among the events, behind those of `before`, which are in reverse. -/
def piecesFrom (before : List Event) : List Event → List Piece
  | [] => []
  | .text s :: rest =>
      ⟨s, scanner.inContainer before || Text.contains s scanner.marker,
        scanner.endsContainer before⟩ :: piecesFrom (.text s :: before) rest
  | .start name :: rest => piecesFrom (.start name :: before) rest
  | .finish name :: rest => piecesFrom (.finish name :: before) rest

def pieces (events : List Event) : List Piece := scanner.piecesFrom [] events

def groups (events : List Event) : List (List Piece) := (scanner.pieces events).splitBy Piece.joins

def groupText (group : List Piece) : String := String.join (group.map Piece.text)

def unitsOf (groups : List (List Piece)) : List String :=
  (groups.map groupText).filter (!Text.allBlank ·)

/-! ### Small facts -/

@[simp] theorem groupText_nil : groupText [] = "" := rfl

@[simp] theorem groupText_singleton (p : Piece) : groupText [p] = p.text := by
  simp [groupText, String.join]

@[simp] theorem groupText_append (g h : List Piece) :
    groupText (g ++ h) = groupText g ++ groupText h := by
  simp [groupText, String.join_append]

theorem unitsOf_append (gs hs : List (List Piece)) :
    unitsOf (gs ++ hs) = unitsOf gs ++ unitsOf hs := by
  simp [unitsOf]

theorem unitsOf_singleton (g : List Piece) : unitsOf [g] = emit (groupText g) := by
  cases h : Text.allBlank (groupText g) <;> simp [unitsOf, emit, h]

theorem unitsOf_splitBy_of_isChain {group : List Piece} (h : group.IsChain (Piece.joins · ·)) :
    unitsOf (group.splitBy Piece.joins) = emit (groupText group) := by
  cases group with
  | nil => rfl
  | cons p group => rw [List.splitBy_of_isChain (List.cons_ne_nil _ _) h, unitsOf_singleton]

theorem splitBy_cons_of_not_buffered {p : Piece} (hp : p.buffered = false) (ps : List Piece) :
    (p :: ps).splitBy Piece.joins = [p].splitBy Piece.joins ++ ps.splitBy Piece.joins := by
  have hnot : ∀ x ∈ [p].getLast?, ∀ y ∈ ps.head?, Piece.joins x y = false := by
    simp [Piece.joins, hp]
  exact List.splitBy_append hnot

variable {scanner}

theorem inContainer_start (name : String) (before : List Event) :
    scanner.inContainer (.start name :: before) =
      (scanner.inContainer before || scanner.isVerbatim name) := by
  cases h : scanner.isVerbatim name <;>
    simp [inContainer, isVerbatimStart, isVerbatimEnd, h]

theorem inContainer_finish (name : String) (before : List Event) :
    scanner.inContainer (.finish name :: before) =
      (scanner.inContainer before && !scanner.isVerbatim name) := by
  cases h : scanner.isVerbatim name <;>
    simp [inContainer, isVerbatimStart, isVerbatimEnd, h]

theorem inContainer_text (s : String) (before : List Event) :
    scanner.inContainer (.text s :: before) = scanner.inContainer before := by
  simp [inContainer, isVerbatimStart, isVerbatimEnd]

theorem endsContainer_start (name : String) (before : List Event) :
    scanner.endsContainer (.start name :: before) = scanner.endsContainer before := by
  simp [endsContainer, isText, isVerbatimEnd]

theorem endsContainer_finish (name : String) (before : List Event) :
    scanner.endsContainer (.finish name :: before) =
      (scanner.isVerbatim name || scanner.endsContainer before) := by
  simp [endsContainer, isText, isVerbatimEnd]

theorem endsContainer_text (s : String) (before : List Event) :
    scanner.endsContainer (.text s :: before) = false := by
  simp [endsContainer, isText]

theorem cut_of_head?_piecesFrom {before events : List Event} (h : scanner.endsContainer before) :
    ∀ p ∈ (scanner.piecesFrom before events).head?, p.cut := by
  induction events generalizing before with
  | nil => simp [piecesFrom]
  | cons e rest ih =>
      cases e with
      | text s => simp [piecesFrom, h]
      | start name => exact ih (by rw [endsContainer_start, h])
      | finish name => exact ih (by rw [endsContainer_finish, h, Bool.or_true])

/-! ### The buffer as an unfinished group -/

/-- What the scanner knows behind the events of `before`, which are in reverse:
whether it is in a container, and the group that it has collected so far and that
the next piece may still join. -/
structure Collecting (scanner : Scanner) (before : List Event) (verbatim : Bool)
    (group : List Piece) : Prop where
  verbatim_eq : verbatim = scanner.inContainer before
  isChain : group.IsChain (Piece.joins · ·)
  open_of_getLast? : ∀ p ∈ group.getLast?, p.buffered ∧ scanner.endsContainer before = false

namespace Collecting

variable {before : List Event} {verbatim : Bool} {group : List Piece}

theorem start (h : Collecting scanner before verbatim group) (name : String) :
    Collecting scanner (.start name :: before) (verbatim || scanner.isVerbatim name) group where
  verbatim_eq := by rw [inContainer_start, h.verbatim_eq]
  isChain := h.isChain
  open_of_getLast? := by
    rw [endsContainer_start]
    exact h.open_of_getLast?

theorem finish (h : Collecting scanner before verbatim group) {name : String}
    (hname : scanner.isVerbatim name = false) :
    Collecting scanner (.finish name :: before) verbatim group where
  verbatim_eq := by simp [inContainer_finish, h.verbatim_eq, hname]
  isChain := h.isChain
  open_of_getLast? := by
    rw [endsContainer_finish, hname, Bool.false_or]
    exact h.open_of_getLast?

theorem of_verbatim_finish {name : String} (hname : scanner.isVerbatim name = true) :
    Collecting scanner (.finish name :: before) false [] where
  verbatim_eq := by simp [inContainer_finish, hname]
  isChain := .nil
  open_of_getLast? := by simp

theorem text_of_buffered (h : Collecting scanner before verbatim group) (s : String) :
    Collecting scanner (.text s :: before) verbatim
      (group ++ [⟨s, true, scanner.endsContainer before⟩]) where
  verbatim_eq := by rw [inContainer_text, h.verbatim_eq]
  isChain := by
    apply List.IsChain.append h.isChain (.singleton _)
    intro p hp q hq
    obtain ⟨hbuffered, hends⟩ := h.open_of_getLast? p hp
    obtain rfl : _ = q := by simpa using hq
    simp [Piece.joins, hbuffered, hends]
  open_of_getLast? := by
    rw [endsContainer_text]
    simp

theorem text_of_not_buffered (h : Collecting scanner before verbatim group) (s : String) :
    Collecting scanner (.text s :: before) verbatim [] where
  verbatim_eq := by rw [inContainer_text, h.verbatim_eq]
  isChain := .nil
  open_of_getLast? := by simp

end Collecting

/-- The units from some event on are those of the collected group together with
the pieces still to come. -/
theorem unitsFrom_eq {before events : List Event} {verbatim : Bool} {group : List Piece}
    (h : Collecting scanner before verbatim group) :
    scanner.unitsFrom verbatim (groupText group) events =
      unitsOf ((group ++ scanner.piecesFrom before events).splitBy Piece.joins) := by
  induction events generalizing before verbatim group with
  | nil => simp [unitsFrom, piecesFrom, unitsOf_splitBy_of_isChain h.isChain]
  | cons e rest ih =>
      cases e with
      | start name => exact ih (h.start name)
      | finish name =>
          cases hname : scanner.isVerbatim name with
          | false => simpa [unitsFrom, piecesFrom, hname] using ih (h.finish hname)
          | true =>
              have hends : scanner.endsContainer (.finish name :: before) := by
                rw [endsContainer_finish, hname, Bool.true_or]
              have hcut : ∀ q ∈ (scanner.piecesFrom (.finish name :: before) rest).head?, q.cut :=
                cut_of_head?_piecesFrom hends
              have hsplit : ∀ p ∈ group.getLast?,
                  ∀ q ∈ (scanner.piecesFrom (.finish name :: before) rest).head?,
                    Piece.joins p q = false := by
                intro p _ q hq
                simp [Piece.joins, hcut q hq]
              have hbehind : Collecting scanner (.finish name :: before) false [] :=
                .of_verbatim_finish hname
              have hrest := ih hbehind
              simp only [groupText_nil, List.nil_append] at hrest
              simp only [unitsFrom, piecesFrom, hname, if_true, hrest]
              rw [List.splitBy_append hsplit, unitsOf_append, unitsOf_splitBy_of_isChain h.isChain]
      | text s =>
          cases hbuffered : verbatim || Text.contains s scanner.marker with
          | true =>
              have hrest := ih (h.text_of_buffered s)
              simp only [groupText_append, groupText_singleton, List.append_assoc,
                List.singleton_append] at hrest
              simpa [unitsFrom, piecesFrom, hbuffered, ← h.verbatim_eq] using hrest
          | false =>
              have hrest := ih (h.text_of_not_buffered s)
              simp only [groupText_nil, List.nil_append] at hrest
              simp only [unitsFrom, piecesFrom, hbuffered, ← h.verbatim_eq, Bool.false_eq_true,
                if_false, hrest]
              -- the text joins neither the piece before it nor the one behind it
              rw [List.splitBy_append_cons _ (by simp [Piece.joins]),
                splitBy_cons_of_not_buffered rfl, unitsOf_append, unitsOf_append,
                unitsOf_splitBy_of_isChain h.isChain, unitsOf_splitBy_of_isChain (.singleton _),
                groupText_singleton, List.append_assoc]

/-- The end of a container separates the units on its two sides. -/
theorem unitsFrom_append_finish {name : String} (hname : scanner.isVerbatim name = true)
    (verbatim : Bool) (buffer : String) (before after : List Event) :
    scanner.unitsFrom verbatim buffer (before ++ .finish name :: after) =
      scanner.unitsFrom verbatim buffer before ++ scanner.unitsFrom false "" after := by
  induction before generalizing verbatim buffer with
  | nil => simp [unitsFrom, hname]
  | cons e rest ih =>
      cases e with
      | start tag => exact ih _ _
      | finish tag =>
          simp only [List.cons_append, unitsFrom]
          split
          · rw [ih, List.append_assoc]
          · exact ih _ _
      | text s =>
          simp only [List.cons_append, unitsFrom]
          split
          · exact ih _ _
          · simp only [ih, List.append_assoc]

theorem map_text_piecesFrom (before events : List Event) :
    (scanner.piecesFrom before events).map Piece.text =
      events.filterMap fun e => match e with | .text s => some s | _ => none := by
  induction events generalizing before with
  | nil => rfl
  | cons e rest ih => cases e <;> simp [piecesFrom, ih]

theorem join_map_groupText (groups : List (List Piece)) :
    String.join (groups.map groupText) = groupText groups.flatten := by
  induction groups with
  | nil => rfl
  | cons g gs ih => simp [String.join_cons, ih]

/-- The units of a document are its groups that are not blank, in order. Together
the groups hold every text once, in order, and the end of a verbatim container
always separates units. -/
theorem units_eq_groups (scanner : Scanner) :
    (∀ markup, scanner.scan markup = unitsOf (scanner.groups (tokenize markup))) ∧
      (∀ events, scanner.units events = unitsOf (scanner.groups events)) ∧
      (∀ events, String.join ((scanner.groups events).map groupText) =
        String.join (events.filterMap fun e => match e with | .text s => some s | _ => none)) ∧
      ∀ name, scanner.isVerbatim name → ∀ before after,
        scanner.units (before ++ [.finish name] ++ after) =
          scanner.units before ++ scanner.units after := by
  have hunits : ∀ events, scanner.units events = unitsOf (scanner.groups events) := by
    intro events
    have hstart : Collecting scanner [] false [] := ⟨rfl, .nil, by simp⟩
    exact unitsFrom_eq hstart
  refine ⟨fun markup => hunits _, hunits, ?_, ?_⟩
  · intro events
    rw [join_map_groupText, groups, List.flatten_splitBy, groupText, pieces, map_text_piecesFrom]
  · intro name hname before after
    rw [List.append_assoc, List.singleton_append]
    exact unitsFrom_append_finish hname false "" before after

/-- Prose with the marker joins the container behind it, up to the container's end. -/
theorem units_eq_groups_code :
    let scanner : Scanner := ⟨["code"], "::"⟩
    scanner.isVerbatim "code" ∧
      scanner.units ([.text "A::", .start "code", .text "b"] ++ [.finish "code"] ++ [.text "c"]) =
        scanner.units [.text "A::", .start "code", .text "b"] ++ scanner.units [.text "c"] ∧
      scanner.units [.text "A::", .start "code", .text "b"] = ["A::b"] := by
  refine ⟨by decide, (units_eq_groups _).2.2.2 "code" (by decide) _ _, ?_⟩
  rw [(units_eq_groups _).2.1]
  decide

end Scanner
end DocClaims
