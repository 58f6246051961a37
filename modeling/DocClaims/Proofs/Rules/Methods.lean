import DocClaims.Proofs.Rules
import DocClaims.Proofs.Pattern.Runs
import Mathlib.Data.List.Infix

/-!
# Calls of methods

A call is a name that begins with a small letter, then parentheses, then a return type if
there is one. A text is read for its calls from left to right: the next call begins at the
first place behind the last one where there is a call. These are the calls that the rule for
methods matches, although its search may shorten a name or give up a return type.
-/

namespace DocClaims

/-- A call as it stands in a text: the name of the method and what follows the call. -/
structure MethodCall where
  name : List Char
  rest : List Char

namespace MethodCall

/-- Letters and backslashes make up the names of types. -/
def isTypeChar (c : Char) : Bool := Text.isAsciiLetter c || c == '\\'

/-- What follows a return type. -/
def behindType? (cs : List Char) : Option (List Char) :=
  match cs.dropWhile Text.isBlank with
  | ':' :: behind =>
      let type := behind.dropWhile Text.isBlank
      if (type.takeWhile isTypeChar).isEmpty then none else some (type.dropWhile isTypeChar)
  | _ => none

/-- What follows the parentheses and the return type, if there are parentheses. -/
def behindArguments? (cs : List Char) : Option (List Char) :=
  match cs.dropWhile Text.isBlank with
  | '(' :: inner =>
      match inner.dropWhile (· != ')') with
      | _ :: behind => some ((behindType? behind).getD behind)
      | [] => none
  | _ => none

/-- The call that begins with the first of the characters, if one does. -/
def read? (cs : List Char) : Option MethodCall :=
  if cs.head?.any Text.isAsciiLower then
    (behindArguments? (cs.dropWhile Text.isAsciiWordChar)).map
      (⟨cs.takeWhile Text.isAsciiWordChar, ·⟩)
  else none

theorem length_behindType?_lt {cs rest : List Char} (h : behindType? cs = some rest) :
    rest.length < cs.length := by
  unfold behindType? at h
  split at h
  · next behind hbehind =>
      have hmark := (List.dropWhile_suffix (l := cs) Text.isBlank).length_le
      have hblanks := (List.dropWhile_suffix (l := behind) Text.isBlank).length_le
      have htype := (List.dropWhile_suffix (l := behind.dropWhile Text.isBlank)
        isTypeChar).length_le
      rw [hbehind, List.length_cons] at hmark
      dsimp only at h
      split at h <;> cases h
      omega
  · cases h

theorem length_behindArguments?_lt {cs rest : List Char} (h : behindArguments? cs = some rest) :
    rest.length < cs.length := by
  unfold behindArguments? at h
  split at h
  · next inner hinner =>
      have hblanks := (List.dropWhile_suffix (l := cs) Text.isBlank).length_le
      have hclose := (List.dropWhile_suffix (l := inner) (· != ')')).length_le
      rw [hinner, List.length_cons] at hblanks
      split at h
      · next behind hbehind =>
          rw [hbehind, List.length_cons] at hclose
          cases h
          cases htype : behindType? behind with
          | some rest =>
              have hrest := length_behindType?_lt htype
              rw [Option.getD_some]
              omega
          | none =>
              rw [Option.getD_none]
              omega
      · cases h
  · cases h

theorem length_rest_lt {cs : List Char} {call : MethodCall} (h : read? cs = some call) :
    call.rest.length < cs.length := by
  unfold read? at h
  split at h
  · obtain ⟨rest, hrest, rfl⟩ := Option.map_eq_some_iff.1 h
    exact Nat.lt_of_lt_of_le (length_behindArguments?_lt hrest)
      (List.dropWhile_suffix Text.isAsciiWordChar).length_le
  · cases h

/-- The first call in a text: no call begins further to the left. -/
def first? (cs : List Char) : Option MethodCall := cs.tails.findSome? read?

theorem length_rest_lt_of_first? {cs : List Char} {call : MethodCall} (h : first? cs = some call) :
    call.rest.length < cs.length := by
  obtain ⟨before, tail, after, htails, hread, -⟩ := List.findSome?_eq_some_iff.1 h
  have htail : tail ∈ cs.tails := by
    rw [htails]
    simp
  exact Nat.lt_of_lt_of_le (length_rest_lt hread) ((List.mem_tails _ _).1 htail).length_le

/-- The calls in a text, each of them the first behind the one before it. -/
def all (cs : List Char) : List MethodCall :=
  match _h : first? cs with
  | some call => call :: all call.rest
  | none => []
termination_by cs.length
decreasing_by exact length_rest_lt_of_first? _h

theorem all_eq (cs : List Char) :
    all cs = match first? cs with
      | some call => call :: all call.rest
      | none => [] := by
  rw [all]
  split
  · next call hcall => rw [hcall]
  · next hnone => rw [hnone]

theorem all_of_read?_eq_some {cs : List Char} {call : MethodCall} (h : read? cs = some call) :
    all cs = call :: all call.rest := by
  have hfirst : first? cs = some call := by
    rw [first?]
    cases cs <;> simp [h]
  rw [all_eq, hfirst]

theorem all_nil : all [] = [] := by
  rw [all_eq]
  rfl

theorem all_cons_of_read?_eq_none {c : Char} {rest : List Char} (h : read? (c :: rest) = none) :
    all (c :: rest) = all rest := by
  have hfirst : first? (c :: rest) = first? rest := by
    rw [first?, List.tails_cons, List.findSome?_cons, h]
    rfl
  rw [all_eq, hfirst, ← all_eq]

end MethodCall

namespace Rule

open Pattern CharSet

variable {γ : Type} {cur : Cursor} {value : Option Span} {next : Cursor → Option Span → Option γ}

def nameSet : CharSet := oneOf [.range 'a' 'z', .range 'A' 'Z', .range '0' '9', .one '_']

def typeSet : CharSet := oneOf [.range 'A' 'Z', .range 'a' 'z', .one '\\']

def returnType : Pattern :=
  run 0 blank ++ (literal ":" ++ (run 0 blank ++ run 1 typeSet))

def arguments : Pattern :=
  run 0 blank ++ (literal "(" ++ (run 0 (noneOf [.one ')']) ++ (literal ")" ++
    optional returnType)))

theorem pattern_method :
    method.pattern = group (one lowerSet ++ run 0 nameSet) ++ arguments := rfl

theorem has_nameSet (c : Char) : nameSet.has c = Text.isAsciiWordChar c := by
  simp [nameSet, has, Item.has, Text.isAsciiWordChar, Text.isAsciiLetter, Text.isAsciiLower,
    Text.isAsciiUpper, Text.isAsciiDigit, Bool.or_assoc]

theorem has_typeSet (c : Char) : typeSet.has c = MethodCall.isTypeChar c := by
  simp only [typeSet, has, Item.has, MethodCall.isTypeChar, Text.isAsciiLetter, Text.isAsciiLower,
    Text.isAsciiUpper, List.any_cons, List.any_nil, Bool.or_false]
  rw [← Bool.or_assoc, Bool.or_comm ('A' ≤ c && c ≤ 'Z')]

/-- Visible ASCII characters are not blank. -/
theorem not_isBlank_of_visible {c : Char} (hlow : 33 ≤ c.toNat) (hhigh : c.toNat < 127) :
    Text.isBlank c = false := by
  simp only [Text.isBlank, Bool.or_eq_false_iff, Bool.and_eq_false_iff, decide_eq_false_iff_not,
    beq_eq_false_iff_ne]
  omega

theorem not_isBlank_of_isAsciiWordChar {c : Char} (h : Text.isAsciiWordChar c) :
    Text.isBlank c = false := by
  obtain ⟨hlow, hhigh⟩ := visible_of_isAsciiWordChar h
  exact not_isBlank_of_visible hlow hhigh

theorem not_isBlank_of_isTypeChar {c : Char} (h : MethodCall.isTypeChar c) :
    Text.isBlank c = false := by
  rw [MethodCall.isTypeChar, Bool.or_eq_true, beq_iff_eq] at h
  rcases h with hletter | rfl
  · exact not_isBlank_of_isAsciiWordChar (by simp [Text.isAsciiWordChar, hletter])
  · decide

theorem not_has_blank {c : Char} (h : Text.isBlank c = false) : ¬blank.has c := by
  rw [has, h]
  decide

theorem matchThen_returnType (cur : Cursor) (htotal : ∀ cur, (next cur value).isSome) :
    ∃ place : Option Cursor, place.map (·.rest) = MethodCall.behindType? cur.rest ∧
      returnType.matchThen cur value next = place.bind (next · value) := by
  have hdisjoint : ∀ c, blank.has c → ¬typeSet.has c := by
    intro c hblank htype
    rw [has_typeSet] at htype
    exact not_has_blank (not_isBlank_of_isTypeChar htype) hblank
  have hname : Refuses (fun cur => (run 1 typeSet).matchThen cur value next) blank :=
    refuses_run (.inr htotal) (by simp) hdisjoint
  have htype (cur : Cursor) : (run 0 blank ++ run 1 typeSet).matchThen cur value next =
      if 1 ≤ ((cur.skip blank).rest.takeWhile (typeSet.has ·)).length then
        next ((cur.skip blank).skip typeSet) value
      else none := by
    rw [matchThen_append, matchThen_run (.inl hname), if_pos (Nat.zero_le _),
      matchThen_run (.inr htotal)]
  have hset : (typeSet.has ·) = MethodCall.isTypeChar := funext has_typeSet
  have hblanks : (cur.skip blank).rest = cur.rest.dropWhile Text.isBlank := rfl
  rw [MethodCall.behindType?, ← hblanks]
  split
  · next behind hbehind =>
      have hskip : (((cur.skip blank).past ':' behind).skip blank).rest =
          behind.dropWhile Text.isBlank := rfl
      rw [returnType, matchThen_run_mark_of_eq rfl (by decide) hbehind, htype, hskip, hset]
      dsimp only
      split
      · next hempty =>
          rw [List.isEmpty_iff] at hempty
          exact ⟨none, rfl, by simp [hempty]⟩
      · next hsome =>
          rw [List.isEmpty_iff, ← List.length_eq_zero_iff] at hsome
          refine ⟨some ((((cur.skip blank).past ':' behind).skip blank).skip typeSet), ?_, ?_⟩
          · rw [← hset]
            rfl
          · exact if_pos (by omega)
  · next hnone =>
      exact ⟨none, rfl, matchThen_run_mark_of_ne rfl (by decide) hnone⟩

theorem matchThen_optional_returnType (htotal : ∀ cur, (next cur value).isSome) :
    ∃ place : Cursor, place.rest = (MethodCall.behindType? cur.rest).getD cur.rest ∧
      (optional returnType).matchThen cur value next = next place value := by
  obtain ⟨place, hplace, htype⟩ := matchThen_returnType cur htotal
  rw [matchThen, htype, ← hplace]
  cases place with
  | none => exact ⟨cur, rfl, rfl⟩
  | some place =>
      obtain ⟨found, hfound⟩ := Option.isSome_iff_exists.1 (htotal place)
      refine ⟨place, rfl, ?_⟩
      rw [Option.bind_some, hfound]

theorem matchThen_arguments (cur : Cursor) (value : Option Span)
    (next : Cursor → Option Span → Option γ) (htotal : ∀ cur, (next cur value).isSome) :
    ∃ place : Option Cursor, place.map (·.rest) = MethodCall.behindArguments? cur.rest ∧
      arguments.matchThen cur value next = place.bind (next · value) := by
  have hset : ((noneOf [.one ')']).has ·) = (· != ')') :=
    funext fun c => by simp [has, Item.has, bne]
  have hblanks : (cur.skip blank).rest = cur.rest.dropWhile Text.isBlank := rfl
  rw [MethodCall.behindArguments?, ← hblanks]
  split
  · next inner hinner =>
      have hinside : (((cur.skip blank).past '(' inner).skip (noneOf [.one ')'])).rest =
          inner.dropWhile (· != ')') := by
        rw [← hset]
        rfl
      rw [arguments, matchThen_run_mark_of_eq rfl (by decide) hinner, ← hinside]
      split
      · next close behind hbehind =>
          obtain rfl : close = ')' := by
            have hhead := List.head?_dropWhile_not (· != ')') inner
            rw [← hinside, hbehind] at hhead
            simpa using hhead
          obtain ⟨place, hplace, htype⟩ := matchThen_optional_returnType htotal
          rw [matchThen_run_mark_of_eq rfl (by decide) hbehind, htype]
          exact ⟨some place, congrArg some hplace, rfl⟩
      · next hnil =>
          refine ⟨none, rfl, matchThen_run_mark_of_ne rfl (by decide) fun rest hrest => ?_⟩
          simp [hnil] at hrest
  · next hnone =>
      exact ⟨none, rfl, matchThen_run_mark_of_ne rfl (by decide) hnone⟩

theorem refuses_arguments (start : Cursor) :
    Refuses (fun cur => arguments.matchThen cur (some ⟨start, cur⟩) next) nameSet := by
  intro cur
  refine refuses_run_mark (c := '(') rfl (by decide) (by decide) (fun d hd => ?_) cur
  rw [has_nameSet] at hd
  exact not_has_blank (not_isBlank_of_isAsciiWordChar hd)

/-- A match of the rule is a call, and its value is the name. -/
theorem matchAt_method (cur : Cursor) :
    (method.pattern.matchAt cur).map (fun m => MethodCall.mk m.value m.finish.rest) =
      MethodCall.read? cur.rest := by
  have hset : (nameSet.has ·) = Text.isAsciiWordChar := funext has_nameSet
  rw [matchAt, pattern_method, matchThen_append, matchThen, matchThen_append, matchThen,
    MethodCall.read?]
  cases hrest : cur.rest with
  | nil => rfl
  | cons c rest =>
      by_cases hlower : Text.isAsciiLower c
      · have hword : Text.isAsciiWordChar c := by
          simp [Text.isAsciiWordChar, Text.isAsciiLetter, hlower]
        have hname : cur.Passes ((c :: rest).takeWhile Text.isAsciiWordChar)
            ((cur.past c rest).skip nameSet) := by
          have hmore := (cur.past c rest).passes_skip nameSet
          rw [List.takeWhile_cons_of_pos hword, ← hset]
          exact (Cursor.Passes.past hrest).trans hmore
        have hbehind : ((cur.past c rest).skip nameSet).rest =
            (c :: rest).dropWhile Text.isAsciiWordChar := by
          rw [List.dropWhile_cons_of_pos hword, ← hset]
          rfl
        obtain ⟨place, hplace, hcall⟩ := matchThen_arguments ((cur.past c rest).skip nameSet)
          (some ⟨cur, (cur.past c rest).skip nameSet⟩)
          (fun finish value => some (Match.mk (value.getD ⟨cur, finish⟩).text finish))
          fun _ => rfl
        simp only [has_lowerSet, hlower, if_true, List.head?_cons, Option.any_some]
        rw [matchThen_run (.inl (refuses_arguments cur)), if_pos (Nat.zero_le _), hcall, ← hbehind,
          ← hplace]
        cases place with
        | none => rfl
        | some place =>
            exact congrArg (fun name => some (MethodCall.mk name place.rest)) hname.text_span
      · simp [has_lowerSet, hlower]

/-- The rule goes from call to call. -/
theorem valuesFrom_method (cur : Cursor) :
    method.pattern.valuesFrom cur = (MethodCall.all cur.rest).map (·.name) := by
  fun_induction valuesFrom method.pattern cur with
  | case1 cur m hm hshorter ih =>
      have hcall := matchAt_method cur
      rw [hm] at hcall
      rw [MethodCall.all_of_read?_eq_some hcall.symm, List.map_cons, ih]
  | case2 cur m hm hlonger hrest | case3 cur m hm hlonger c rest hrest ih =>
      have hcall := matchAt_method cur
      rw [hm] at hcall
      exact absurd (MethodCall.length_rest_lt hcall.symm) hlonger
  | case4 cur hm hrest =>
      rw [hrest, MethodCall.all_nil]
      rfl
  | case5 cur hm c rest hrest ih =>
      have hcall := matchAt_method cur
      rw [hm, hrest] at hcall
      rw [hrest, MethodCall.all_cons_of_read?_eq_none hcall.symm, ih]
      rfl

theorem accept_method (value : String) :
    (method.accept value).map (Claim.mk · value) =
      (Option.guard (fun name => 2 < name.utf8ByteSize ∧
        name ∉ ["function", "public", "private", "protected"]) value).map (Claim.mk .methods) := by
  by_cases hshort : value.utf8ByteSize ≤ 2
  · simp [accept, Option.guard, hshort, Nat.not_lt.2 hshort]
  · simp only [accept, methodKeywords, Option.guard, hshort, Nat.not_le.1 hshort, true_and,
      Bool.or_eq_true, decide_eq_true_eq, false_or, List.contains_iff_mem]
    by_cases hkeyword : value ∈ ["function", "public", "private", "protected"]
    · rw [if_pos hkeyword]
      simp [hkeyword]
    · rw [if_neg hkeyword]
      simp [hkeyword]

/-- The rule for methods claims the names of the calls in a text, in their order, but for
the short ones and the keywords. -/
theorem claims_method (text : String) :
    method.claims text =
      (((MethodCall.all text.toList).map fun call => String.ofList call.name).filter fun name =>
        2 < name.utf8ByteSize ∧ name ∉ ["function", "public", "private", "protected"]).map
          (Claim.mk .methods) := by
  rw [claims, values, valuesFrom_method, List.filterMap_map, ← List.filterMap_eq_filter,
    List.map_filterMap, List.filterMap_map]
  refine congrArg (List.filterMap · _) (funext fun call => ?_)
  exact accept_method _

end Rule
end DocClaims
