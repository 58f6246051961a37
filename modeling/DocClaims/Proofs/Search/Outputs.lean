import DocClaims.Proofs.Json.Fitting
import DocClaims.Proofs.Path
import DocClaims.Proofs.Pattern.Words
import DocClaims.Proofs.Search.Completion
import Mathlib.Data.Nat.Digits.Defs

/-!
# Outputs that are read whole

What the bytes that a search program prints must be like to be read, and the hits that they tell
of. A record or message that cannot be read makes the whole output unreadable, and an answer
without hits is given only for an output that was read to its end.
-/

namespace DocClaims

variable {root output : Text.Bytes} {lines : List Text.Bytes}

/-- The lines of an output: what stands between its line feeds. -/
structure AreLines (output : Text.Bytes) (lines : List Text.Bytes) : Prop where
  ne_nil : lines ≠ []
  feed_not_mem : ∀ line ∈ lines, (10 : UInt8) ∉ line
  joined : [(10 : UInt8)].intercalate lines = output

theorem areLines_iff : AreLines output lines ↔ Text.split 10 output = lines := by
  constructor
  · rintro ⟨hne, hfeed, rfl⟩
    exact Text.split_intercalate hne hfeed
  · rintro rfl
    obtain ⟨first, rest, hsplit⟩ := Text.exists_splitFrom_eq (10 : UInt8) output
    refine ⟨?_, fun line hline => (Text.of_mem_split hline).1, Text.intercalate_split output⟩
    rw [Text.split, hsplit []]
    exact List.cons_ne_nil _ _

/-! ### Records -/

namespace Grep

variable {digits rest record : Text.Bytes} {hit : Hit} {n : Nat}

/-- The number that decimal digits stand for. -/
def numberOf (digits : Text.Bytes) : Nat :=
  Nat.ofDigits 10 (digits.reverse.map fun b => b.toNat - 48)

/-- A record tells of a hit: the path ends at the first NUL, and the number of the line is the
longest run of digits behind it. -/
inductive Tells (root : Text.Bytes) : Text.Bytes → Hit → Prop
  | record {path digits rest : Text.Bytes} (nul_not_mem : (0 : UInt8) ∉ path)
      (ne_nil : digits ≠ []) (isDigit : ∀ b ∈ digits, isDigit b)
      (ends : ∀ b ∈ rest.head?, Grep.isDigit b = false) (small : numberOf digits < 2 ^ 64) :
      Tells root (path ++ 0 :: (digits ++ rest))
        ⟨Path.relativize root (Text.lossy path), numberOf digits⟩

theorem numberOf_concat (digits : Text.Bytes) (b : UInt8) :
    numberOf (digits ++ [b]) = b.toNat - 48 + 10 * numberOf digits := by
  rw [numberOf, List.reverse_concat, List.map_cons, Nat.ofDigits_cons]
  rfl

theorem digitValue_of_isDigit {b : UInt8} (h : isDigit b) :
    Number.digitValue (Char.ofNat b.toNat) = b.toNat - 48 ∧ b.toNat - 48 < 10 := by
  have hvalue : ∀ n < 58, 48 ≤ n → Number.digitValue (Char.ofNat n) = n - 48 := by decide
  rw [isDigit, Bool.and_eq_true, decide_eq_true_eq, decide_eq_true_eq, UInt8.le_iff_toNat_le,
    UInt8.le_iff_toNat_le] at h
  have hlow : 48 ≤ b.toNat := h.1
  have hhigh : b.toNat ≤ 57 := h.2
  exact ⟨hvalue _ (by omega) hlow, by omega⟩

theorem valueOfDigits_eq_numberOf (h : ∀ b ∈ digits, isDigit b) :
    Number.valueOfDigits 10 (digits.map fun b => Char.ofNat b.toNat) = numberOf digits := by
  induction digits using List.reverseRecOn with
  | nil => rfl
  | append_singleton digits b ih =>
      obtain ⟨hdigits, hb⟩ := List.forall_mem_append.1 h
      have hvalue := (digitValue_of_isDigit (hb b (List.mem_singleton_self b))).1
      have hbefore := ih hdigits
      rw [Number.valueOfDigits] at hbefore ⊢
      rw [numberOf_concat, List.map_append, List.foldl_append, hbefore, List.map_singleton,
        List.foldl_cons, List.foldl_nil, hvalue]
      omega

theorem whole?_digits (hne : digits ≠ []) (h : ∀ b ∈ digits, isDigit b) :
    Number.whole? 10 (digits.map fun b => Char.ofNat b.toNat) = some (numberOf digits) := by
  have hall : (digits.map fun b => Char.ofNat b.toNat).all
      (fun c => Number.digitValue c < 10) = true := by
    rw [List.all_map, List.all_eq_true]
    intro b hb
    obtain ⟨hvalue, hlt⟩ := digitValue_of_isDigit (h b hb)
    simp [hvalue, hlt]
  have hempty : (digits.map fun b => Char.ofNat b.toNat).isEmpty = false := by simpa using hne
  rw [Number.whole?, hall, hempty, valueOfDigits_eq_numberOf h]
  rfl

/-- The number of a line is that of the longest run of digits, if it fits in 64 bits. -/
theorem lineNumber?_append_eq_some_iff (h : ∀ b ∈ digits, isDigit b)
    (hends : ∀ b ∈ rest.head?, isDigit b = false) :
    lineNumber? (digits ++ rest) = some n ↔
      digits ≠ [] ∧ numberOf digits < 2 ^ 64 ∧ numberOf digits = n := by
  have hlimit : lineLimit = 2 ^ 64 := rfl
  rw [lineNumber?, takeWhile_append_eq_left_iff.2 ⟨h, hends⟩, hlimit]
  by_cases hne : digits = []
  · simp [hne, Number.whole?]
  · simp [whole?_digits hne h, hne]

theorem bne_nul_of_not_mem (h : (0 : UInt8) ∉ record) : ∀ b ∈ record, (b != 0) = true := by
  intro b hb
  rw [bne_iff_ne]
  rintro rfl
  exact h hb

theorem readRecord_of_not_mem (h : (0 : UInt8) ∉ record) :
    readRecord root record = .error (.noSeparator (Text.lossy record)) := by
  rw [readRecord, List.dropWhile_eq_nil_iff.2 (bne_nul_of_not_mem h)]

theorem readRecord_append {path : Text.Bytes} (h : (0 : UInt8) ∉ path) (rest : Text.Bytes) :
    readRecord root (path ++ 0 :: rest) =
      (lineNumber? rest).elim (.error (.noLineNumber (Text.lossy path))) fun n =>
        .ok ⟨Path.relativize root (Text.lossy path), n⟩ := by
  have hpath := bne_nul_of_not_mem h
  have hstop : ∀ b ∈ (0 :: rest).head?, (b != (0 : UInt8)) = false := by
    rintro _ ⟨⟩
    rfl
  simp only [readRecord, takeWhile_append_eq_left_iff.2 ⟨hpath, hstop⟩,
    dropWhile_append_eq_right hpath hstop]
  cases lineNumber? rest with
  | none => rfl
  | some n => rfl

theorem readRecord_eq_ok_iff : readRecord root record = .ok hit ↔ Tells root record hit := by
  constructor
  · intro h
    by_cases hnul : (0 : UInt8) ∈ record
    · obtain ⟨path, rest, rfl, hpath⟩ := List.eq_append_cons_of_mem hnul
      rw [readRecord_append hpath] at h
      have hdigits : ∀ b ∈ rest.takeWhile isDigit, isDigit b := fun b => List.mem_takeWhile_imp
      have hends : ∀ b ∈ (rest.dropWhile isDigit).head?, isDigit b = false :=
        eq_false_of_head?_dropWhile
      rw [← List.takeWhile_append_dropWhile (p := isDigit) (l := rest)] at h ⊢
      cases hnumber : lineNumber? (rest.takeWhile isDigit ++ rest.dropWhile isDigit) with
      | none =>
          rw [hnumber] at h
          cases h
      | some n =>
          rw [hnumber] at h
          obtain rfl := Except.ok.inj h
          obtain ⟨hne, hsmall, rfl⟩ := (lineNumber?_append_eq_some_iff hdigits hends).1 hnumber
          exact .record hpath hne hdigits hends hsmall
    · rw [readRecord_of_not_mem hnul] at h
      cases h
  · rintro ⟨hpath, hne, hdigits, hends, hsmall⟩
    have hnumber := (lineNumber?_append_eq_some_iff hdigits hends).2 ⟨hne, hsmall, rfl⟩
    rw [readRecord_append hpath, hnumber, Option.elim_some]

end Grep

/-! ### Messages -/

namespace Ripgrep

open Json

variable {line : Text.Bytes} {told : Option Hit} {d : Datum}

/-- A text or null. -/
inductive TellsText : Datum → Option String → Prop
  | null : TellsText .null none
  | text (s : String) : TellsText (.text s) (some s)

/-- A number that is not negative, or null. -/
inductive TellsNumber : Datum → Option Nat → Prop
  | null : TellsNumber .null none
  | number (n : Nat) : TellsNumber (.integer n) (some n)

/-- A table that may have a text, or a list of just the text. -/
inductive TellsPath : Datum → Option String → Prop
  | table {es path} (text : TellsUnder TellsText (some none) "text" es path) :
      TellsPath (.table es) path
  | list {d path} (text : TellsText d path) : TellsPath (.list [d]) path

/-- A table with a path, which may have the number of a line, or a list of both. -/
inductive TellsMatch : Datum → Option String × Option Nat → Prop
  | table {es path number} (path_under : TellsUnder TellsPath none "path" es path)
      (number_under : TellsUnder TellsNumber (some none) "line_number" es number) :
      TellsMatch (.table es) (path, number)
  | list {d e path number} (path_first : TellsPath d path) (number_second : TellsNumber e number) :
      TellsMatch (.list [d, e]) (path, number)

/-- The hit in the data of a match: there is one if path and number are known. -/
def hitOf (root : Text.Bytes) (data : Option String × Option Nat) : Option Hit := do
  return ⟨Path.relativize root (← data.1), ← data.2⟩

/-- What is read of a message: a table with its type, which is a text, and its data. -/
inductive TellsMessage : Datum → String → Datum → Prop
  | table {es kind data} (type_under : es.lookup "type" = some (.text kind))
      (data_under : es.lookup "data" = some data) : TellsMessage (.table es) kind data

/-- A line tells of a hit or of none: it is a message, with the data of a match if it is a
message about a match. -/
inductive Tells (root line : Text.Bytes) : Option Hit → Prop
  | other {d data : Datum} {kind : String} (read : readWith messageReader line = .ok d)
      (message : TellsMessage d kind data) (other : kind ≠ "match") : Tells root line none
  | found {d data : Datum} {told : Option String × Option Nat}
      (read : readWith messageReader line = .ok d) (message : TellsMessage d "match" data)
      (fits : TellsMatch data told) : Tells root line (hitOf root told)

theorem exists_tellsMessage (h : readWith messageReader line = .ok d) :
    ∃ kind data, TellsMessage d kind data := by
  obtain ⟨⟨_, c⟩, hrecord, hrest⟩ := Outcome.bind_eq_ok_iff.1 h
  obtain rfl : _ = d := by
    dsimp only at hrest
    split at hrest
    · exact Except.ok.inj hrest
    · cases hrest
  obtain ⟨es, rfl, hkeys, hforall⟩ := exists_of_record
    (p := fun key d => key = "type" → ∃ s, d = .text s)
    (by
      rw [List.forall_mem_cons, List.forall_mem_singleton]
      exact ⟨fun c d c' hread _ => yields_reader_text c d c' hread,
        fun c d c' _ hkey => absurd hkey (by decide)⟩)
    (by simp) (by simp) hrecord
  match es, hkeys with
  | [(_, type), (_, data)], rfl =>
      obtain ⟨kind, rfl⟩ := hforall _ List.mem_cons_self rfl
      exact ⟨kind, data, .table rfl rfl⟩

theorem readMessage_eq_ok_iff {message : Message} :
    readMessage line = .ok message ↔
      ∃ d, readWith messageReader line = .ok d ∧ TellsMessage d message.kind message.data := by
  rw [readMessage, Outcome.bind_eq_ok_iff]
  apply exists_congr
  intro d
  apply and_congr_right
  intro hread
  constructor
  · intro h
    obtain rfl := Outcome.pure_eq_ok_iff.1 h
    obtain ⟨kind, data, hmessage⟩ := exists_tellsMessage hread
    cases hmessage with
    | table htype hdata =>
        refine .table ?_ ?_
        · simp [Datum.get?, htype, Datum.toText?]
        · simp [Datum.get?, hdata]
  · intro h
    obtain ⟨kind, data⟩ := message
    cases h with
    | table htype hdata => simp [Datum.get?, htype, hdata, Datum.toText?, pure, Except.pure]

def textField : Json.Field Fit := ⟨"text", some .null, none, fitOptional fitText⟩

def pathField : Json.Field Fit := ⟨"path", none, none, pathFit⟩

def numberField : Json.Field Fit := ⟨"line_number", some .null, none, fitOptional (fitCount "usize")⟩

def pathOf (d : Datum) : Option String := (d.get? "text").bind Datum.toText?

def dataOf (d : Datum) : Option String × Option Nat :=
  ((d.get? "path").bind pathOf, (d.get? "line_number").bind Datum.toCount?)

theorem tells_text : Json.Tells (fitOptional fitText) Datum.toText? TellsText := by
  intro d v
  constructor
  · rintro ⟨kept, hfit, rfl⟩
    cases d with
    | null =>
        obtain rfl := Except.ok.inj hfit
        exact .null
    | text s =>
        obtain rfl := Except.ok.inj hfit
        exact .text s
    | flag b | integer n | real b x | list ds | table es => cases hfit
  · rintro (_ | s)
    · exact ⟨.null, rfl, rfl⟩
    · exact ⟨.text s, rfl, rfl⟩

theorem tells_number :
    Json.Tells (fitOptional (fitCount "usize")) Datum.toCount? TellsNumber := by
  intro d v
  constructor
  · rintro ⟨kept, hfit, rfl⟩
    cases d with
    | null =>
        obtain rfl := Except.ok.inj hfit
        exact .null
    | integer n =>
        rw [fitOptional, fitCount, foundIn, acceptCount] at hfit
        split at hfit
        · next hle =>
            obtain ⟨n, rfl⟩ := Int.eq_ofNat_of_zero_le hle
            obtain rfl := Except.ok.inj hfit
            exact .number n
        · cases hfit
        · simp
    | text s | flag b | real b x | list ds | table es => cases hfit
  · rintro (_ | n)
    · exact ⟨.null, rfl, rfl⟩
    · exact ⟨.integer n, rfl, rfl⟩

theorem pathFit_table_iff {es : List (String × Datum)} {path : Option String} :
    (∃ kept, pathFit (.table es) = .ok kept ∧ pathOf kept = path) ↔
      TellsUnder TellsText (some none) "text" es path := by
  have htext {before} :=
    @keptFor_iff_tellsUnder _ [textField] textField es before _ _ path rfl tells_text
  constructor
  · rintro ⟨kept, hfit, rfl⟩
    obtain ⟨before, ds, hbefore, hcomplete, rfl⟩ := fitRecord_table_eq_ok_iff.1 hfit
    obtain ⟨d, later, hd, -, rfl⟩ := complete_cons_eq_ok_iff.1 hcomplete
    exact (htext hbefore).1 ⟨d, hd, rfl⟩
  · intro h
    obtain ⟨before, hbefore⟩ : ∃ before, fitEntries [textField] es = .ok before := by
      apply exists_fitEntries_of_forall
      rw [List.forall_mem_singleton]
      exact h.exists_fit tells_text
    obtain ⟨d, hd, rfl⟩ := (htext hbefore).2 h
    refine ⟨.table [("text", d)], fitRecord_table_eq_ok_iff.2 ⟨before, _, hbefore, ?_, rfl⟩, rfl⟩
    exact complete_cons_eq_ok_iff.2 ⟨d, [], hd, rfl, rfl⟩

theorem pathFit_list_iff {ds : List Datum} {path : Option String} :
    (∃ kept, pathFit (.list ds) = .ok kept ∧ pathOf kept = path) ↔
      ∃ d, ds = [d] ∧ TellsText d path := by
  constructor
  · rintro ⟨_, hfit, rfl⟩
    obtain ⟨kept, hkept, rfl⟩ := fitRecord_list_eq_ok_iff.1 hfit
    obtain ⟨d, behind, rfl⟩ := exists_cons_of_fitInOrder rfl hkept
    obtain ⟨text, later, htext, hlater, rfl⟩ := fitInOrder_cons_eq_ok_iff.1 hkept
    obtain ⟨rfl, -⟩ := eq_nil_of_fitInOrder hlater
    exact ⟨d, rfl, (tells_text d _).1 ⟨text, htext, rfl⟩⟩
  · rintro ⟨d, rfl, h⟩
    obtain ⟨text, htext, rfl⟩ := (tells_text d path).2 h
    refine ⟨.table [("text", text)], fitRecord_list_eq_ok_iff.2 ⟨_, ?_, rfl⟩, rfl⟩
    exact fitInOrder_cons_eq_ok_iff.2 ⟨text, [], htext, rfl, rfl⟩

theorem tells_path : Json.Tells pathFit pathOf TellsPath := by
  intro d path
  cases d with
  | table es =>
      rw [pathFit_table_iff]
      constructor
      · exact .table
      · rintro ⟨h⟩
        exact h
  | list ds =>
      rw [pathFit_list_iff]
      constructor
      · rintro ⟨d, rfl, h⟩
        exact .list h
      · rintro (_ | ⟨h⟩)
        exact ⟨_, rfl, h⟩
  | null | text s | flag b | integer n | real b x =>
      constructor
      · rintro ⟨kept, hfit, -⟩
        cases hfit
      · rintro ⟨⟩

theorem matchFit_table_iff {es : List (String × Datum)} {path : Option String}
    {number : Option Nat} :
    (∃ kept, matchFit (.table es) = .ok kept ∧ dataOf kept = (path, number)) ↔
      TellsUnder TellsPath none "path" es path ∧
        TellsUnder TellsNumber (some none) "line_number" es number := by
  have hpath {before} :=
    @keptFor_iff_tellsUnder _ [pathField, numberField] pathField es before _ _ path rfl tells_path
  have hnumber {before} :=
    @keptFor_iff_tellsUnder _ [pathField, numberField] numberField es before _ _ number rfl
      tells_number
  constructor
  · rintro ⟨kept, hfit, hdata⟩
    obtain ⟨before, ds, hbefore, hcomplete, rfl⟩ := fitRecord_table_eq_ok_iff.1 hfit
    obtain ⟨p, others, hp, hothers, rfl⟩ := complete_cons_eq_ok_iff.1 hcomplete
    obtain ⟨n, later, hn, -, rfl⟩ := complete_cons_eq_ok_iff.1 hothers
    obtain ⟨rfl, rfl⟩ := Prod.mk.inj hdata
    exact ⟨(hpath hbefore).1 ⟨p, hp, rfl⟩, (hnumber hbefore).1 ⟨n, hn, rfl⟩⟩
  · rintro ⟨hpathUnder, hnumberUnder⟩
    obtain ⟨before, hbefore⟩ : ∃ before, fitEntries [pathField, numberField] es = .ok before := by
      apply exists_fitEntries_of_forall
      rw [List.forall_mem_cons, List.forall_mem_singleton]
      exact ⟨hpathUnder.exists_fit tells_path, hnumberUnder.exists_fit tells_number⟩
    obtain ⟨p, hp, rfl⟩ := (hpath hbefore).2 hpathUnder
    obtain ⟨n, hn, rfl⟩ := (hnumber hbefore).2 hnumberUnder
    refine ⟨.table [("path", p), ("line_number", n)],
      fitRecord_table_eq_ok_iff.2 ⟨before, _, hbefore, ?_, rfl⟩, rfl⟩
    apply complete_cons_eq_ok_iff.2
    exact ⟨p, _, hp, complete_cons_eq_ok_iff.2 ⟨n, [], hn, rfl, rfl⟩, rfl⟩

theorem matchFit_list_iff {ds : List Datum} {path : Option String} {number : Option Nat} :
    (∃ kept, matchFit (.list ds) = .ok kept ∧ dataOf kept = (path, number)) ↔
      ∃ d e, ds = [d, e] ∧ TellsPath d path ∧ TellsNumber e number := by
  constructor
  · rintro ⟨_, hfit, hdata⟩
    obtain ⟨kept, hkept, rfl⟩ := fitRecord_list_eq_ok_iff.1 hfit
    obtain ⟨d, behind, rfl⟩ := exists_cons_of_fitInOrder rfl hkept
    obtain ⟨p, others, hp, hothers, rfl⟩ := fitInOrder_cons_eq_ok_iff.1 hkept
    obtain ⟨e, last, rfl⟩ := exists_cons_of_fitInOrder rfl hothers
    obtain ⟨n, later, hn, hlater, rfl⟩ := fitInOrder_cons_eq_ok_iff.1 hothers
    obtain ⟨rfl, -⟩ := eq_nil_of_fitInOrder hlater
    obtain ⟨rfl, rfl⟩ := Prod.mk.inj hdata
    exact ⟨d, e, rfl, (tells_path d _).1 ⟨p, hp, rfl⟩, (tells_number e _).1 ⟨n, hn, rfl⟩⟩
  · rintro ⟨d, e, rfl, hpath, hnumber⟩
    obtain ⟨p, hp, rfl⟩ := (tells_path d path).2 hpath
    obtain ⟨n, hn, rfl⟩ := (tells_number e number).2 hnumber
    refine ⟨.table [("path", p), ("line_number", n)],
      fitRecord_list_eq_ok_iff.2 ⟨_, ?_, rfl⟩, rfl⟩
    apply fitInOrder_cons_eq_ok_iff.2
    exact ⟨p, _, hp, fitInOrder_cons_eq_ok_iff.2 ⟨n, [], hn, rfl, rfl⟩, rfl⟩

theorem tells_match : Json.Tells matchFit dataOf TellsMatch := by
  rintro d ⟨path, number⟩
  cases d with
  | table es =>
      rw [matchFit_table_iff]
      constructor
      · rintro ⟨hpath, hnumber⟩
        exact .table hpath hnumber
      · rintro ⟨hpath, hnumber⟩
        exact ⟨hpath, hnumber⟩
  | list ds =>
      rw [matchFit_list_iff]
      constructor
      · rintro ⟨d, e, rfl, hpath, hnumber⟩
        exact .list hpath hnumber
      · rintro (_ | ⟨hpath, hnumber⟩)
        exact ⟨_, _, rfl, hpath, hnumber⟩
  | null | text s | flag b | integer n | real b x =>
      constructor
      · rintro ⟨kept, hfit, -⟩
        cases hfit
      · rintro ⟨⟩

theorem readHit_of_other {message : Message} (hread : readMessage line = .ok message)
    (hkind : message.kind ≠ "match") : readHit root line = .ok none := by
  rw [readHit, Outcome.mapError_eq_ok_iff.2 hread, Outcome.ok_bind, if_pos (by simpa using hkind)]
  rfl

theorem readHit_of_match {message : Message} (hread : readMessage line = .ok message)
    (hkind : message.kind = "match") :
    readHit root line =
      ((matchFit message.data).mapError .mismatch).map fun kept => hitOf root (dataOf kept) := by
  have hhit (kept : Datum) : hitOf root (dataOf kept) = (do
      let path ← ((← kept.get? "path").get? "text").bind Datum.toText?
      let n ← (kept.get? "line_number").bind Datum.toCount?
      some (Hit.mk (Path.relativize root path) n)) := by
    rw [hitOf, dataOf]
    cases kept.get? "path" <;> rfl
  rw [readHit, Outcome.mapError_eq_ok_iff.2 hread, Outcome.ok_bind, if_neg (by simpa using hkind)]
  simp only [hhit]
  rfl

theorem readHit_eq_ok_iff : readHit root line = .ok told ↔ Tells root line told := by
  constructor
  · intro h
    cases hread : readMessage line with
    | error fault =>
        rw [readHit, hread] at h
        cases h
    | ok message =>
        obtain ⟨d, hdatum, hmessage⟩ := readMessage_eq_ok_iff.1 hread
        by_cases hkind : message.kind = "match"
        · rw [readHit_of_match hread hkind] at h
          cases hkept : matchFit message.data with
          | error mismatch =>
              rw [hkept] at h
              cases h
          | ok kept =>
              rw [hkept] at h
              obtain rfl := Except.ok.inj h
              exact .found hdatum (hkind ▸ hmessage) ((tells_match _ _).1 ⟨kept, hkept, rfl⟩)
        · rw [readHit_of_other hread hkind] at h
          obtain rfl := Except.ok.inj h
          exact .other hdatum hmessage hkind
  · intro h
    cases h with
    | @other d data kind hdatum hmessage hkind =>
        have hread : readMessage line = .ok ⟨kind, data⟩ :=
          readMessage_eq_ok_iff.2 ⟨d, hdatum, hmessage⟩
        exact readHit_of_other hread hkind
    | @found d data told hdatum hmessage hfits =>
        have hread : readMessage line = .ok ⟨"match", data⟩ :=
          readMessage_eq_ok_iff.2 ⟨d, hdatum, hmessage⟩
        obtain ⟨kept, hkept, rfl⟩ := (tells_match data told).2 hfits
        rw [readHit_of_match hread rfl, hkept]
        rfl

end Ripgrep

/-! ### Answers -/

namespace Backend

variable {b : Backend} {hits : List Hit}

/-- The output lists the hits, in their order: every record that is not empty tells of one, and
every message that is not blank of one or of none. -/
inductive Lists (root output : Text.Bytes) : Backend → List Hit → Prop
  | grep {records : List Text.Bytes} {hits : List Hit} (areLines : AreLines output records)
      (tell : List.Forall₂ (Grep.Tells root) (records.filter (!·.isEmpty)) hits) :
      Lists root output .grep hits
  | ripgrep {lines : List Text.Bytes} {told : List (Option Hit)} (areLines : AreLines output lines)
      (tell : List.Forall₂ (Ripgrep.Tells root) (lines.filter (!·.all Ripgrep.isBlank)) told) :
      Lists root output .ripgrep told.reduceOption

theorem parse_grep_eq_ok_iff :
    grep.parse root output = .ok hits ↔ grep.Lists root output hits := by
  rw [parse, Outcome.mapError_eq_ok_iff, Grep.parse, Outcome.mapM_eq_ok_iff_forall₂]
  simp only [Grep.readRecord_eq_ok_iff]
  constructor
  · exact .grep (areLines_iff.2 rfl)
  · rintro ⟨hlines, htell⟩
    rwa [areLines_iff.1 hlines]

theorem parse_ripgrep_eq_ok_iff :
    ripgrep.parse root output = .ok hits ↔ ripgrep.Lists root output hits := by
  simp only [parse, Outcome.mapError_eq_ok_iff, Ripgrep.parse, Outcome.bind_eq_ok_iff,
    Outcome.pure_eq_ok_iff, Outcome.mapM_eq_ok_iff_forall₂, Ripgrep.readHit_eq_ok_iff]
  constructor
  · rintro ⟨told, htell, rfl⟩
    exact .ripgrep (areLines_iff.2 rfl) htell
  · rintro (_ | ⟨hlines, htell⟩)
    rw [areLines_iff.1 hlines]
    exact ⟨_, htell, rfl⟩

/-- A program's output is read whole or not at all: hits are read from it exactly if it lists
them, and otherwise it is reported as unreadable. An answer without hits is given only at status 1,
or at status 0 for an output that lists none. -/
theorem answer_of_output (hb : b ≠ .walk) (root output errors : Text.Bytes) :
    let answer (status : ExitStatus) : Answer :=
      (ProgramOutput.mk status output errors).answer b.name (b.parse root)
    (∀ hits, b.parse root output = .ok hits ↔ b.Lists root output hits) ∧
    ((∃ hits, b.Lists root output hits ∧ answer (.code 0) = .ok hits) ∨
      (∀ hits, ¬b.Lists root output hits) ∧
        ∃ reason, answer (.code 0) = .error (.unreadable b.name reason)) ∧
    ∀ status, answer status = .ok [] ↔
      status = .code 1 ∨ status = .code 0 ∧ b.Lists root output [] := by
  intro answer
  have hparse : ∀ hits, b.parse root output = .ok hits ↔ b.Lists root output hits := by
    intro hits
    cases b with
    | grep => exact parse_grep_eq_ok_iff
    | ripgrep => exact parse_ripgrep_eq_ok_iff
    | walk => exact absurd rfl hb
  have hanswer : answer (.code 0) = (b.parse root output).mapError (.unreadable b.name) := rfl
  refine ⟨hparse, ?_, ?_⟩
  · cases hread : b.parse root output with
    | ok hits =>
        rw [hanswer, hread]
        exact .inl ⟨hits, (hparse hits).1 hread, rfl⟩
    | error reason =>
        rw [hanswer, hread]
        refine .inr ⟨fun hits hlists => ?_, reason, rfl⟩
        rw [(hparse hits).2 hlists] at hread
        cases hread
  · intro status
    rw [ProgramOutput.answer_eq_ok_nil_iff, ← hparse]

/-- One record or message with a number that is out of range makes the output unreadable, however
good the others are. -/
theorem answer_of_output_overflow :
    let records : Text.Bytes := [97, 0, 55, 10]
    let brokenRecords := records ++ ([98, 0] ++ List.replicate 20 57 ++ [10])
    let messages := Text.encode
      "\x7b\"type\":\"begin\"\x7d\n\x7b\"type\":\"match\",\"data\":[[\"a\"],7]\x7d\n"
    let brokenMessages := messages ++ Text.encode
      "\x7b\"type\":\"match\",\"data\":[[\"b\"],-1]\x7d\n"
    (grep ≠ .walk ∧ grep.Lists [] records [⟨"a", 7⟩] ∧ (∀ hits, ¬grep.Lists [] brokenRecords hits) ∧
      ∀ status, (ProgramOutput.mk status brokenRecords []).answer "grep" (grep.parse []) = .ok [] ↔
        status = .code 1) ∧
    (ripgrep ≠ .walk ∧ ripgrep.Lists [] messages [⟨"a", 7⟩] ∧
      (∀ hits, ¬ripgrep.Lists [] brokenMessages hits) ∧
      ∀ status,
        (ProgramOutput.mk status brokenMessages []).answer "ripgrep" (ripgrep.parse []) = .ok [] ↔
          status = .code 1) := by
  intro records brokenRecords messages brokenMessages
  have hrun {b : Backend} {whole broken : Text.Bytes} {hits : List Hit} (hb : b ≠ .walk)
      (hread : b.parse [] whole = .ok hits) (hunread : (b.parse [] broken).toOption = none) :
      b ≠ .walk ∧ b.Lists [] whole hits ∧ (∀ hits, ¬b.Lists [] broken hits) ∧
        ∀ status, (ProgramOutput.mk status broken []).answer b.name (b.parse []) = .ok [] ↔
          status = .code 1 := by
    obtain ⟨hwhole, -, -⟩ := answer_of_output hb [] whole []
    obtain ⟨hbroken, -, hnone⟩ := answer_of_output hb [] broken []
    have hlists : ∀ hits, ¬b.Lists [] broken hits := by
      intro hits hlists
      rw [(hbroken hits).2 hlists] at hunread
      cases hunread
    exact ⟨hb, (hwhole _).1 hread, hlists,
      fun status => (hnone status).trans (or_iff_left fun h => hlists [] h.2)⟩
  exact ⟨hrun (by decide) (by rfl) (by rfl),
    hrun (by decide) (by decide +kernel) (by decide +kernel)⟩

end Backend
end DocClaims
