import DocClaims.Proofs.Json.Compact
import DocClaims.Proofs.Outcomes
import DocClaims.Proofs.Path
import DocClaims.Proofs.Text.Suffix
import DocClaims.Search.Grep
import DocClaims.Search.Ripgrep

/-!
# Listings of lines found

Two programs print the lines that they find, one as records of plain bytes and one as messages
among others. Whatever the paths and the texts of the lines are, the same hits are read from
both listings.
-/

namespace DocClaims

/-- A line found by a search. Its path and its text can be printed on one line, and its path
can be told from what follows. -/
structure FoundLine where
  path : String
  line : Nat
  text : String
  newline_not_mem_path : '\n' ∉ path.toList
  nul_not_mem_path : Char.ofNat 0 ∉ path.toList
  line_lt : line < Nat.pow 2 64
  newline_not_mem_text : '\n' ∉ text.toList

namespace FoundLine

def hit (root : Text.Bytes) (found : FoundLine) : Hit :=
  ⟨Path.relativize root (Text.encode found.path), found.line⟩

/-- The path, a NUL, the number of the line, a colon and the line itself. -/
def record (found : FoundLine) : Text.Bytes :=
  Text.encode found.path ++
    0 :: (Text.encode (toString found.line) ++ 58 :: Text.encode found.text)

/-- What a message tells of the line: besides it, the bytes that end it, its place in the file
and the places of the matches in it. -/
def data (found : FoundLine) (ending : String) (offset : Nat) (submatches : List Datum) : Datum :=
  .table [("path", .table [("text", .text found.path)]),
    ("lines", .table [("text", .text (found.text ++ ending))]),
    ("line_number", .integer found.line), ("absolute_offset", .integer offset),
    ("submatches", .list submatches)]

end FoundLine

/-- A line of a listing of messages: a message about a line found, a message of another kind
or blanks. The kind of a message stands before or behind its data. -/
inductive ListingLine
  | found (line : FoundLine) (ending : String) (offset : Nat) (submatches : List Datum)
      (offset_lt : offset < Json.wordLimit)
      (shallow : ∀ d ∈ submatches, Json.Shallow (Json.depthLimit - 3) d)
  | other (kind : String) (data : Datum) (kindFirst : Bool) (kind_ne : kind ≠ "match")
      (shallow : Json.Shallow (Json.depthLimit - 1) data)
  | blank (bytes : Text.Bytes) (isBlank : ∀ b ∈ bytes, b ∈ [32, 9, 12, 13])

namespace ListingLine

def found? : ListingLine → Option FoundLine
  | found line .. => some line
  | _ => none

def messageEntries (kind : String) (data : Datum) (kindFirst : Bool) : List (String × Datum) :=
  if kindFirst then [("type", .text kind), ("data", data)]
  else [("data", data), ("type", .text kind)]

def message (kind : String) (data : Datum) (kindFirst : Bool) : Text.Bytes :=
  Json.bytesOf (Json.compact (.table (messageEntries kind data kindFirst)))

def bytes : ListingLine → Text.Bytes
  | found line ending offset submatches .. =>
      message "match" (line.data ending offset submatches) true
  | other kind data kindFirst .. => message kind data kindFirst
  | blank bytes _ => bytes

end ListingLine

/-- Lines as they are printed, each with its end. -/
def printed (lines : List Text.Bytes) : Text.Bytes := lines.flatMap (· ++ [10])

/-! ### Splitting lines -/

theorem split_printed {lines : List Text.Bytes} (h : ∀ line ∈ lines, (10 : UInt8) ∉ line) :
    Text.split 10 (printed lines) = lines ++ [[]] := by
  induction lines with
  | nil => rfl
  | cons line lines ih =>
      have hrest := ih fun line hline => h line (by simp [hline])
      rw [printed, List.flatMap_cons, List.append_assoc, List.singleton_append, Text.split,
        Text.splitFrom_append_cons, Text.splitFrom_of_not_mem (h line (by simp)), ← printed, hrest]
      rfl

/-! ### Records -/

namespace Grep

theorem isDigit_of_isAsciiDigit {c : Char} (h : Text.isAsciiDigit c) :
    isDigit (Json.byteOf c) ∧ Char.ofNat (Json.byteOf c).toNat = c := by
  have hvalue := Json.toNat_byteOf (Json.isAscii_of_isAsciiDigit h)
  simp only [Text.isAsciiDigit, Bool.and_eq_true, decide_eq_true_eq] at h
  have hlow : 48 ≤ c.toNat := h.1
  have hhigh : c.toNat ≤ 57 := h.2
  refine ⟨?_, by rw [hvalue, Char.ofNat_toNat]⟩
  simp only [isDigit, Bool.and_eq_true, decide_eq_true_eq, UInt8.le_iff_toNat_le, hvalue]
  exact ⟨hlow, hhigh⟩

theorem encode_toString (n : Nat) :
    Text.encode (toString n) = (Number.decimalDigits n).map Json.byteOf := by
  have hascii : ∀ c ∈ Number.decimalDigits n, String.utf8EncodeChar c = [Json.byteOf c] := by
    intro c hc
    have hdigit := Json.isAscii_of_isAsciiDigit (Number.isAsciiDigit_of_mem_decimalDigits hc)
    rw [Json.isAscii, decide_eq_true_eq] at hdigit
    exact Text.utf8EncodeChar_ascii hdigit
  rw [Text.encode, ← Number.decimalDigits, List.flatMap_congr hascii]
  exact List.flatMap_pure_eq_map _ _

theorem lineNumber?_digits {n : Nat} (hn : n < lineLimit) (rest : Text.Bytes) :
    lineNumber? (Text.encode (toString n) ++ 58 :: rest) = some n := by
  have hdigits : ∀ c ∈ Number.decimalDigits n,
      isDigit (Json.byteOf c) ∧ Char.ofNat (Json.byteOf c).toNat = c :=
    fun c hc => isDigit_of_isAsciiDigit (Number.isAsciiDigit_of_mem_decimalDigits hc)
  have htake : (Text.encode (toString n) ++ 58 :: rest).takeWhile isDigit =
      (Number.decimalDigits n).map Json.byteOf := by
    rw [encode_toString, List.takeWhile_append_of_pos, List.takeWhile_cons_of_neg (by decide),
      List.append_nil]
    intro b hb
    obtain ⟨c, hc, rfl⟩ := List.mem_map.1 hb
    exact (hdigits c hc).1
  have hchars : ((Number.decimalDigits n).map Json.byteOf).map (fun b => Char.ofNat b.toNat) =
      Number.decimalDigits n := by
    rw [List.map_map]
    exact (List.map_congr_left fun c hc => (hdigits c hc).2).trans (List.map_id _)
  rw [lineNumber?, htake]
  simp [hchars, Number.whole?_decimalDigits, hn]

theorem readRecord_record (root : Text.Bytes) (found : FoundLine) :
    readRecord root found.record = .ok (found.hit root) := by
  have hpath : ∀ b ∈ Text.encode found.path, (b != 0) = true := by
    intro b hb
    rw [bne_iff_ne]
    rintro rfl
    rw [Text.encode] at hb
    exact Text.not_mem_flatMap_utf8EncodeChar (by decide) found.nul_not_mem_path hb
  have htake : found.record.takeWhile (· != 0) = Text.encode found.path := by
    rw [FoundLine.record, List.takeWhile_append_of_pos hpath,
      List.takeWhile_cons_of_neg (by decide), List.append_nil]
  have hdrop : found.record.dropWhile (· != 0) =
      0 :: (Text.encode (toString found.line) ++ 58 :: Text.encode found.text) := by
    rw [FoundLine.record, List.dropWhile_append_of_pos hpath,
      List.dropWhile_cons_of_neg (by decide)]
  rw [readRecord, htake, hdrop, Text.lossy_encode]
  simp only [lineNumber?_digits found.line_lt]
  rfl

theorem newline_not_mem_record (found : FoundLine) : (10 : UInt8) ∉ found.record := by
  have htext : ∀ s : String, '\n' ∉ s.toList → (10 : UInt8) ∉ Text.encode s := by
    intro s hs
    rw [Text.encode]
    exact Text.not_mem_flatMap_utf8EncodeChar (by decide) hs
  have hdigits : '\n' ∉ (toString found.line).toList := fun hmem =>
    absurd (Number.isAsciiDigit_of_mem_decimalDigits hmem) (by decide)
  rw [FoundLine.record]
  simp only [List.mem_append, List.mem_cons, not_or]
  exact ⟨htext _ found.newline_not_mem_path, by decide, htext _ hdigits, by decide,
    htext _ found.newline_not_mem_text⟩

/-- The records of lines give their hits. -/
theorem parse_printed (root : Text.Bytes) (founds : List FoundLine) :
    parse root (printed (founds.map FoundLine.record)) = .ok (founds.map (FoundLine.hit root)) := by
  have hlines : ∀ line ∈ founds.map FoundLine.record, (10 : UInt8) ∉ line := by
    intro line hline
    obtain ⟨found, -, rfl⟩ := List.mem_map.1 hline
    exact newline_not_mem_record found
  have hfilter : (founds.map FoundLine.record ++ [[]]).filter (!·.isEmpty) =
      founds.map FoundLine.record := by
    simp [FoundLine.record]
  rw [parse, split_printed hlines, hfilter, List.mapM_map]
  exact Outcome.mapM_eq_ok fun found _ => readRecord_record root found

end Grep

/-! ### Messages -/

namespace Ripgrep

open ListingLine

theorem kept_text (s : String) : Json.kept (.text s) = .text s := by
  rw [Json.kept] <;> simp

theorem kept_integer (n : Int) : Json.kept (.integer n) = .integer n := by
  rw [Json.kept] <;> simp

theorem messageEntries_perm (kind : String) (data : Datum) (kindFirst : Bool) :
    (messageEntries kind data kindFirst).Perm [("type", .text kind), ("data", data)] := by
  cases kindFirst with
  | true => exact .refl _
  | false => exact .swap _ _ _

/-- A message is read as what it was made of. -/
theorem readMessage_message {kind : String} {data : Datum} {kindFirst : Bool}
    (h : Json.Shallow (Json.depthLimit - 1) data) :
    readMessage (message kind data kindFirst) = .ok ⟨kind, Json.kept data⟩ := by
  have hkind : Json.Reads (Json.reader .text) (Json.compact (.text kind))
      (Json.kept (.text kind)) := by
    rw [Json.compact_text, kept_text, Json.reader]
    exact fun p blanks rest hblanks _ => Json.text_eq _ kind hblanks p rest
  have hfields : Json.ReadFields Json.compact Json.kept
      [⟨"type", none, none, Json.reader .text⟩,
        ⟨"data", some .null, some .null, Json.anything (Json.depthLimit - 1)⟩]
      [("type", .text kind), ("data", data)] :=
    .cons ⟨rfl, hkind⟩ (.cons ⟨rfl, (Json.reads_anything h).2⟩ .nil)
  have hread := Json.readWith_of_reads (@Json.reads_record .compact Json.compact Json.kept _ _
    "Message" _ hfields (by simp) (messageEntries_perm kind data kindFirst))
  rw [← Json.compact_table] at hread
  rw [readMessage, message, messageReader, hread, Outcome.ok_bind, Json.keptEntries]
  simp [Datum.get?, kept_text, Datum.toText?, List.lookup_cons]

theorem readHit_other {kind : String} {data : Datum} {kindFirst : Bool} (root : Text.Bytes)
    (hkind : kind ≠ "match") (h : Json.Shallow (Json.depthLimit - 1) data) :
    readHit root (message kind data kindFirst) = .ok none := by
  rw [readHit, readMessage_message h]
  simp [Except.mapError, hkind, Outcome.ok_bind]

theorem matchFit_table (path : String) (line : Nat) (offset lines submatches : Datum) :
    matchFit (.table [("absolute_offset", offset), ("line_number", .integer line),
        ("lines", lines), ("path", .table [("text", .text path)]), ("submatches", submatches)]) =
      .ok (.table [("path", .table [("text", .text path)]), ("line_number", .integer line)]) := rfl

theorem shallow_data (line : FoundLine) (ending : String) {offset : Nat}
    {submatches : List Datum} (hoffset : offset < Json.wordLimit)
    (h : ∀ d ∈ submatches, Json.Shallow (Json.depthLimit - 3) d) :
    Json.Shallow (Json.depthLimit - 1) (line.data ending offset submatches) := by
  have htext : ∀ s : String, Json.Shallow (Json.depthLimit - 2) (.table [("text", .text s)]) := by
    intro s
    refine .table fun e he => ?_
    rw [List.mem_singleton.1 he]
    exact .text s
  refine .table fun e he => ?_
  simp only [List.mem_cons, List.not_mem_nil, or_false] at he
  rcases he with rfl | rfl | rfl | rfl | rfl
  · exact htext line.path
  · exact htext (line.text ++ ending)
  · exact .count line.line_lt
  · exact .count hoffset
  · exact .list h

theorem kept_data (line : FoundLine) (ending : String) (offset : Nat) (submatches : List Datum) :
    Json.kept (line.data ending offset submatches) =
      .table [("absolute_offset", .integer offset), ("line_number", .integer line.line),
        ("lines", .table [("text", .text (line.text ++ ending))]),
        ("path", .table [("text", .text line.path)]),
        ("submatches", .list (submatches.map Json.kept))] := by
  have htext : ∀ s : String, Json.kept (.table [("text", .text s)]) =
      .table [("text", .text s)] := by
    intro s
    rw [Json.kept_table, Json.byKey_eq_of_perm (.refl _) (by simp [Json.keptEntries]),
      Json.keptEntries, List.map_singleton, kept_text]
  rw [FoundLine.data, Json.kept_table]
  refine congrArg Datum.table (Json.byKey_eq_of_perm ?_ ?_)
  · simp only [Json.keptEntries, List.map_cons, List.map_nil, htext, kept_integer, Json.kept_list]
    exact (((List.reverse_perm [_, _, _, _]).append_right [_]).symm :)
  · have hkeys : ["absolute_offset", "line_number", "lines", "path", "submatches"].Pairwise
        (· < ·) := by decide
    exact List.pairwise_map.1 hkeys

theorem readHit_found (root : Text.Bytes) (line : FoundLine) (ending : String) {offset : Nat}
    {submatches : List Datum} (hoffset : offset < Json.wordLimit)
    (h : ∀ d ∈ submatches, Json.Shallow (Json.depthLimit - 3) d) :
    readHit root (message "match" (line.data ending offset submatches) true) =
      .ok (some (line.hit root)) := by
  rw [readHit, readMessage_message (shallow_data line ending hoffset h), kept_data]
  simp only [Except.mapError, Outcome.ok_bind, matchFit_table]
  rfl

theorem newline_not_mem_message {kind : String} {data : Datum} {kindFirst : Bool}
    (h : Json.Shallow (Json.depthLimit - 1) data) : (10 : UInt8) ∉ message kind data kindFirst := by
  have hentries : Json.Shallow Json.depthLimit (.table (messageEntries kind data kindFirst)) := by
    refine .table fun e he => ?_
    have hmem := (messageEntries_perm kind data kindFirst).mem_iff.1 he
    simp only [List.mem_cons, List.not_mem_nil, or_false] at hmem
    rcases hmem with rfl | rfl
    · exact .text kind
    · exact h
  exact Text.not_mem_flatMap_utf8EncodeChar (by decide) (Json.newline_not_mem_compact hentries)

theorem not_all_isBlank_message (kind : String) (data : Datum) (kindFirst : Bool) :
    (message kind data kindFirst).all isBlank = false := by
  rw [message, Json.compact_table, Json.Layout.table, Json.Layout.brackets,
    Json.bytesOf_cons (by decide), List.all_cons]
  exact Bool.and_eq_false_imp.2 fun h => absurd h (by decide)

theorem newline_not_mem_bytes (line : ListingLine) : (10 : UInt8) ∉ line.bytes := by
  cases line with
  | found line ending offset submatches hoffset h =>
      exact newline_not_mem_message (shallow_data line ending hoffset h)
  | other kind data kindFirst hkind h => exact newline_not_mem_message h
  | blank bytes h => exact fun hmem => absurd (h _ hmem) (by decide)

/-- A line of the listing is blank, or it is read as the hit that it tells of. -/
theorem blank_or_readHit (root : Text.Bytes) (line : ListingLine) :
    (line.bytes.all isBlank = true ∧ line.found? = none) ∨
      (line.bytes.all isBlank = false ∧
        readHit root line.bytes = .ok (line.found?.map (FoundLine.hit root))) := by
  cases line with
  | found line ending offset submatches hoffset h =>
      exact .inr ⟨not_all_isBlank_message _ _ _, readHit_found root line ending hoffset h⟩
  | other kind data kindFirst hkind h =>
      exact .inr ⟨not_all_isBlank_message _ _ _, readHit_other root hkind h⟩
  | blank bytes h =>
      have hblank : [(32 : UInt8), 9, 12, 13].all isBlank := by decide
      exact .inl ⟨List.all_eq_true.2 fun b hb => List.all_eq_true.1 hblank b (h b hb), rfl⟩

theorem mapM_readHit (root : Text.Bytes) (lines : List ListingLine) :
    ∃ hits, ((lines.map ListingLine.bytes ++ [[]]).filter fun (line : Text.Bytes) =>
        !line.all isBlank).mapM (readHit root) = .ok hits ∧
      hits.filterMap id = (lines.filterMap found?).map (FoundLine.hit root) := by
  induction lines with
  | nil => exact ⟨[], rfl, rfl⟩
  | cons line lines ih =>
      obtain ⟨hits, hmap, hhits⟩ := ih
      rw [List.map_cons, List.cons_append]
      rcases blank_or_readHit root line with ⟨hblank, hnone⟩ | ⟨hvisible, hread⟩
      · refine ⟨hits, ?_, ?_⟩
        · rw [List.filter_cons_of_neg (by simp [hblank])]
          exact hmap
        · rw [List.filterMap_cons_none hnone]
          exact hhits
      · refine ⟨line.found?.map (FoundLine.hit root) :: hits, ?_, ?_⟩
        · rw [List.filter_cons_of_pos (by simp [hvisible])]
          exact Outcome.mapM_cons_eq_ok_iff.2 ⟨_, _, hread, hmap, rfl⟩
        · cases hfound : line.found? with
          | none => simpa [hfound] using hhits
          | some found => simpa [hfound] using hhits

/-- The messages give the hits of the lines that they tell of. -/
theorem parse_printed (root : Text.Bytes) (lines : List ListingLine) :
    parse root (printed (lines.map ListingLine.bytes)) =
      .ok ((lines.filterMap found?).map (FoundLine.hit root)) := by
  have hlines : ∀ bytes ∈ lines.map ListingLine.bytes, (10 : UInt8) ∉ bytes := by
    intro bytes hbytes
    obtain ⟨line, -, rfl⟩ := List.mem_map.1 hbytes
    exact newline_not_mem_bytes line
  obtain ⟨hits, hmap, hhits⟩ := mapM_readHit root lines
  rw [parse, split_printed hlines, hmap, Outcome.ok_bind, hhits]
  rfl

end Ripgrep

/-- Both listings of the same lines give the same hits: one for each line, in order, with the
path below the root and the number of the line. -/
theorem parse_listings (root : Text.Bytes) (lines : List ListingLine) :
    Grep.parse root (printed ((lines.filterMap ListingLine.found?).map FoundLine.record)) =
        .ok ((lines.filterMap ListingLine.found?).map fun found =>
          ⟨Path.relativize root (Text.encode found.path), found.line⟩) ∧
      Ripgrep.parse root (printed (lines.map ListingLine.bytes)) =
        .ok ((lines.filterMap ListingLine.found?).map fun found =>
          ⟨Path.relativize root (Text.encode found.path), found.line⟩) :=
  ⟨Grep.parse_printed root _, Ripgrep.parse_printed root lines⟩

/-- A path with a colon and digits and a text with quotation marks are told apart in both
listings, and a message about a file and a blank line tell of nothing. -/
theorem parse_listings_colon :
    let line : FoundLine := ⟨"app/a:3:b.php", 7, "echo \"x\";", by decide, by decide, by decide,
      by decide⟩
    let about : Datum := .table [("path", .table [("text", .text "app/a:3:b.php")])]
    let lines : List ListingLine :=
      [.other "begin" about true (by decide) (.table fun e he => by
          rw [List.mem_singleton.1 he]
          exact .table fun e he => by
            rw [List.mem_singleton.1 he]
            exact .text _),
        .blank [32, 13] (by simp), .found line "\n" 120 [] (by decide) (by simp)]
    let records := Text.encode "app/a:3:b.php" ++ 0 :: Text.encode "7:echo \"x\";\n"
    let messages := Text.encode <|
      "\x7b\"type\":\"begin\",\"data\":\x7b\"path\":\x7b\"text\":\"app/a:3:b.php\"\x7d\x7d\x7d\n" ++
      " \r\n" ++
      "\x7b\"type\":\"match\",\"data\":\x7b\"path\":\x7b\"text\":\"app/a:3:b.php\"\x7d," ++
        "\"lines\":\x7b\"text\":\"echo \\\"x\\\";\\n\"\x7d,\"line_number\":7," ++
        "\"absolute_offset\":120,\"submatches\":[]\x7d\x7d\n"
    printed ((lines.filterMap ListingLine.found?).map FoundLine.record) = records ∧
      printed (lines.map ListingLine.bytes) = messages ∧
      Grep.parse (Text.encode "app") records = .ok [⟨"a:3:b.php", 7⟩] ∧
      Ripgrep.parse (Text.encode "app") messages = .ok [⟨"a:3:b.php", 7⟩] := by
  intro line about lines records messages
  have hrecords : printed ((lines.filterMap ListingLine.found?).map FoundLine.record) = records := by
    decide +kernel
  have hmessages : printed (lines.map ListingLine.bytes) = messages := by
    decide +kernel
  obtain ⟨hgrep, hripgrep⟩ := parse_listings (Text.encode "app") lines
  rw [hrecords] at hgrep
  rw [hmessages] at hripgrep
  have hpath : Path.relativize (Text.encode "app") (Text.encode line.path) = "a:3:b.php" := by
    decide +kernel
  refine ⟨hrecords, hmessages, ?_, ?_⟩
  · rw [hgrep, ← hpath]
    rfl
  · rw [hripgrep, ← hpath]
    rfl

end DocClaims
