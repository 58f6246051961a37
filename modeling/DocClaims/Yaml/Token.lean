import DocClaims.Yaml.ScalarText

/-!
# YAML tokens

A YAML text splits into tokens: indicators, scalars, names and tags, and the
starts and ends of nested blocks, which the text shows by indentation only. That
a scalar is a key shows at the colon behind it; the tokens that open a key are
then put in before it.
-/

namespace DocClaims
namespace Yaml

inductive Token
  | streamEnd
  | version (major minor : Nat)
  | tagDirective (handle expansion : String)
  | documentStart
  | documentEnd
  | blockList
  | blockTable
  | blockEnd
  | flowListStart
  | flowListEnd
  | flowTableStart
  | flowTableEnd
  | dash
  | comma
  | key
  | value
  | anchor (name : String)
  | reference (name : String)
  | tag (handle suffix : String)
  | scalar (style : Style) (text : String)
  deriving DecidableEq, Repr

structure PlacedToken where
  token : Token
  place : Place
  deriving DecidableEq, Repr

/-- A token that turns out to be a key if a colon follows. -/
structure KeyCandidate where
  required : Bool
  number : Nat
  place : Place

/-- The state of splitting a text into tokens. -/
structure Lexer where
  cursor : Cursor
  /-- The column of the innermost block, or -1 outside of all. -/
  indent : Int
  /-- The columns of the blocks around it, innermost first. -/
  outerIndents : List Int
  candidate : Option KeyCandidate
  /-- The candidates on the levels around it, innermost first. -/
  outerCandidates : List (Option KeyCandidate)
  keyAllowed : Bool
  /-- The tokens, latest first, and their number. -/
  tokens : List PlacedToken
  count : Nat

/-- A reader of one part of a text, which began at the given place. -/
abbrev PartReader (α : Type) := Place → Cursor → Except Fault (α × Cursor)

namespace Lexer

def start (cs : List Char) : Lexer := ⟨⟨.origin, cs⟩, -1, [], none, [], true, [], 0⟩

def place (s : Lexer) : Place := s.cursor.place

def inFlow (s : Lexer) : Bool := !s.outerCandidates.isEmpty

def add (s : Lexer) (token : Token) (place : Place) : Lexer :=
  { s with tokens := ⟨token, place⟩ :: s.tokens, count := s.count + 1 }

/-- Puts tokens in behind the first `number` tokens. -/
def insertAt (s : Lexer) (number : Nat) (more : List PlacedToken) : Lexer :=
  let later := s.tokens.take (s.count - number)
  { s with
    tokens := later ++ more.reverse ++ s.tokens.drop (s.count - number)
    count := s.count + more.length }

/-! ### Keys -/

def missingColon (s : Lexer) (k : KeyCandidate) : Fault :=
  .interrupted .keyWithoutColon s.place .simpleKey k.place

def dropCandidate (s : Lexer) : Except Fault Lexer :=
  match s.candidate with
  | some k => if k.required then .error (s.missingColon k) else .ok { s with candidate := none }
  | none => .ok s

/-- A key ends on the line on which it begins, and within 1024 characters. -/
def KeyCandidate.isStale (k : KeyCandidate) (p : Place) : Bool :=
  k.place.line < p.line || k.place.index + 1024 < p.index

def fresh? (s : Lexer) : Option KeyCandidate → Except Fault (Option KeyCandidate)
  | some k =>
      if KeyCandidate.isStale k s.place then
        if k.required then .error (s.missingColon k) else .ok none
      else .ok (some k)
  | none => .ok none

/-- Drops the candidates that can no longer be keys, outermost first. -/
def dropStale (s : Lexer) : Except Fault Lexer := do
  let outer ← s.outerCandidates.reverse.mapM s.fresh?
  let candidate ← s.fresh? s.candidate
  return { s with candidate := candidate, outerCandidates := outer.reverse }

def noteCandidate (s : Lexer) : Except Fault Lexer := do
  if s.keyAllowed then
    let s ← s.dropCandidate
    return { s with
      candidate := some ⟨!s.inFlow && s.indent == s.place.column, s.count, s.place⟩ }
  else return s

/-! ### Blocks -/

/-- Ends the blocks whose column is behind `column`. -/
def closeFrom (tokens : List PlacedToken) (count : Nat) (column : Int) (place : Place) :
    Int → List Int → List PlacedToken × Nat × Int × List Int
  | indent, [] => (tokens, count, indent, [])
  | indent, outer :: others =>
      if column < indent then
        closeFrom (⟨.blockEnd, place⟩ :: tokens) (count + 1) column place outer others
      else (tokens, count, indent, outer :: others)

def closeBlocks (s : Lexer) (column : Int) : Lexer :=
  if s.inFlow then s
  else
    let (tokens, count, indent, others) :=
      closeFrom s.tokens s.count column s.place s.indent s.outerIndents
    { s with tokens := tokens, count := count, indent := indent, outerIndents := others }

/-- A block at this column has not begun yet. -/
def opensBlock (s : Lexer) (column : Nat) : Bool := !s.inFlow && s.indent < column

def enterBlock (s : Lexer) (column : Nat) : Lexer :=
  { s with indent := column, outerIndents := s.indent :: s.outerIndents }

/-- Begins a block at the current column, unless it has begun before. -/
def openBlock (s : Lexer) (token : Token) : Lexer :=
  if s.opensBlock s.place.column then (s.add token s.place).enterBlock s.place.column else s

/-! ### Between tokens -/

def dropComment (c : Cursor) : Cursor :=
  if c.rest.head? == some '#' then c.skip (!isBreak ·) else c

/-- Behind blanks, comments and breaks. A tab may not indent a line of a block. -/
def toNextToken (keyAllowed flow : Bool) (place : Place) :
    List Char → Bool → Bool × Cursor
  | [], _ => (keyAllowed, ⟨place, []⟩)
  | c :: rest, inComment =>
      if isSilent c rest then toNextToken keyAllowed flow place.silent rest inComment
      else if isBreak c then toNextToken (keyAllowed || !flow) flow place.newLine rest false
      else if inComment || c == ' ' || ((flow || !keyAllowed) && c == '\t') ||
          (place.index == 0 && c.toNat == 0xFEFF) then
        toNextToken keyAllowed flow place.next rest inComment
      else if c == '#' then toNextToken keyAllowed flow place.next rest true
      else (keyAllowed, ⟨place, c :: rest⟩)

def skipToToken (s : Lexer) : Lexer :=
  let (keyAllowed, cursor) := toNextToken s.keyAllowed s.inFlow s.place s.cursor.rest false
  { s with keyAllowed := keyAllowed, cursor := cursor }

/-! ### Indicators -/

def indicator (s : Lexer) (token : Token) (n : Nat) : Lexer :=
  { s.add token s.place with cursor := s.cursor.forward n }

def documentMark (s : Lexer) (token : Token) : Except Fault Lexer := do
  let s ← (s.closeBlocks (-1)).dropCandidate
  return { s.indicator token 3 with keyAllowed := false }

def openFlow (s : Lexer) (token : Token) : Except Fault Lexer := do
  let s ← s.noteCandidate
  return { s.indicator token 1 with
    candidate := none, outerCandidates := s.candidate :: s.outerCandidates, keyAllowed := true }

def closeFlow (s : Lexer) (token : Token) : Except Fault Lexer := do
  let s ← s.dropCandidate
  let s := match s.outerCandidates with
    | k :: others => { s with candidate := k, outerCandidates := others }
    | [] => s
  return { s.indicator token 1 with keyAllowed := false }

def comma (s : Lexer) : Except Fault Lexer := do
  let s ← s.dropCandidate
  return { s.indicator .comma 1 with keyAllowed := true }

def dash (s : Lexer) : Except Fault Lexer := do
  if !s.inFlow && !s.keyAllowed then throw (.misplaced .entryNotAllowed s.place)
  let s ← (s.openBlock .blockList).dropCandidate
  return { s.indicator .dash 1 with keyAllowed := true }

def questionMark (s : Lexer) : Except Fault Lexer := do
  if !s.inFlow && !s.keyAllowed then throw (.misplaced .keyNotAllowed s.place)
  let s ← (s.openBlock .blockTable).dropCandidate
  return { s.indicator .key 1 with keyAllowed := !s.inFlow }

/-- The candidate before a colon is a key, which may begin a block. -/
def confirmKey (s : Lexer) (k : KeyCandidate) : Lexer :=
  let s := { s with candidate := none }
  if s.opensBlock k.place.column then
    (s.insertAt k.number [⟨.blockTable, k.place⟩, ⟨.key, k.place⟩]).enterBlock k.place.column
  else s.insertAt k.number [⟨.key, k.place⟩]

def colon (s : Lexer) : Except Fault Lexer := do
  match s.candidate with
  | some k => return { (s.confirmKey k).indicator .value 1 with keyAllowed := false }
  | none =>
      if !s.inFlow && !s.keyAllowed then throw (.misplaced .valueNotAllowed s.place)
      return { (s.openBlock .blockTable).indicator .value 1 with keyAllowed := !s.inFlow }

/-! ### Names, tags and directives -/

def isNameChar (c : Char) : Bool :=
  Text.isAsciiLetter c || Text.isAsciiDigit c || c == '_' || c == '-'

def nextIs (c : Cursor) (a : Char) : Bool := c.rest.head? == some a

def endsName (cs : List Char) : Bool :=
  endsWord cs || cs.head?.any (['?', ':', ',', ']', '\x7d', '%', '@', '\x60'].contains ·)

/-- The name behind the sign of an anchor or of a reference. -/
def name (activity : Activity) : PartReader String := fun start c =>
  let (cs, c) := (c.forward 1).span isNameChar
  if cs.isEmpty || !endsName c.rest then .error (.interrupted .badAnchor c.place activity start)
  else .ok (String.ofList cs, c)

/-- An octet written with a percent sign. -/
def octet? : List Char → Option Nat
  | '%' :: a :: b :: _ =>
      let (x, y) := (Number.digitValue a, Number.digitValue b)
      if x < 16 && y < 16 then some (x * 16 + y) else none
  | _ => none

def octetCount (first : Nat) : Nat :=
  if first < 0x80 then 1
  else if 0xC0 ≤ first && first < 0xE0 then 2
  else if 0xE0 ≤ first && first < 0xF0 then 3
  else if 0xF0 ≤ first && first < 0xF8 then 4
  else 0

def laterOctets (activity : Activity) (start : Place) : Nat → Nat → Cursor →
    Except Fault (Nat × Cursor)
  | 0, value, c => .ok (value, c)
  | n + 1, value, c =>
      match octet? c.rest with
      | none => .error (.interrupted .noOctet c.place activity start)
      | some o =>
          if o / 64 == 2 then laterOctets activity start n (value * 64 + o % 64) (c.forward 3)
          else .error (.interrupted .badLaterOctet c.place activity start)

def escapedChar (activity : Activity) : PartReader Char := fun start c =>
  match octet? c.rest with
  | none => .error (.interrupted .noOctet c.place activity start)
  | some o =>
      let n := octetCount o
      if n == 0 then .error (.interrupted .badFirstOctet c.place activity start)
      else do
        let first := if n == 1 then o else o % Nat.pow 2 (7 - n)
        let (value, c) ← laterOctets activity start (n - 1) first (c.forward 3)
        return (Char.ofNat value, c)

/-- May stand in a tag; `angled` tells that angle brackets enclose it. -/
def isUriChar (angled : Bool) (c : Char) : Bool :=
  isNameChar c || ";/?:@&=+$.%!~*'()".toList.contains c || (angled && ",[]".toList.contains c)

/-- The characters of a tag; `fuel` bounds their number. -/
def uriFrom (angled : Bool) (activity : Activity) (start : Place) :
    Nat → List Char → Cursor → Except Fault (List Char × Cursor)
  | 0, out, c => .ok (out.reverse, c)
  | fuel + 1, out, c =>
      match c.rest with
      | [] => .ok (out.reverse, c)
      | a :: _ =>
          if a == '%' then do
            let (b, c) ← escapedChar activity start c
            uriFrom angled activity start fuel (b :: out) c
          else if isUriChar angled a then
            uriFrom angled activity start fuel (a :: out) (c.forward 1)
          else .ok (out.reverse, c)

/-- The characters of a tag behind those of `head`, whose first is a sign. -/
def uri (angled : Bool) (activity : Activity) (head : List Char) : PartReader (List Char) :=
  fun start c => do
    let (cs, c') ← uriFrom angled activity start c.rest.length [] c
    if head.isEmpty && cs.isEmpty then throw (.interrupted .noTagUri c'.place activity start)
    return (head.drop 1 ++ cs, c')

/-- The handle of a tag, with its exclamation marks. -/
def handle (inDirective : Bool) : PartReader (List Char) := fun start c =>
  if !nextIs c '!' then
    .error (.interrupted .noBang c.place (if inDirective then .directive else .tag) start)
  else
    let (cs, c) := (c.forward 1).span isNameChar
    if nextIs c '!' then .ok ('!' :: cs ++ ['!'], c.forward 1)
    else if inDirective && !cs.isEmpty then .error (.interrupted .noBang c.place .tagHandle start)
    else .ok ('!' :: cs, c)

/-- A tag in angle brackets, behind its exclamation mark. -/
def angledTag : PartReader Token := fun start c => do
  let (cs, c) ← uri true .tagUri [] start (c.forward 2)
  if !nextIs c '>' then throw (.interrupted .noAngle c.place .tag start)
  return (.tag "" (String.ofList cs), c.forward 1)

def shortTag : PartReader Token := fun start c => do
  let (h, c) ← handle false start c
  if 1 < h.length && h.getLast? == some '!' then
    let (cs, c) ← uri false .tagUri [] start c
    return (.tag (String.ofList h) (String.ofList cs), c)
  else
    let (cs, c) ← uri false .tagUri h start c
    return (if cs.isEmpty then .tag "" "!" else .tag "!" (String.ofList cs), c)

def tag (flow : Bool) : PartReader Token := fun start c => do
  let (token, c) ← if nextIs (c.forward 1) '<' then angledTag start c else shortTag start c
  if endsWord c.rest || (flow && nextIs c ',') then return (token, c)
  throw (.interrupted .noBlankOrBreak c.place .tag start)

def versionNumber : PartReader Nat := fun start c =>
  let ds := c.rest.takeWhile Text.isAsciiDigit
  if 9 < ds.length then
    .error (.interrupted .longVersion (c.place.forward 9) .versionDirective start)
  else if ds.isEmpty then .error (.interrupted .noVersion c.place .versionDirective start)
  else .ok (Number.valueOfDigits 10 ds, c.forward ds.length)

def versionDirective : PartReader Token := fun start c => do
  let (major, c) ← versionNumber start (c.skip isGap)
  if !nextIs c '.' then throw (.interrupted .badVersion c.place .versionDirective start)
  let (minor, c) ← versionNumber start (c.forward 1)
  return (.version major minor, c)

def tagDirective : PartReader Token := fun start c => do
  let (h, c) ← handle true start (c.skip isGap)
  if !c.rest.head?.any isGap then throw (.interrupted .noBlank c.place .tagDirective start)
  let (cs, c) ← uri true .tagExpansion [] start (c.skip isGap)
  if !endsWord c.rest then throw (.interrupted .noBlankOrBreak c.place .tagDirective start)
  return (.tagDirective (String.ofList h) (String.ofList cs), c)

def restOfLine (activity : Activity) (start : Place) (c : Cursor) : Except Fault Cursor :=
  let c := dropComment (c.skip isGap)
  if c.rest.isEmpty || c.rest.head?.any isBreak then .ok c.skipBreak
  else .error (.interrupted .textBehind c.place activity start)

def directive : PartReader Token := fun start c => do
  let (cs, c) := (c.forward 1).span isNameChar
  if cs.isEmpty then throw (.interrupted .noDirectiveName c.place .directive start)
  if !endsWord c.rest then throw (.interrupted .badDirectiveName c.place .directive start)
  let (token, c) ←
    if cs == "YAML".toList then versionDirective start c
    else if cs == "TAG".toList then tagDirective start c
    else throw (.interrupted .unknownDirective c.place .directive start)
  return (token, ← restOfLine .directive start c)

/-! ### Scalars -/

def chomping (c : Cursor) : Option Chomping :=
  if nextIs c '+' then some .keep else if nextIs c '-' then some .strip else none

/-- The indentation in the header of a block scalar, or zero. -/
def indentation : PartReader Nat := fun start c =>
  match c.rest with
  | d :: _ =>
      if d == '0' then .error (.interrupted .zeroIndentation c.place .blockScalar start)
      else if Text.isAsciiDigit d then .ok (Number.digitValue d, c.forward 1)
      else .ok (0, c)
  | [] => .ok (0, c)

/-- The header of a block scalar: how its end is treated, and its indentation. -/
def blockHeader : PartReader (Chomping × Nat) := fun start c => do
  match chomping c with
  | some chomp =>
      let (n, c) ← indentation start (c.forward 1)
      return ((chomp, n), c)
  | none =>
      let (n, c) ← indentation start c
      match (if n == 0 then none else chomping c) with
      | some chomp => return ((chomp, n), c.forward 1)
      | none => return ((.clip, n), c)

def blockScalar (style : Style) (indent : Int) : PartReader Token := fun start c => do
  let ((chomp, n), c) ← blockHeader start (c.forward 1)
  let c ← restOfLine .blockScalar start c
  let column := if n == 0 then 0 else (max indent 0).toNat + n
  let (b, c) ← blockFrom (style == .folded) (max 1 (indent + 1)).toNat start
    ⟨column, 0, [], [], [], false⟩ false c.place c.rest
  return (.scalar style (String.ofList (b.text chomp)), c)

def quotedScalar (style : Style) : PartReader Token := fun start c => do
  let c := c.forward 1
  let (cs, c) ←
    if style == .single then singleFrom start [] .none false c.place c.rest
    else doubleFrom start [] .none .none c.place c.rest
  return (.scalar style (String.ofList cs), c)

/-! ### Steps -/

def candidatePart (s : Lexer) (reader : PartReader Token) : Except Fault Lexer := do
  let s ← s.noteCandidate
  let (token, c) ← reader s.place s.cursor
  return { s.add token s.place with cursor := c, keyAllowed := false }

def plainPart (s : Lexer) : Except Fault Lexer := do
  let s ← s.noteCandidate
  let p ← plainFrom s.inFlow (s.indent + 1).toNat s.place [] .none s.place s.cursor.rest
  return { s.add (.scalar .plain (String.ofList p.text)) s.place with
    cursor := p.after, keyAllowed := p.broken }

def blockPart (s : Lexer) (style : Style) : Except Fault Lexer := do
  let s ← s.dropCandidate
  let (token, c) ← blockScalar style s.indent s.place s.cursor
  return { s.add token s.place with cursor := c, keyAllowed := true }

def directivePart (s : Lexer) : Except Fault Lexer := do
  let s ← (s.closeBlocks (-1)).dropCandidate
  let (token, c) ← directive s.place s.cursor
  return { s.add token s.place with cursor := c, keyAllowed := false }

def finish (s : Lexer) : Except Fault Lexer := do
  let place := if s.place.column == 0 then s.place else ⟨s.place.index, s.place.line + 1, 0⟩
  let s ← ({ s with cursor := ⟨place, []⟩ }.closeBlocks (-1)).dropCandidate
  return { s.add .streamEnd place with keyAllowed := false }

/-- A plain scalar may begin here, when no indicator does. -/
def beginsPlain (s : Lexer) (c : Char) (rest : List Char) : Bool :=
  if c == '-' then !rest.head?.any isGap
  else if c == '?' || c == ':' then !s.inFlow && !endsWord rest
  else !isGapOrBreak c && !firstIndicators.contains c

def readToken (s : Lexer) (c : Char) (rest : List Char) : Except Fault Lexer :=
  let lineStart := s.place.column == 0
  if lineStart && c == '%' then s.directivePart
  else if lineStart && atDocumentMark (c :: rest) then
    s.documentMark (if c == '-' then .documentStart else .documentEnd)
  else if c == '[' then s.openFlow .flowListStart
  else if c == '\x7b' then s.openFlow .flowTableStart
  else if c == ']' then s.closeFlow .flowListEnd
  else if c == '\x7d' then s.closeFlow .flowTableEnd
  else if c == ',' then s.comma
  else if c == '-' && endsWord rest then s.dash
  else if c == '?' && (s.inFlow || endsWord rest) then s.questionMark
  else if c == ':' && (s.inFlow || endsWord rest) then s.colon
  else if c == '*' then
    s.candidatePart fun start c => do
      let (n, c) ← name .reference start c
      return (.reference n, c)
  else if c == '&' then
    s.candidatePart fun start c => do
      let (n, c) ← name .anchor start c
      return (.anchor n, c)
  else if c == '!' then s.candidatePart (tag s.inFlow)
  else if c == '|' && !s.inFlow then s.blockPart .literal
  else if c == '>' && !s.inFlow then s.blockPart .folded
  else if c == '\'' then s.candidatePart (quotedScalar .single)
  else if c == '"' then s.candidatePart (quotedScalar .double)
  else if s.beginsPlain c rest then s.plainPart
  else .error (.interrupted .noToken s.place .nextToken s.place)

/-- Reads the next token; the second component tells that it was the last. -/
def step (s : Lexer) : Except Fault (Lexer × Bool) := do
  let s ← s.skipToToken.dropStale
  let s := s.closeBlocks s.place.column
  match s.cursor.rest with
  | [] => return (← (← s.finish).dropStale, true)
  | c :: rest => return (← (← s.readToken c rest).dropStale, false)

/-- The tokens that are certain: those before the first that may be a key. -/
def certain (s : Lexer) : List PlacedToken :=
  let numbers := (s.candidate :: s.outerCandidates).filterMap fun k => k.map KeyCandidate.number
  s.tokens.reverse.take (numbers.foldl min s.count)

end Lexer

/-- The tokens of a text up to the first fault. -/
structure TokenStream where
  tokens : List PlacedToken
  fault : Option Fault

/-- Reads tokens; every step but the last takes a character, so `fuel` need not
exceed their number by more than one. -/
def Lexer.run : Nat → Lexer → TokenStream
  | 0, s => ⟨s.certain, none⟩
  | fuel + 1, s =>
      match s.step with
      | .error fault => ⟨s.certain, some fault⟩
      | .ok (s, true) => ⟨s.tokens.reverse, none⟩
      | .ok (s, false) => run fuel s

def controlPosition? (position : Nat) : List Char → Option Nat
  | [] => none
  | c :: rest =>
      if isPrintable c || c == '\t' || c == '\r' || c.toNat == 0x85 || c.toNat == 0xFEFF then
        controlPosition? (position + c.utf8Size) rest
      else some position

def TokenStream.ofText (cs : List Char) : TokenStream :=
  match controlPosition? 0 cs with
  | some position => ⟨[], some (.controlCharacter position)⟩
  | none => (Lexer.start cs).run (cs.length + 1)

end Yaml
end DocClaims
