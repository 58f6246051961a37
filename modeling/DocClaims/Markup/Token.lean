import DocClaims.Markup.Reference

/-!
# Markup tokens

Markup splits into tokens in the way browsers split it, so no text is refused:
tags, comments, document types, and runs of characters with their references
decoded. The content of script and style elements is raw up to the matching end
tag. A tag that the text breaks off is dropped.
-/

namespace DocClaims
namespace Markup

inductive Token
  | chars (s : List Char)
  | startTag (name : String) (selfClosing : Bool)
  | endTag (name : String)
  | comment
  | doctype
  | null
  | fault
  | eof
  deriving DecidableEq, Repr

/-- Elements whose content is raw text up to the matching end tag. -/
def rawTextNames : List String := ["script", "style"]

def dropByteOrderMark : List Char → List Char
  | c :: rest => if c.toNat == 0xFEFF then rest else c :: rest
  | [] => []

/-! ### Tags -/

def isTagBlank (c : Char) : Bool :=
  c == '\t' || c == '\n' || c == '\r' || c == '\x0c' || c == ' '

def lowerAsciiChar (c : Char) : Char := if Text.isAsciiUpper c then Char.ofNat (c.toNat + 32) else c

inductive TagState
  | name
  | beforeAttribute
  | attributeName
  | afterAttribute
  | beforeValue
  /-- Before a value, behind a carriage return. -/
  | beforeValueReturn
  /-- Before a value, behind a carriage return and a line feed, which take the
  next character with them. -/
  | beforeValueLine
  | quoted (quote : Char)
  | unquoted
  | afterQuoted
  | selfClosing

inductive TagStep
  | goOn (state : TagState)
  | close (selfClosing : Bool)

def stepBeforeAttribute (c : Char) : TagStep :=
  if isTagBlank c then .goOn .beforeAttribute
  else if c == '/' then .goOn .selfClosing
  else if c == '>' then .close false
  else .goOn .attributeName

def stepBeforeValue (c : Char) : TagStep :=
  if c == '\r' then .goOn .beforeValueReturn
  else if isTagBlank c then .goOn .beforeValue
  else if c == '"' || c == '\'' then .goOn (.quoted c)
  else if c == '>' then .close false
  else .goOn .unquoted

def TagState.step : TagState → Char → TagStep
  | .name, c =>
      if isTagBlank c then .goOn .beforeAttribute
      else if c == '/' then .goOn .selfClosing
      else if c == '>' then .close false
      else .goOn .name
  | .beforeAttribute, c => stepBeforeAttribute c
  | .attributeName, c =>
      if isTagBlank c then .goOn .afterAttribute
      else if c == '/' then .goOn .selfClosing
      else if c == '=' then .goOn .beforeValue
      else if c == '>' then .close false
      else .goOn .attributeName
  | .afterAttribute, c =>
      if isTagBlank c then .goOn .afterAttribute
      else if c == '/' then .goOn .selfClosing
      else if c == '=' then .goOn .beforeValue
      else if c == '>' then .close false
      else .goOn .attributeName
  | .beforeValue, c => stepBeforeValue c
  | .beforeValueReturn, c => if c == '\n' then .goOn .beforeValueLine else stepBeforeValue c
  | .beforeValueLine, c => .goOn (if c == '\r' then .beforeValueReturn else .beforeValue)
  | .quoted quote, c => if c == quote then .goOn .afterQuoted else .goOn (.quoted quote)
  | .unquoted, c =>
      if isTagBlank c then .goOn .beforeAttribute
      else if c == '>' then .close false
      else .goOn .unquoted
  | .afterQuoted, c => stepBeforeAttribute c
  | .selfClosing, c => if c == '>' then .close true else stepBeforeAttribute c

/-- A tag up to its closing bracket, and what follows. -/
structure Tag where
  name : String
  selfClosing : Bool
  rest : List Char

/-- The name with one more character, when the tag is still at its name. -/
def TagState.nameWith (state : TagState) (name : List Char) (c : Char) : List Char :=
  match state with
  | .name => (if c.toNat == 0 then Char.ofNat 0xFFFD else lowerAsciiChar c) :: name
  | _ => name

/-- Reads on in a tag whose name so far is `name`, in reverse. -/
def readTag (state : TagState) (name : List Char) : List Char → Option Tag
  | [] => none
  | c :: rest =>
      match state.step c with
      | .close selfClosing => some ⟨String.ofList name.reverse, selfClosing, rest⟩
      | .goOn next => readTag next (next.nameWith name c) rest

theorem length_rest_of_readTag {state : TagState} {name cs : List Char} {tag : Tag}
    (h : readTag state name cs = some tag) : tag.rest.length < cs.length := by
  induction cs generalizing state name with
  | nil => simp [readTag] at h
  | cons c rest ih =>
    unfold readTag at h
    split at h
    · cases h
      simp
    · have := ih h
      simp only [List.length_cons]
      omega

/-! ### Comments -/

inductive CommentState
  | start
  | startDash
  | inside
  | endDash
  | finish
  | finishBang

def afterComment : CommentState → List Char → List Char
  | _, [] => []
  | .start, c :: rest =>
      if c == '-' then afterComment .startDash rest
      else if c == '>' then rest
      else afterComment .inside rest
  | .startDash, c :: rest =>
      if c == '-' then afterComment .finish rest
      else if c == '>' then rest
      else afterComment .inside rest
  | .inside, c :: rest =>
      if c == '-' then afterComment .endDash rest else afterComment .inside rest
  | .endDash, c :: rest =>
      if c == '-' then afterComment .finish rest else afterComment .inside rest
  | .finish, c :: rest =>
      if c == '>' then rest
      else if c == '!' then afterComment .finishBang rest
      else if c == '-' then afterComment .finish rest
      else afterComment .inside rest
  | .finishBang, c :: rest =>
      if c == '-' then afterComment .endDash rest
      else if c == '>' then rest
      else afterComment .inside rest

theorem length_afterComment_le (state : CommentState) (cs : List Char) :
    (afterComment state cs).length ≤ cs.length := by
  induction cs generalizing state with
  | nil => cases state <;> simp [afterComment]
  | cons c rest ih =>
    have step : ∀ next, (afterComment next rest).length ≤ (c :: rest).length := fun next =>
      Nat.le_trans (ih next) (Nat.le_succ _)
    cases state <;> simp only [afterComment] <;> repeat' split
    all_goals first | exact step _ | simp

def afterBracket (cs : List Char) : List Char := (cs.dropWhile (· != '>')).drop 1

theorem length_dropWhile_le (p : Char → Bool) (cs : List Char) :
    (cs.dropWhile p).length ≤ cs.length := by
  induction cs with
  | nil => simp
  | cons c rest ih =>
    rw [List.dropWhile_cons]
    split
    · exact Nat.le_trans ih (Nat.le_succ _)
    · exact Nat.le_refl _

theorem length_afterBracket_le (cs : List Char) : (afterBracket cs).length ≤ cs.length := by
  have := length_dropWhile_le (· != '>') cs
  simp only [afterBracket, List.length_drop]
  omega

/-! ### Tokens -/

def beginsWithLower (word cs : List Char) : Bool := word.isPrefixOf (cs.map lowerAsciiChar)

/-- The token for a declaration, and what follows it. -/
def declaration (cs : List Char) : Token × List Char :=
  if ['-', '-'].isPrefixOf cs then (.comment, afterComment .start (cs.drop 2))
  else if beginsWithLower "doctype".toList (cs.take 7) then (.doctype, afterBracket (cs.drop 7))
  else (.comment, afterBracket cs)

theorem length_declaration_le (cs : List Char) : (declaration cs).2.length ≤ cs.length := by
  unfold declaration
  split
  · have := length_afterComment_le .start (cs.drop 2)
    simp only [List.length_drop] at this
    exact Nat.le_trans this (Nat.sub_le _ _)
  · split
    · have := length_afterBracket_le (cs.drop 7)
      simp only [List.length_drop] at this
      exact Nat.le_trans this (Nat.sub_le _ _)
    · exact length_afterBracket_le cs

/-- The text behind an end tag opener closes the raw text element `name`. -/
def closesRaw (name : String) (cs : List Char) : Bool :=
  let n := name.length
  beginsWithLower name.toList (cs.take n) &&
    ((cs.drop n).head?.map fun c => isTagBlank c || c == '/' || c == '>').getD false

def isRawPlain (c : Char) : Bool := c != '<' && c != '\r' && c.toNat != 0

def isPlain (c : Char) : Bool := c != '&' && isRawPlain c

/-- The tokens from a place in the text on, inside the raw text element `raw`
if there is one. Every line end becomes a line feed. -/
def tokensFrom (raw : Option String) (cs : List Char) : List Token :=
  match raw, cs with
  | _, [] => [.eof]
  | _, '\r' :: '\n' :: rest => .chars ['\n'] :: tokensFrom raw rest
  | _, '\r' :: rest => .chars ['\n'] :: tokensFrom raw rest
  | some name, '<' :: '/' :: rest =>
      if closesRaw name rest then
        match _h : readTag .name [] rest with
        | some tag => .endTag tag.name :: tokensFrom none tag.rest
        | none => [.fault, .eof]
      else .chars ['<'] :: tokensFrom raw ('/' :: rest)
  | some name, c :: rest =>
      if c.toNat == 0 then .chars [Char.ofNat 0xFFFD] :: tokensFrom (some name) rest
      else
        .chars (c :: rest.takeWhile isRawPlain) ::
          tokensFrom (some name) (rest.dropWhile isRawPlain)
  | none, '&' :: rest =>
      .chars (reference rest).chars :: tokensFrom none (reference rest).rest
  | none, ['<'] => [.fault, .chars ['<'], .eof]
  | none, ['<', '/'] => [.fault, .chars ['<', '/'], .eof]
  | none, '<' :: '!' :: rest =>
      (declaration rest).1 :: tokensFrom none (declaration rest).2
  | none, '<' :: '?' :: rest => .comment :: tokensFrom none (afterBracket rest)
  | none, '<' :: '/' :: '>' :: rest => .fault :: tokensFrom none rest
  | none, '<' :: '/' :: c :: rest =>
      if Text.isAsciiLetter c then
        match _h : readTag .name [] (c :: rest) with
        | some tag => .endTag tag.name :: tokensFrom none tag.rest
        | none => [.fault, .eof]
      else .comment :: tokensFrom none (afterBracket rest)
  | none, '<' :: c :: rest =>
      if Text.isAsciiLetter c then
        match _h : readTag .name [] (c :: rest) with
        | some tag =>
            let inside :=
              if !tag.selfClosing && rawTextNames.contains tag.name then some tag.name else none
            .startTag tag.name tag.selfClosing :: tokensFrom inside tag.rest
        | none => [.fault, .eof]
      else .chars ['<'] :: tokensFrom none (c :: rest)
  | none, c :: rest =>
      if c.toNat == 0 then .null :: tokensFrom none rest
      else .chars (c :: rest.takeWhile isPlain) :: tokensFrom none (rest.dropWhile isPlain)
termination_by cs.length
decreasing_by
  all_goals simp only [List.length_cons]
  all_goals
    first
    | omega
    | (have hlt := length_rest_of_readTag _h; omega)
    | (have hlt := length_rest_of_readTag _h; simp only [List.length_cons] at hlt; omega)
    | (have hlt := length_dropWhile_le isRawPlain rest; omega)
    | (have hlt := length_dropWhile_le isPlain rest; omega)
    | (have hlt := length_declaration_le rest; omega)
    | (have hlt := length_reference_le rest; omega)
    | (have hlt := length_afterBracket_le rest; omega)

def tokens (markup : String) : List Token :=
  tokensFrom none (dropByteOrderMark markup.toList)

end Markup
end DocClaims
