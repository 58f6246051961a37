import DocClaims.Markup.Event

/-!
# Events of token sequences

Of a token sequence the tags are kept as they are, and the characters of all runs are kept in
texts. A character is known by its place among those of all runs together: it stands at the same
place among those of all texts. Runs are in one text unless a tag, a comment or a document type
comes between them.
-/

namespace DocClaims
namespace Markup

variable {body before between after : List Token} {found front back : List Event}
  {token : Token} {s t : List Char} {text : String} {i j : Nat}

/-! ### Tokens and events -/

namespace Token

/-- What comes before the end of a document: a run of characters is not empty. -/
structure IsInner (token : Token) : Prop where
  ne_eof : token ≠ .eof
  ne_empty : token ≠ .chars []

instance : DecidablePred IsInner := fun token =>
  decidable_of_iff (token ≠ .eof ∧ token ≠ .chars []) ⟨fun h => ⟨h.1, h.2⟩, fun h => ⟨h.1, h.2⟩⟩

/-- Tags, comments and document types separate the texts around them. -/
def separates : Token → Bool
  | .startTag .. | .endTag _ | .comment | .doctype => true
  | _ => false

/-- The event of a tag. -/
def tag? : Token → Option Event
  | .startTag name _ => some (.start name)
  | .endTag name => some (.finish name)
  | _ => none

def run : Token → List Char
  | .chars s => s
  | _ => []

end Token

def Event.isTag : Event → Bool
  | .text _ => false
  | _ => true

def Event.content : Event → List Char
  | .text s => s.toList
  | _ => []

/-- The characters of all runs, one run behind the other. -/
def runs (tokens : List Token) : List Char := tokens.flatMap Token.run

/-- The characters of all texts, one text behind the other. -/
def contents (events : List Event) : List Char := events.flatMap Event.content

/-- The characters from the place `i` up to the place `j` stand in one text. -/
def InOneText (events : List Event) (i j : Nat) : Prop :=
  ∃ before s after, events = before ++ .text s :: after ∧
    (contents before).length ≤ i ∧ j ≤ (contents before).length + s.toList.length

theorem runs_append (before after : List Token) : runs (before ++ after) = runs before ++ runs after :=
  List.flatMap_append

theorem runs_chars_cons (s : List Char) (tokens : List Token) :
    runs (.chars s :: tokens) = s ++ runs tokens := rfl

theorem contents_append (front back : List Event) :
    contents (front ++ back) = contents front ++ contents back := List.flatMap_append

theorem contents_tag (token : Token) : contents token.tag?.toList = [] := by
  cases token <;> rfl

theorem contents_textEvent (text : String) : contents (textEvent text) = text.toList := by
  rw [textEvent]
  split
  · next hempty => rw [String.isEmpty_iff.1 hempty]; rfl
  · exact List.append_nil _

theorem filter_isTag_textEvent (text : String) : (textEvent text).filter Event.isTag = [] := by
  rw [textEvent]
  split <;> rfl

theorem textEvent_of_ne_empty (h : text ≠ "") : textEvent text = [.text text] := by
  rw [textEvent, if_neg (by simpa using h)]

/-! ### From token to token -/

theorem eventsFrom_eof (text : String) : eventsFrom text [.eof] = textEvent text :=
  List.append_nil _

/-- What separates texts reports the one before it, and stands for itself if it is a tag. -/
theorem eventsFrom_separator (h : token.separates) (text : String) (tokens : List Token) :
    eventsFrom text (token :: tokens) = textEvent text ++ token.tag?.toList ++ eventsFrom "" tokens := by
  cases token with
  | startTag name selfClosing => simp [eventsFrom, Token.tag?]
  | endTag name => simp [eventsFrom, Token.tag?]
  | comment => simp [eventsFrom, Token.tag?]
  | doctype => simp [eventsFrom, Token.tag?]
  | chars s => cases h
  | null => cases h
  | fault => cases h
  | eof => cases h

/-- What does not separate texts adds its characters to the one that is still to be reported. -/
theorem eventsFrom_joining (hinner : token.IsInner) (h : token.separates = false) (text : String)
    (tokens : List Token) :
    eventsFrom text (token :: tokens) = eventsFrom (text ++ String.ofList token.run) tokens := by
  cases token with
  | chars s => rfl
  | null => simp [eventsFrom, Token.run]
  | fault => simp [eventsFrom, Token.run]
  | startTag name selfClosing => cases h
  | endTag name => cases h
  | comment => cases h
  | doctype => cases h
  | eof => exact absurd rfl hinner.ne_eof

theorem tag?_of_joining (h : token.separates = false) :
    token.tag? = none := by
  cases token with
  | chars | null | fault | eof | comment | doctype => rfl
  | startTag name selfClosing => cases h
  | endTag name => cases h

theorem run_of_separates (h : token.separates) : token.run = [] := by
  cases token with
  | chars s => cases h
  | _ => rfl

theorem filter_isTag_eventsFrom (hbody : ∀ token ∈ body, token.IsInner) (text : String) :
    (eventsFrom text (body ++ [.eof])).filter Event.isTag = body.filterMap Token.tag? := by
  induction body generalizing text with
  | nil => rw [List.nil_append, eventsFrom_eof, filter_isTag_textEvent, List.filterMap_nil]
  | cons token body ih =>
      obtain ⟨htoken, hrest⟩ := List.forall_mem_cons.1 hbody
      rw [List.cons_append]
      cases hseparates : token.separates with
      | true =>
          have htag : token.tag?.toList.filter Event.isTag = token.tag?.toList := by
            cases token <;> rfl
          rw [eventsFrom_separator hseparates, List.filter_append, List.filter_append,
            filter_isTag_textEvent, htag, ih hrest, List.nil_append, List.filterMap_cons]
          cases token.tag? <;> rfl
      | false =>
          rw [eventsFrom_joining htoken hseparates, ih hrest,
            List.filterMap_cons_none (tag?_of_joining hseparates)]

theorem contents_eventsFrom (hbody : ∀ token ∈ body, token.IsInner) (text : String) :
    contents (eventsFrom text (body ++ [.eof])) = text.toList ++ runs body := by
  induction body generalizing text with
  | nil => rw [List.nil_append, eventsFrom_eof, contents_textEvent, runs, List.flatMap_nil,
      List.append_nil]
  | cons token body ih =>
      obtain ⟨htoken, hrest⟩ := List.forall_mem_cons.1 hbody
      have hruns : runs (token :: body) = token.run ++ runs body := rfl
      rw [List.cons_append, hruns]
      cases hseparates : token.separates with
      | true =>
          rw [eventsFrom_separator hseparates, contents_append, contents_append,
            contents_textEvent, contents_tag, ih hrest, run_of_separates hseparates]
          simp
      | false =>
          rw [eventsFrom_joining htoken hseparates, ih hrest]
          simp

theorem ne_empty_of_mem_eventsFrom {s : String} (hbody : ∀ token ∈ body, token.IsInner)
    (text : String) (h : .text s ∈ eventsFrom text (body ++ [.eof])) : s ≠ "" := by
  have hpending : ∀ text, .text s ∈ textEvent text → s ≠ "" := by
    intro text hmem hempty
    rw [textEvent] at hmem
    split at hmem
    · cases hmem
    · next hne =>
        obtain rfl : s = text := by simpa using hmem
        simp [hempty] at hne
  induction body generalizing text with
  | nil =>
      rw [List.nil_append, eventsFrom_eof] at h
      exact hpending text h
  | cons token body ih =>
      obtain ⟨htoken, hrest⟩ := List.forall_mem_cons.1 hbody
      rw [List.cons_append] at h
      cases hseparates : token.separates with
      | true =>
          rw [eventsFrom_separator hseparates, List.mem_append, List.mem_append] at h
          rcases h with (htext | htag) | hlater
          · exact hpending text htext
          · cases token <;> simp [Token.tag?] at htag
          · exact ih hrest "" hlater
      | false =>
          rw [eventsFrom_joining htoken hseparates] at h
          exact ih hrest _ h

/-! ### Runs in one text -/

theorem InOneText.append (h : InOneText found i j) (front : List Event) :
    InOneText (front ++ found) ((contents front).length + i) ((contents front).length + j) := by
  obtain ⟨before, s, after, rfl, hi, hj⟩ := h
  refine ⟨front ++ before, s, after, by rw [List.append_assoc], ?_, ?_⟩
  · rw [contents_append, List.length_append]
    omega
  · rw [contents_append, List.length_append]
    omega

/-- No text goes on from the events in front to those behind. -/
theorem not_inOneText_append (hi : i < (contents front).length) (hj : (contents front).length < j) :
    ¬InOneText (front ++ back) i j := by
  rintro ⟨before, s, after, hevents, hbefore, hbehind⟩
  rcases List.append_eq_append_iff.1 hevents with ⟨between, rfl, -⟩ | ⟨between, rfl, hback⟩
  · rw [contents_append, List.length_append] at hbefore
    omega
  · cases between with
    | nil =>
        rw [List.append_nil] at hi
        omega
    | cons event between =>
        obtain ⟨rfl, -⟩ := List.cons.inj hback
        have hcontents : contents (before ++ .text s :: between) =
            contents before ++ (s.toList ++ contents between) := contents_append _ _
        rw [hcontents, List.length_append, List.length_append] at hj
        omega

/-- A text that has begun is reported whole, with what joins it. -/
theorem exists_text_eventsFrom (hbody : ∀ token ∈ body, token.IsInner) (h : text ≠ "") :
    ∃ s after, eventsFrom text (body ++ [.eof]) = .text s :: after ∧ text.toList <+: s.toList := by
  induction body generalizing text with
  | nil =>
      rw [List.nil_append, eventsFrom_eof, textEvent_of_ne_empty h]
      exact ⟨text, [], rfl, List.prefix_rfl⟩
  | cons token body ih =>
      obtain ⟨htoken, hrest⟩ := List.forall_mem_cons.1 hbody
      rw [List.cons_append]
      cases hseparates : token.separates with
      | true =>
          rw [eventsFrom_separator hseparates, textEvent_of_ne_empty h]
          exact ⟨text, _, rfl, List.prefix_rfl⟩
      | false =>
          rw [eventsFrom_joining htoken hseparates]
          have hne : text ++ String.ofList token.run ≠ "" := by
            intro hempty
            exact h (String.append_eq_empty_iff.1 hempty).1
          obtain ⟨s, after, hevents, hprefix⟩ := ih hrest hne
          refine ⟨s, after, hevents, List.IsPrefix.trans ?_ hprefix⟩
          rw [String.toList_append]
          exact List.prefix_append _ _

theorem eventsFrom_append_of_joining (hinner : ∀ token ∈ between, token.IsInner)
    (h : ∀ token ∈ between, token.separates = false) (text : String) (tokens : List Token) :
    eventsFrom text (between ++ tokens) =
      eventsFrom (text ++ String.ofList (runs between)) tokens := by
  induction between generalizing text with
  | nil => simp [runs]
  | cons token between ih =>
      obtain ⟨htoken, hrest⟩ := List.forall_mem_cons.1 hinner
      obtain ⟨hjoins, hothers⟩ := List.forall_mem_cons.1 h
      have hruns : runs (token :: between) = token.run ++ runs between := rfl
      rw [List.cons_append, eventsFrom_joining htoken hjoins, ih hrest hothers, hruns,
        String.ofList_append, String.append_assoc]

/-- Runs that nothing separates are in one text. -/
theorem inOneText_eventsFrom (hbefore : ∀ token ∈ before, token.IsInner)
    (hbetween : ∀ token ∈ between, token.IsInner) (hafter : ∀ token ∈ after, token.IsInner)
    (hjoins : ∀ token ∈ between, token.separates = false) (hne : runs between ≠ []) (text : String) :
    InOneText (eventsFrom text (before ++ (between ++ (after ++ [.eof]))))
      (text.toList.length + (runs before).length)
      (text.toList.length + (runs before).length + (runs between).length) := by
  induction before generalizing text with
  | nil =>
      have hpending : text ++ String.ofList (runs between) ≠ "" := by
        intro hempty
        apply hne
        simpa using (String.append_eq_empty_iff.1 hempty).2
      obtain ⟨s, rest, hevents, hprefix⟩ := exists_text_eventsFrom hafter hpending
      rw [List.nil_append, eventsFrom_append_of_joining hbetween hjoins, hevents]
      refine ⟨[], s, rest, rfl, Nat.zero_le _, ?_⟩
      have hlength := hprefix.length_le
      rw [String.toList_append, String.toList_ofList, List.length_append] at hlength
      simpa [contents, runs] using hlength
  | cons token before ih =>
      obtain ⟨htoken, hrest⟩ := List.forall_mem_cons.1 hbefore
      have hruns : (runs (token :: before)).length = token.run.length + (runs before).length :=
        List.length_append
      rw [List.cons_append, hruns]
      cases hseparates : token.separates with
      | true =>
          have hfront : (contents (textEvent text ++ token.tag?.toList)).length =
              text.toList.length := by
            rw [contents_append, contents_textEvent, contents_tag, List.append_nil]
          have hshifted := (ih hrest "").append (textEvent text ++ token.tag?.toList)
          rw [hfront] at hshifted
          rw [eventsFrom_separator hseparates, run_of_separates hseparates]
          simpa [Nat.add_assoc] using hshifted
      | false =>
          have hlater := ih hrest (text ++ String.ofList token.run)
          rw [eventsFrom_joining htoken hseparates]
          simpa [Nat.add_assoc] using hlater

/-- What separates texts ends those before it as the end of the document does. -/
theorem eventsFrom_append_separator (hbefore : ∀ token ∈ before, token.IsInner)
    (h : token.separates) (text : String) (tokens : List Token) :
    eventsFrom text (before ++ token :: tokens) =
      eventsFrom text (before ++ [.eof]) ++ token.tag?.toList ++ eventsFrom "" tokens := by
  induction before generalizing text with
  | nil => rw [List.nil_append, List.nil_append, eventsFrom_separator h, eventsFrom_eof]
  | cons other before ih =>
      obtain ⟨hother, hrest⟩ := List.forall_mem_cons.1 hbefore
      rw [List.cons_append, List.cons_append]
      cases hseparates : other.separates with
      | true =>
          rw [eventsFrom_separator hseparates, eventsFrom_separator hseparates, ih hrest]
          simp only [List.append_assoc]
      | false =>
          rw [eventsFrom_joining hother hseparates, eventsFrom_joining hother hseparates, ih hrest]

/-- Runs that something separates are in different texts. -/
theorem not_inOneText_of_separates (hbefore : ∀ token ∈ before, token.IsInner)
    (h : token.separates) (tokens : List Token) (hi : i < (runs before).length)
    (hj : (runs before).length < j) : ¬InOneText (events (before ++ token :: tokens)) i j := by
  have hfront : (contents (eventsFrom "" (before ++ [.eof]) ++ token.tag?.toList)).length =
      (runs before).length := by
    rw [contents_append, contents_tag, List.append_nil, contents_eventsFrom hbefore]
    rfl
  rw [events, eventsFrom_append_separator hbefore h]
  exact not_inOneText_append (by omega) (by omega)

/-- What becomes of tokens up to the end of a document: the tags stay as they are, the characters
of the runs are those of the texts, no text is empty, every run is in one text, and two runs are
in the same text exactly if no tag, comment or document type stands between them. -/
theorem events_append_eof (hbody : ∀ token ∈ body, token.IsInner) :
    let found := events (body ++ [.eof])
    found.filter Event.isTag = body.filterMap Token.tag? ∧
    contents found = runs body ∧
    (∀ s, .text s ∈ found → s ≠ "") ∧
    (∀ before s after, body = before ++ .chars s :: after →
      InOneText found (runs before).length (runs (before ++ [.chars s])).length) ∧
    ∀ before s between t after,
      body = before ++ .chars s :: (between ++ .chars t :: after) →
        (InOneText found (runs before).length
            (runs (before ++ .chars s :: (between ++ [.chars t]))).length ↔
          ∀ token ∈ between, token.separates = false) := by
  have htogether : ∀ before between after, body = before ++ (between ++ after) →
      (∀ token ∈ between, token.separates = false) → runs between ≠ [] →
        InOneText (events (body ++ [.eof])) (runs before).length
          (runs (before ++ between)).length := by
    rintro before between after rfl hjoins hne
    simp only [List.forall_mem_append] at hbody
    have hevents := inOneText_eventsFrom hbody.1 hbody.2.1 hbody.2.2 hjoins hne ""
    rw [runs_append, List.length_append, events, List.append_assoc, List.append_assoc]
    simpa using hevents
  have hrun : ∀ s, .chars s ∈ body → s ≠ [] := by
    rintro s hs rfl
    exact (hbody _ hs).ne_empty rfl
  refine ⟨filter_isTag_eventsFrom hbody "", contents_eventsFrom hbody "",
    fun s => ne_empty_of_mem_eventsFrom hbody "", ?_, ?_⟩
  · intro before s after hsplit
    apply htogether before [.chars s] after hsplit
    · simp [Token.separates]
    · have hs : s ≠ [] := hrun s (by simp [hsplit])
      simpa [runs, Token.run] using hs
  · intro before s between t after hsplit
    have hs : s ≠ [] := hrun s (by simp [hsplit])
    have ht : t ≠ [] := hrun t (by simp [hsplit])
    constructor
    · intro hone token htoken
      refine Bool.eq_false_iff.2 fun hseparates => ?_
      obtain ⟨front, back, rfl⟩ := List.append_of_mem htoken
      have htokens : body = (before ++ .chars s :: front) ++ token :: (back ++ .chars t :: after) := by
        rw [hsplit, List.append_assoc, List.append_assoc]
        rfl
      have hfront : ∀ token ∈ before ++ .chars s :: front, token.IsInner := by
        intro token hmem
        apply hbody
        rw [htokens]
        exact List.mem_append_left _ hmem
      rw [htokens, List.append_assoc] at hone
      refine not_inOneText_of_separates hfront hseparates _ ?_ ?_ hone
      · have hpos := List.length_pos_iff.2 hs
        simp only [runs_append, runs_chars_cons, List.length_append]
        omega
      · have hpos := List.length_pos_iff.2 ht
        have hbehind : runs (token :: back) = token.run ++ runs back := rfl
        simp only [runs_append, runs_chars_cons, hbehind, List.length_append]
        omega
    · intro hjoins
      apply htogether before (.chars s :: (between ++ [Token.chars t])) after
      · simp [hsplit]
      · intro token hmem
        rw [List.mem_cons, List.mem_append, List.mem_singleton] at hmem
        rcases hmem with rfl | hmem | rfl
        · rfl
        · exact hjoins token hmem
        · rfl
      · simp [runs_chars_cons, hs]

/-- A comment inside of a text cuts it in two, a NUL or a fault does not. -/
theorem events_append_eof_comment :
    let body : List Token := [.chars "a".toList, .null, .fault, .chars "b".toList, .comment,
      .chars "c".toList, .startTag "br" true, .doctype]
    (∀ token ∈ body, token.IsInner) ∧
      events (body ++ [.eof]) = [.text "ab", .text "c", .start "br"] ∧
      InOneText (events (body ++ [.eof])) 0 2 ∧ ¬InOneText (events (body ++ [.eof])) 0 3 := by
  intro body
  have hbody : ∀ token ∈ body, token.IsInner := by decide
  obtain ⟨-, -, -, -, hpairs⟩ := events_append_eof hbody
  refine ⟨hbody, by decide, ?_, ?_⟩
  · exact (hpairs [] _ [.null, .fault] _ _ rfl).2 (by decide)
  · intro hone
    have hcomment := (hpairs [] _ [.null, .fault, .chars "b".toList, .comment] _ _ rfl).1 hone
    exact absurd (hcomment .comment (by decide)) (by decide)

end Markup
end DocClaims
