import DocClaims.Markup.Token

/-!
# Markup events

The tokens of a document as a flat stream of tags and texts. Neighbouring
character runs are one text, even across NUL characters and faults, while tags,
comments and document types separate texts.
-/

namespace DocClaims
namespace Markup

inductive Event
  | start (name : String)
  | finish (name : String)
  | text (s : String)
  deriving DecidableEq, Repr

/-- The event for a text, unless it is empty. -/
def textEvent (text : String) : List Event := if text.isEmpty then [] else [.text text]

/-- The events from a token on, when `text` is still to be reported. -/
def eventsFrom (text : String) : List Token → List Event
  | [] => []
  | .chars s :: rest => eventsFrom (text ++ String.ofList s) rest
  | .startTag name _ :: rest => textEvent text ++ .start name :: eventsFrom "" rest
  | .endTag name :: rest => textEvent text ++ .finish name :: eventsFrom "" rest
  | .comment :: rest => textEvent text ++ eventsFrom "" rest
  | .doctype :: rest => textEvent text ++ eventsFrom "" rest
  | .null :: rest => eventsFrom text rest
  | .fault :: rest => eventsFrom text rest
  | .eof :: rest => textEvent text ++ eventsFrom "" rest

def events (tokens : List Token) : List Event := eventsFrom "" tokens

end Markup

def tokenize (markup : String) : List Markup.Event := Markup.events (Markup.tokens markup)

end DocClaims
