import DocClaims.Markup.Event
import DocClaims.Text.Blank
import DocClaims.Text.LetterCase
import DocClaims.Text.Lines

/-!
# Text units

A document is classified unit by unit. The text of a verbatim container is
collected until the container closes, so that a name broken up by inner markup
stays whole; outside, each text is a unit of its own, unless it holds the marker
of qualified names and joins the collected text. Blank units are dropped.
-/

namespace DocClaims

structure Scanner where
  verbatimTags : List String
  marker : String
  deriving DecidableEq, Repr

namespace Scanner

def defaultVerbatimTags : List String := ["code", "pre"]

/-- Tag names are compared without regard to ASCII letter case. -/
def ofTags (tags : List String) (marker : String) : Scanner := ⟨tags.map Text.lowerAscii, marker⟩

def isVerbatim (scanner : Scanner) (name : String) : Bool := scanner.verbatimTags.contains name

def emit (unit : String) : List String := if Text.allBlank unit then [] else [unit]

/-- The units from an event on, when `buffer` has been collected. -/
def unitsFrom (scanner : Scanner) (verbatim : Bool) (buffer : String) :
    List Markup.Event → List String
  | [] => emit buffer
  | .start name :: rest =>
      unitsFrom scanner (verbatim || scanner.isVerbatim name) buffer rest
  | .finish name :: rest =>
      if scanner.isVerbatim name then emit buffer ++ unitsFrom scanner false "" rest
      else unitsFrom scanner verbatim buffer rest
  | .text s :: rest =>
      if verbatim || Text.contains s scanner.marker then
        unitsFrom scanner verbatim (buffer ++ s) rest
      else emit buffer ++ emit s ++ unitsFrom scanner verbatim "" rest

def units (scanner : Scanner) (events : List Markup.Event) : List String :=
  unitsFrom scanner false "" events

def scan (scanner : Scanner) (markup : String) : List String := scanner.units (tokenize markup)

end Scanner
end DocClaims
