import DocClaims.Data.Shape

/-!
# Hits

A hit is a line of a file that holds the text searched for. The file is named
relative to the directory searched; lines count from one.
-/

namespace DocClaims

structure Hit where
  file : String
  line : Nat
  deriving DecidableEq, Repr

namespace Hit

def display (hit : Hit) : String := hit.file ++ ":" ++ toString hit.line

def toDatum (hit : Hit) : Datum := .table [("file", .text hit.file), ("line", .count hit.line)]

def shape : Shape :=
  .record "SearchHit" (.field "file" .text none (.field "line" (.count "usize") none .none))

def ofDatum? (d : Datum) : Option Hit := do
  some ⟨← (← d.get? "file").toText?, ← (← d.get? "line").toCount?⟩

end Hit
end DocClaims
