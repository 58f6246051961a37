/-!
# Splitting sequences

A sequence splits into the pieces between separators; there is one piece more
than there are separators.
-/

namespace DocClaims
namespace Text

variable {α : Type}

/-- The pieces of what follows, when `piece` (in reverse) has been read of the
first of them. -/
def splitFrom [BEq α] (separator : α) (piece : List α) : List α → List (List α)
  | [] => [piece.reverse]
  | a :: rest =>
      if a == separator then piece.reverse :: splitFrom separator [] rest
      else splitFrom separator (a :: piece) rest

def split [BEq α] (separator : α) (l : List α) : List (List α) := splitFrom separator [] l

end Text
end DocClaims
