import DocClaims.ClaimSet
import DocClaims.Files.Tree
import DocClaims.Rule
import DocClaims.Scanner

/-!
# Extraction

The claims of a document are those that some rule finds in some text unit.
-/

namespace DocClaims

/-- The claims of a document, named `source` and read at the time `extractedAt`. -/
def extract (scanner : Scanner) (markup source extractedAt : String) : ClaimSet :=
  (scanner.scan markup).foldl (fun set unit => set.insertAll (classify unit))
    (.empty source extractedAt)

structure ReadFailure where
  path : Text.Bytes
  error : FileError
  deriving DecidableEq, Repr

def ReadFailure.message (f : ReadFailure) : String :=
  "reading " ++ Text.lossy f.path ++ ": " ++ f.error.message

/-- The claims of a file, whose path is the name of the document. -/
def extractFile (files : FileTree) (scanner : Scanner) (path : Text.Bytes)
    (extractedAt : String) : Except ReadFailure ClaimSet := do
  let bytes ← (files.read path).mapError (ReadFailure.mk path)
  return extract scanner (Text.lossy bytes) (Text.lossy path) extractedAt

end DocClaims
