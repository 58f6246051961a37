import DocClaims.Path

/-!
# Default output paths

Without a path of its own, an output file stands beside the input and is named
after it.
-/

namespace DocClaims

/-- The path beside `input` whose name is the stem of the input's name, as it is shown, with a
suffix and an extension. -/
def defaultOutput (input : Text.Bytes) (suffix extension : String) : Text.Bytes :=
  let stem := ((Path.fileName? input).map fun name => Text.lossy (Path.stem name)).getD "claims"
  Path.join ((Path.parent? input).getD []) (Text.encode (stem ++ suffix ++ "." ++ extension))

end DocClaims
