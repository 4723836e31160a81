/-!
Paths of files.
-/

set_option autoImplicit false

namespace LoopCapture

/-- A path: the slashes at its start, if any, and the names after that. -/
structure Path where
  root : String
  names : List String
  deriving DecidableEq, Repr

namespace Path

/-- The root of a path. Two slashes at the start are kept apart from one, more count as one. -/
def rootOf (text : String) : String :=
  match text.toList with
  | '/' :: '/' :: '/' :: _ => "/"
  | '/' :: '/' :: _ => "//"
  | '/' :: _ => "/"
  | _ => ""

/-- The path with the given spelling. Empty names and single dots mean nothing. -/
def ofText (text : String) : Path :=
  ⟨rootOf text, (text.splitOn "/").filter fun name => name != "" && name != "."⟩

def text (path : Path) : String :=
  let spelling := path.root ++ "/".intercalate path.names
  if spelling.isEmpty then "." else spelling

end Path

end LoopCapture
