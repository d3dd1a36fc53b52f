import DocSchema.Text.Search

/-!
# Paths of fields

The canonical path of a field is the keys that lead to it, joined by dots, with an array marker
after each key that holds an array. Its logical path has no array markers.
-/

namespace DocSchema.Path

/-- The mark of an array in a canonical path. -/
def arrayMarker : String := "[]"

/-- The path of a key inside an object; the top level has the empty path. -/
def child (path key : String) : String :=
  if path = "" then key else path ++ "." ++ key

/-- The path of the elements of an array. -/
def elements (path : String) : String :=
  path ++ arrayMarker

/-- A path without its array markers (`logical_path`). -/
def logical (path : String) : String :=
  Text.replace arrayMarker "" path

/-- The last key of a logical path. -/
def lastKey (path : String) : String :=
  String.ofList (Text.afterLast '.' path.toList)

end DocSchema.Path
