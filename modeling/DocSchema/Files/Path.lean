import DocSchema.Text.Search

/-!
# Paths of files

A path is a sequence of names below a root, which is empty for a path that starts at the working
directory. Empty names and single dots are left out.
-/

namespace DocSchema

/-- A path of a file or directory. -/
structure FilePath where
  root : String := ""
  names : List String := []
  deriving DecidableEq, Repr

namespace FilePath

/-- The names in a text between slashes. -/
def namesOf (text : List Char) : List String :=
  ((Text.splitOn '/' text).map String.ofList).filter fun name => name != "" && name != "."

/-- The root of a path; exactly two slashes differ from one. -/
def rootOf : List Char → String
  | ['/', '/'] => "//"
  | '/' :: '/' :: c :: _ => if c = '/' then "/" else "//"
  | '/' :: _ => "/"
  | _ => ""

/-- The path that a text spells. -/
def ofText (s : String) : FilePath where
  root := rootOf s.toList
  names := namesOf s.toList

/-- The text of a path; that of the empty path is a dot. -/
def text (p : FilePath) : String :=
  let names := "/".intercalate p.names
  if p.root = "" ∧ names = "" then "." else p.root ++ names

/-- The path that another path leads to from one. -/
def append (p q : FilePath) : FilePath :=
  if q.root = "" then { p with names := p.names ++ q.names } else q

instance : Append FilePath := ⟨append⟩

/-- The last name of a path. -/
def name (p : FilePath) : String :=
  p.names.getLast?.getD ""

/-- A name without its last part from a dot on; a dot at the start or the end begins no part. -/
def stem (name : String) : String :=
  let cs := name.toList
  let ending := Text.afterLast '.' cs
  let start := cs.length - (ending.length + 1)
  if ending.length < cs.length ∧ 0 < start ∧ ending ≠ [] then String.ofList (cs.take start)
  else name

/-- The texts of the paths that lead to a path, and its own. -/
def leading (path : String) : List String :=
  let names := (Text.splitOn '/' path.toList).map String.ofList
  let texts := (List.range names.length).map fun i => "/".intercalate (names.take (i + 1))
  texts.filter fun text => text != ""

end FilePath

end DocSchema
