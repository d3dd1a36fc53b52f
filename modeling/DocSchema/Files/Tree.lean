import DocSchema.Files.Path

/-!
# File trees

The files and directories below a root, each by the names that lead to it, and the working directory,
where paths start that do not start at the root.

- `lookup_setNode_self`, `lookup_setNode_other`: what is put at a place is seen there and nowhere else.
-/

namespace DocSchema

/-- What is at a place of a file tree. -/
inductive FileNode
  | file (bytes : List UInt8)
  | directory
  deriving DecidableEq, Repr

/-- Files and directories by the names that lead to them from the root. A place that leads to
another is a directory, and so is the working directory. -/
structure FileTree where
  working : List String := []
  nodes : List (List String × FileNode) := []
  deriving Repr

namespace FileTree

/-- What is at the end of some names. -/
def at? (t : FileTree) (names : List String) : Option FileNode :=
  if names.isPrefixOf t.working then some .directory
  else
    match t.nodes.lookup names with
    | some node => some node
    | none =>
      if t.nodes.any fun (place, _) => names.isPrefixOf place && names.length < place.length then
        some .directory
      else none

/-- One step of a path, which only a directory allows. -/
def step? (t : FileTree) (place : List String) (name : String) : Option (List String) :=
  match t.at? place with
  | some .directory =>
    if name = "" ∨ name = "." then some place
    else if name = ".." then some place.dropLast
    else some (place ++ [name])
  | _ => none

/-- The place that some names lead to from another. -/
def walk? (t : FileTree) (place : List String) : List String → Option (List String)
  | [] => some place
  | name :: names => (t.step? place name).bind fun next => t.walk? next names

/-- Where a path starts, and the names in its text. -/
def route (t : FileTree) (path : String) : List String × List String :=
  match (Text.splitOn '/' path.toList).map String.ofList with
  | "" :: names => ([], names)
  | names => (t.working, names)

/-- The place that the text of a path leads to, whether or not something is there. -/
def place? (t : FileTree) (path : String) : Option (List String) :=
  if path = "" then none else t.walk? (t.route path).1 (t.route path).2

/-- What the text of a path leads to. -/
def node? (t : FileTree) (path : String) : Option FileNode :=
  (t.place? path).bind t.at?

/-- The content of a file. -/
def read? (t : FileTree) (path : String) : Option (List UInt8) :=
  match t.node? path with
  | some (.file bytes) => some bytes
  | _ => none

/-- Whether something is at a path. -/
def exists? (t : FileTree) (path : String) : Bool :=
  (t.node? path).isSome

/-- Whether a directory is at a path. -/
def isDirectory (t : FileTree) (path : String) : Bool :=
  t.node? path == some .directory

/-- The names of the files in a directory. -/
def filesIn (t : FileTree) (path : String) : List String :=
  match t.place? path with
  | some names =>
    t.nodes.filterMap fun (place, node) =>
      match node with
      | .file _ => if place.dropLast = names ∧ place ≠ [] then place.getLast? else none
      | .directory => none
  | none => []

/-- Nodes with one at the end of some names. -/
def setNode (names : List String) (node : FileNode) :
    List (List String × FileNode) → List (List String × FileNode)
  | [] => [(names, node)]
  | (place, held) :: nodes =>
    if names = place then (place, node) :: nodes else (place, held) :: setNode names node nodes

/-- The tree with something put at the end of some names. -/
def put (t : FileTree) (names : List String) (node : FileNode) : FileTree :=
  { t with nodes := setNode names node t.nodes }

/-- The tree of a working directory that holds some files and directories, each by its path. -/
def ofPaths (working : List String) (entries : List (String × FileNode)) : FileTree :=
  entries.foldl (fun t (path, node) => t.put (working ++ FilePath.namesOf path.toList) node)
    { working }

/-- Writes a file into a directory that is there, where no directory is in its place. -/
def write? (t : FileTree) (path : String) (bytes : List UInt8) : Option FileTree :=
  (t.place? path).bind fun place =>
    if t.at? place = some .directory then none else some (t.put place (.file bytes))

/-- Makes the directories that some names lead through from a place, of which the last must not be
there. The second part tells whether it has been made; those before it stay in any case. -/
def makeDirectories (t : FileTree) (place : List String) : List String → FileTree × Bool
  | [] => (t, true)
  | name :: names =>
    match t.step? place name with
    | none => (t, false)
    | some next =>
      if (t.at? next).isSome then
        if names = [] ∧ name ≠ "." then (t, false) else t.makeDirectories next names
      else (t.put next .directory).makeDirectories next names

/-- Writes a file, in a directory that is made where it is missing. The second part tells whether it
has been written. -/
def writeWithDirectories (t : FileTree) (path : String) (bytes : List UInt8) : FileTree × Bool :=
  let (start, names) := t.route path
  let (made, ready) :=
    if ((t.walk? start names.dropLast).bind t.at?).isSome then (t, true)
    else t.makeDirectories start names.dropLast
  match if ready then made.write? path bytes else none with
  | some after => (after, true)
  | none => (made, false)

theorem lookup_setNode_self (names : List String) (node : FileNode)
    (nodes : List (List String × FileNode)) :
    (setNode names node nodes).lookup names = some node := by
  induction nodes with
  | nil => simp [setNode]
  | cons entry nodes ih =>
    obtain ⟨place, held⟩ := entry
    rw [setNode]
    split
    · rename_i h
      simp [h]
    · rename_i h
      simp [List.lookup_cons, beq_eq_false_iff_ne.2 h, ih]

theorem lookup_setNode_other {names other : List String} (h : other ≠ names) (node : FileNode)
    (nodes : List (List String × FileNode)) :
    (setNode names node nodes).lookup other = nodes.lookup other := by
  induction nodes with
  | nil => simp [setNode, List.lookup_cons, beq_eq_false_iff_ne.2 h]
  | cons entry nodes ih =>
    obtain ⟨place, held⟩ := entry
    rw [setNode]
    split
    · rename_i hp
      subst hp
      simp [List.lookup_cons, beq_eq_false_iff_ne.2 h]
    · simp only [List.lookup_cons, ih]

end FileTree

end DocSchema
