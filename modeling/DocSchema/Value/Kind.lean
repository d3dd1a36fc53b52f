/-!
# Kinds of values

The nine kinds of node of a value tree.

- `ofTag?_tag`: a kind is found by its tag.
-/

namespace DocSchema

/-- The kind of a node of a value tree. -/
inductive ValueKind
  | null
  | bool
  | int
  | float
  | string
  | identifier
  | sequence
  | map
  | binary
  deriving DecidableEq, Repr

namespace ValueKind

/-- All kinds. -/
def all : List ValueKind :=
  [.null, .bool, .int, .float, .string, .identifier, .sequence, .map, .binary]

/-- The name of a kind. -/
def tag : ValueKind → String
  | .null => "null"
  | .bool => "bool"
  | .int => "int"
  | .float => "float"
  | .string => "string"
  | .identifier => "identifier"
  | .sequence => "sequence"
  | .map => "map"
  | .binary => "binary"

/-- The kind with a name. -/
def ofTag? (s : String) : Option ValueKind :=
  all.find? (·.tag == s)

theorem ofTag?_tag (k : ValueKind) : ofTag? k.tag = some k := by
  cases k <;> rfl

end ValueKind

end DocSchema
