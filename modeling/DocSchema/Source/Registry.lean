import DocSchema.Raw.Equality
import DocSchema.Raw.Show
import DocSchema.Source.Fault
import DocSchema.Table

/-!
# Types of sources

Sources are made by the names of their types, which are registered beforehand.

- `get_register`: a type is found under the name it was registered with.
-/

namespace DocSchema

/-- The types of sources. -/
inductive SourceType
  | memory
  | directory
  | database
  deriving DecidableEq, Repr

/-- Types of sources by their names. -/
abbrev Registry := Table SourceType

namespace Registry

/-- Registers a type of sources under a name (`register`). -/
def register (r : Registry) (name : String) (type : SourceType) : Registry :=
  r.insert name type

/-- The names of the types that are registered, in order. -/
def types (r : Registry) : List String :=
  r.sortedKeys

/-- The type of sources that is registered under a name (`get`). -/
def get (r : Registry) (name : Raw) : Except SourceFault SourceType :=
  if name.isKey then
    match name with
    | .text s =>
      match r.get? s with
      | some type => .ok type
      | none => .error (.unknownType s r.types)
    | name => .error (.unknownType name.plainText r.types)
  else .error (.misuse name.keyMisuse)

/-- The types that are always registered. -/
def standard : Registry :=
  Table.ofList [("local", .directory), ("memory", .memory), ("mongodb", .database)]

theorem get_register (r : Registry) (name : String) (type : SourceType) :
    (r.register name type).get (.text name) = .ok type := by
  simp [get, register, Raw.isKey, Table.get?_insert]

end Registry

end DocSchema
