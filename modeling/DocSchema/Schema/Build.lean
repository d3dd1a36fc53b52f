import DocSchema.Number.Integer
import DocSchema.Path
import DocSchema.Schema.Accumulator
import DocSchema.Schema.Definition

/-!
# Schemas of what was seen

The schema of the top-level type and those of the nested types, with the identifier first and the
other fields by name.

- `fieldOrder_perm`: every field has its place, whatever the identifier is.
-/

namespace DocSchema.Schema

open Number (natText)

/-- Puts a name first, if it is there. -/
def identifierFirst (identifier? : Option String) (names : List String) : List String :=
  match identifier? with
  | some identifier =>
    if identifier ∈ names then identifier :: names.erase identifier else names
  | none => names

/-- The names of the fields of a type: the identifier, and then by name (`_field_order`). -/
def fieldOrder (identifier? : Option String) (c : TypeContext) : List String :=
  identifierFirst identifier? c.fields.sortedKeys

/-- The type of a field and the name of its nested type. A nested type needs an object with fields;
without one the field is opaque. -/
def typeOf (a : Accumulator) (s : FieldStats) : SemanticType × Option String :=
  let type := s.resolvedType?.getD .untyped
  if type = .nested then
    match s.nestedType?.bind a.nested.get? with
    | some target => if target.populated then (.nested, s.nestedType?) else (.untyped, none)
    | none => (.untyped, none)
  else (type, none)

/-- The definition of a field, of which a number of objects has been seen. -/
def fieldDefinition (a : Accumulator) (observations : Nat) (name : String) (s : FieldStats) :
    FieldDefinition where
  name
  type := (typeOf a s).1
  isArray := s.isArray
  isNullable := decide (s.nonNull < observations) || s.hasArrayConflict
  nestedType? := (typeOf a s).2
  occurrences := s.present

/-- The definitions of the fields of a type (`_build_fields`). -/
def fieldDefinitions (identifier? : Option String) (a : Accumulator) (owner : Owner)
    (c : TypeContext) : List FieldDefinition :=
  (fieldOrder identifier? c).filterMap fun name =>
    (c.fields.get? name).map (fieldDefinition a (a.observationsOf owner) name)

/-- The schema of the top-level type (`build_schemas`). -/
def entity (identifier? : Option String) (a : Accumulator) : EntitySchema where
  name := a.root.name
  fields := fieldDefinitions identifier? a .root a.root
  description? := some ("Collection: " ++ a.collection ++ " (sampled " ++
    natText a.documentsMerged ++ " documents, " ++ natText a.root.fields.size ++ " fields)")

/-- The schema of a nested type. -/
def nestedEntity (identifier? : Option String) (a : Accumulator) (c : TypeContext) :
    EntitySchema where
  name := c.name
  fields := fieldDefinitions identifier? a (.nested c.name) c
  description? := some ("Nested type from " ++ c.parent?.getD "None" ++ "." ++ Path.lastKey c.path)
  isNested := true
  sourcePath? := some c.path

/-- The schemas of the nested types that had an object with fields, by name (`build_schemas`). -/
def nestedEntities (identifier? : Option String) (a : Accumulator) : List EntitySchema :=
  a.populatedNested.map (nestedEntity identifier? a)

theorem identifierFirst_perm (identifier? : Option String) (names : List String) :
    (identifierFirst identifier? names).Perm names := by
  cases identifier? with
  | none => exact .refl _
  | some identifier =>
    rw [identifierFirst]
    split
    · rename_i h
      exact (List.perm_cons_erase h).symm
    · exact .refl _

theorem fieldOrder_perm (identifier? : Option String) (c : TypeContext) :
    (fieldOrder identifier? c).Perm c.fields.keys :=
  (identifierFirst_perm _ _).trans c.fields.sortedKeys_perm

end DocSchema.Schema
