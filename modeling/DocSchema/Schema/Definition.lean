import DocSchema.SemanticType

/-!
# Schemas

A schema names the fields of a type and says of each its semantic type, whether it holds arrays, and
whether it may be missing.

- `getField_of_mem`: a field that is there is found by its name.
-/

namespace DocSchema

/-- One field of a schema. -/
structure FieldDefinition where
  name : String
  type : SemanticType
  isArray : Bool := false
  isNullable : Bool := true
  nestedType? : Option String := none
  occurrences : Int := 0
  deriving DecidableEq, Repr

/-- A named list of fields. -/
structure EntitySchema where
  name : String
  fields : List FieldDefinition := []
  description? : Option String := none
  isNested : Bool := false
  sourcePath? : Option String := none
  deriving DecidableEq, Repr

namespace EntitySchema

/-- The first field with a name. -/
def getField? (e : EntitySchema) (name : String) : Option FieldDefinition :=
  e.fields.find? (·.name == name)

/-- The names of the fields. -/
def fieldNames (e : EntitySchema) : List String :=
  e.fields.map FieldDefinition.name

theorem getField_of_mem {e : EntitySchema} {name : String} (h : name ∈ e.fieldNames) :
    ∃ f, e.getField? name = some f ∧ f.name = name := by
  simp only [fieldNames, List.mem_map] at h
  obtain ⟨f, hf, rfl⟩ := h
  cases hg : e.getField? f.name with
  | none =>
    rw [getField?, List.find?_eq_none] at hg
    simp at hg
    exact absurd rfl (hg f hf)
  | some g => exact ⟨g, rfl, by simpa using List.find?_some hg⟩

end EntitySchema

/-- The schema of a collection without documents: its identifier (`minimal_schema`). -/
def minimalSchema (collection typeName identifierField : String) : EntitySchema where
  name := typeName
  fields := [{ name := identifierField, type := .identifier, isNullable := false }]
  description? := some ("Collection: " ++ collection ++ " (empty, minimal schema)")

end DocSchema
