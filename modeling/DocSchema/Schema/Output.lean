import DocSchema.JsonValue.Basic
import DocSchema.Schema.Definition

/-!
# Schemas as JSON
-/

namespace DocSchema

/-- A field of a schema as JSON. -/
def FieldDefinition.toJson (f : FieldDefinition) : JsonValue :=
  .object [("name", .string f.name), ("type", .string f.type.tag), ("is_array", .bool f.isArray),
    ("is_nullable", .bool f.isNullable), ("nested_type", .ofText? f.nestedType?),
    ("occurrences", .int f.occurrences)]

/-- A schema as JSON (`to_dict`). -/
def EntitySchema.toJson (e : EntitySchema) : JsonValue :=
  .object [("name", .string e.name), ("fields", .array (e.fields.map FieldDefinition.toJson)),
    ("description", .ofText? e.description?), ("is_nested", .bool e.isNested),
    ("source_path", .ofText? e.sourcePath?)]

end DocSchema
