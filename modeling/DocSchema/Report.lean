import DocSchema.Sampling.Metrics
import DocSchema.Schema.Accumulator
import DocSchema.Schema.Output

/-!
# Reports

What an introspection hands over: the schema of a collection, those of its nested types, the metrics
of the run, and what may call for attention.
-/

namespace DocSchema

/-- The result of an introspection. -/
structure Report where
  collection : String
  entity : EntitySchema
  nested : List EntitySchema := []
  metrics : RunMetrics
  times : RunTimes
  warnings : List String := []
  collisions : List Collision := []

namespace Report

/-- The top-level schema, and then those of the nested types. -/
def entities (r : Report) : List EntitySchema :=
  r.entity :: r.nested

/-- The first schema with a name (`get_entity`). -/
def getEntity? (r : Report) (name : String) : Option EntitySchema :=
  r.entities.find? (·.name == name)

end Report

/-- The metrics of a run as JSON, with its times (`to_summary_dict`). -/
def RunMetrics.toJson (m : RunMetrics) (t : RunTimes) : JsonValue :=
  .object ([("_type", .string "run_summary"), ("collection", .string m.collection),
    ("started_at", .string t.started.text), ("total_count", .int m.totalCount),
    ("batch_count", .int m.batchCount), ("total_sampled", .int m.totalSampled),
    ("documents_skipped", .int m.documentsSkipped),
    ("unique_field_paths", .int m.uniqueFieldPaths),
    ("stop_reason", .ofText? (m.stopReason?.map StopReason.tag)),
    ("converged", .bool m.converged)] ++
    match t.completed? with
    | some stop =>
      [("completed_at", .string stop.text), ("duration_ms", .int t.durationMillis)]
    | none => [])

/-- A collision as JSON. -/
def Collision.toJson (c : Collision) : JsonValue :=
  .object [("type_name", .string c.typeName), ("first_path", .string c.firstPath),
    ("colliding_path", .string c.collidingPath)]

/-- A report as JSON (`to_output_dict`); warnings and collisions are left out when there are none. -/
def Report.toJson (r : Report) : JsonValue :=
  .object ([("_collection", .string r.collection), ("_metrics", r.metrics.toJson r.times),
    ("entities", .array (r.entities.map EntitySchema.toJson))] ++
    (if r.warnings.isEmpty then [] else [("_warnings", .array (r.warnings.map .string))]) ++
    (if r.collisions.isEmpty then []
      else [("_collisions", .array (r.collisions.map Collision.toJson))]))

end DocSchema
