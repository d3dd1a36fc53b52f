import DocSchema.Number.Integer
import DocSchema.Sampling.Metrics
import DocSchema.Schema.Accumulator

/-!
# Notices of a run

What a run reports while it goes on, each with its importance.
-/

namespace DocSchema

open Number (natText grouped)

/-- The importance of a notice. -/
inductive Level
  | debug
  | info
  | warning
  | error
  deriving DecidableEq, Repr

/-- The name of a level. -/
def Level.name : Level → String
  | .debug => "DEBUG"
  | .info => "INFO"
  | .warning => "WARNING"
  | .error => "ERROR"

/-- What a run reports about a collection. -/
inductive Notice
  | started (total : Nat)
  | cut (depth : Nat) (path : String)
  | collision (c : Collision)
  | skipped (index batch : Nat) (message : String)
  | batchMerged (batch documents newPaths stable wanted : Nat)
  | unstable (reason : StopReason) (documents : Nat)
  | finished (documents batches paths : Nat) (reason : StopReason)
  | emptyCollection
  | malformed (documents : Nat)
  | introspected (typeName : String) (fields nested : Nat)
  deriving DecidableEq, Repr

namespace Notice

/-- The importance of a notice. -/
def level : Notice → Level
  | .cut .. | .batchMerged .. => .debug
  | .started _ | .finished .. | .introspected .. => .info
  | _ => .warning

/-- The text of a notice about a collection. -/
def message (collection : String) : Notice → String
  | .started total => "Sampling " ++ collection ++ ": " ++ grouped total ++ " documents"
  | .cut depth path =>
    "Depth limit " ++ natText depth ++ " reached at " ++ path ++ "; treating as opaque"
  | .collision c =>
    "Nested type name collision in " ++ collection ++ ": '" ++ c.typeName ++
      "' is synthesized by both '" ++ c.firstPath ++ "' and '" ++ c.collidingPath ++
      "'; keeping the definition from '" ++ c.firstPath ++ "'"
  | .skipped index batch text =>
    "Skipping document " ++ natText index ++ " of batch " ++ natText batch ++ " in " ++
      collection ++ ": " ++ text
  | .batchMerged batch documents newPaths stable wanted =>
    collection ++ " batch " ++ natText batch ++ ": " ++ natText documents ++ " docs, " ++
      natText newPaths ++ " new path(s), stable " ++ natText stable ++ "/" ++ natText wanted
  | .unstable reason documents =>
    "Sampling of " ++ collection ++ " stopped before convergence (" ++ reason.tag ++ " after " ++
      grouped documents ++ " documents); rare fields may be missing"
  | .finished documents batches paths reason =>
    "Sampled " ++ collection ++ ": " ++ grouped documents ++ " documents in " ++
      natText batches ++ " batch(es), " ++ natText paths ++ " field paths, stopped: " ++ reason.tag
  | .emptyCollection =>
    "Collection " ++ collection ++ " is empty; returning a minimal schema"
  | .malformed documents =>
    natText documents ++ " malformed document(s) skipped in " ++ collection
  | .introspected typeName fields nested =>
    "Introspected " ++ collection ++ ": " ++ typeName ++ " with " ++ natText fields ++
      " field(s), " ++ natText nested ++ " nested type(s)"

/-- A notice about a collection with its level. -/
def line (collection : String) (n : Notice) : String :=
  n.level.name ++ " " ++ n.message collection

end Notice

end DocSchema
