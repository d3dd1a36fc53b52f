/-!
# A first configuration

The text of the configuration that a new project starts with.
-/

namespace DocSchema.Config

/-- The lines of the configuration of a new project. -/
def templateLines : List String :=
  ["# schemascout configuration",
    "# Collections are sampled at random until few new fields show up.",
    "",
    "source:",
    "  type: mongodb",
    "  connection_string: $\x7bMONGODB_URI\x7d",
    "  database: $\x7bMONGODB_DATABASE\x7d",
    "",
    "collections:",
    "  - movies  # Simple: just the collection name",
    "#  - name: comments",
    "#    type_name: Comment",
    "#    sampling:",
    "#      max_samples: 2000",
    "",
    "sampling:",
    "  initial_batch_size: 50",
    "  batch_size: 200",
    "  max_samples: 5000",
    "  max_fraction: 0.8",
    "  new_path_threshold: 2",
    "  stable_batches: 3",
    "",
    "extraction:",
    "  max_depth: 32",
    "  array_sample_size: 3"]

/-- The configuration of a new project. -/
def template : String :=
  String.join (templateLines.map (· ++ "\n"))

end DocSchema.Config
