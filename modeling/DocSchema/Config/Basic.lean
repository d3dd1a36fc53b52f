import DocSchema.Raw.Equality
import DocSchema.Settings.Extraction
import DocSchema.Settings.Sampling

/-!
# Configurations

Which collections of which source are introspected, and how. Settings that hold for all collections
may be overridden for one.
-/

namespace DocSchema

/-- A source by the name of its type, with the settings of its own. -/
structure SourceSettings where
  type : Raw
  settings : List (Raw × Raw) := []
  deriving Repr

/-- A collection to introspect, with settings of its own. -/
structure CollectionSettings where
  name : Raw
  typeName : Raw := .null
  sampling? : Option SamplingSettings := none
  extraction? : Option ExtractionSettings := none
  deriving Repr

/-- A configuration. -/
structure Config where
  source : SourceSettings
  collections : List CollectionSettings
  sampling : SamplingSettings := {}
  extraction : ExtractionSettings := {}
  maxParallel : Nat := 1
  deriving Repr

namespace Config

/-- The first collection with a name (`get_collection`). -/
def collection? (c : Config) (name : String) : Option CollectionSettings :=
  c.collections.find? fun entry => entry.name.same (.text name)

/-- The sampling settings that hold for a collection (`get_sampling_config`). -/
def samplingOf (c : Config) (entry : CollectionSettings) : SamplingSettings :=
  entry.sampling?.getD c.sampling

/-- The extraction settings that hold for a collection (`get_extraction_config`). -/
def extractionOf (c : Config) (entry : CollectionSettings) : ExtractionSettings :=
  entry.extraction?.getD c.extraction

end Config

end DocSchema
