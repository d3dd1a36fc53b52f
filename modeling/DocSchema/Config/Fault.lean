import DocSchema.Settings.Fault

/-!
# Faults of configurations

Why a configuration is refused, with the advice that is given.
-/

namespace DocSchema

open Number (natText)

/-- Why a configuration is refused. -/
inductive ConfigFault
  | sourceMissing
  | sourceNotMapping
  | typeMissing
  | sectionNotMapping (part : String)
  | unknownKeys (part : String) (keys known : List String)
  | invalidSection (part : String) (fault : SettingsFault)
  | parallel (fault : SettingsFault)
  | collectionsMissing
  | collectionsNotList
  | noCollections
  | nameMissing (index : Nat)
  | badEntry (index : Nat)
  | duplicates (names : List String)
  | notConfigured (name : String) (available : List String)
  | fileMissing (path : String)
  | unreadable (path : String)
  | emptyFile (path : String)
  | notMapping (path : String)
  /-- A value of the wrong kind. -/
  | misuse (m : Misuse)
  /-- A value that is refused and cannot be shown. -/
  | notShown (fault : Raw.ShowFault)
  /-- Names that are nested too deeply to be compared. -/
  | notCompared
  deriving DecidableEq, Repr

namespace ConfigFault

/-- The message about a fault. -/
def message : ConfigFault → String
  | .sourceMissing =>
    "Missing source configuration.\n\nAdd a 'source' section:\n\nsource:\n  type: mongodb\n" ++
      "  connection_string: $\x7bMONGODB_URI\x7d\n  database: my_database"
  | .sourceNotMapping => "Connector config must be a dictionary."
  | .typeMissing => "Connector config requires 'type' field."
  | .sectionNotMapping part => "'" ++ part ++ "' must be a mapping."
  | .unknownKeys part keys known =>
    "Unknown key(s) in '" ++ part ++ "': " ++ ", ".intercalate keys ++ ". Valid keys: " ++
      ", ".intercalate known
  | .invalidSection part fault =>
    "Invalid '" ++ part ++ "' configuration: " ++ fault.message
  | .parallel fault => fault.message
  | .collectionsMissing =>
    "Missing 'collections' list.\nExample:\n\ncollections:\n  - movies\n  - comments"
  | .collectionsNotList => "'collections' must be a list."
  | .noCollections => "'collections' list cannot be empty."
  | .nameMissing index =>
    "Missing 'name' in collections[" ++ natText index ++ "].\nUse either:\n  - collection_name\n" ++
      "Or:\n  - name: collection_name\n    sampling:\n      max_samples: 1000"
  | .badEntry index =>
    "Invalid collection entry at index " ++ natText index ++
      ". Must be a string or object with 'name' field."
  | .duplicates names => "Duplicate collection(s): " ++ ", ".intercalate names
  | .notConfigured name available =>
    "Collection '" ++ name ++ "' not found in config. Available: " ++ ", ".intercalate available
  | .fileMissing path =>
    "Configuration file not found: " ++ path ++ "\nRun 'schemascout init' to create one."
  | .unreadable path => "Invalid YAML in " ++ path ++ ":"
  | .emptyFile path => "Config file " ++ path ++ " is empty."
  | .notMapping path => "Config file " ++ path ++ " must contain a mapping at the top level."
  | .misuse m => m.message
  | .notShown fault => fault.message
  | .notCompared => NestingFault.compared.message

/-- Whether a fault is reported as one of the configuration. -/
def isReported : ConfigFault → Bool
  | .misuse _ | .notShown _ | .notCompared => false
  | _ => true

/-- The fault of a configuration whose settings have a fault, which is told unless it is one of the kind
of a value or of its text. -/
def ofSettings (tell : SettingsFault → ConfigFault) : SettingsFault → ConfigFault
  | .misuse m => .misuse m
  | .notShown fault => .notShown fault
  | fault => tell fault

end ConfigFault

end DocSchema
