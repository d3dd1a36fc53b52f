import DocSchema.Config.Basic
import DocSchema.Config.Fault

/-!
# Reading configurations

A configuration is made of a mapping: its source, the settings for all collections, and the
collections, each by its name alone or with settings of its own.
-/

namespace DocSchema.Config

/-- The source of a configuration (`_parse_connector_config`). -/
def readSource (data : Option Raw) : Except ConfigFault SourceSettings :=
  match data with
  | none | some .null => .error .sourceMissing
  | some (.map entries) =>
    match Raw.field? "type" entries with
    | none => .error .typeMissing
    | some type =>
      if type.isTrue then
        .ok { type, settings := entries.filter fun (key, _) => key.text? != some "type" }
      else .error .typeMissing
  | some _ => .error .sourceNotMapping

/-- The fields of a section, all of which must be known. -/
def sectionFields (part : String) (known : List String) (entries : List (Raw × Raw)) :
    Except ConfigFault Settings.Fields :=
  let unknown := entries.filter fun (key, _) => !(key.text?.any known.contains)
  if unknown.isEmpty then
    .ok (entries.filterMap fun (key, value) => key.text?.map (·, value))
  else
    match Raw.orderedTexts (unknown.map Prod.fst) with
    | .ok keys => .error (.unknownKeys part keys known.mergeSort)
    | .error m => .error (.misuse m)

/-- Reads a section of settings, which override others (`_parse_section`). -/
def readSection {α : Type} (part : String) (known : List String)
    (overriding : α → Settings.Fields → Except SettingsFault α) (base : α) (data : Option Raw) :
    Except ConfigFault α :=
  match data with
  | none | some .null => .ok base
  | some (.map entries) => do
    let fields ← sectionFields part known entries
    (overriding base fields).mapError (.ofSettings (.invalidSection part))
  | some _ => .error (.sectionNotMapping part)

/-- Reads a section of sampling settings. -/
def readSampling [Stack] (part : String) (base : SamplingSettings) (data : Option Raw) :
    Except ConfigFault SamplingSettings :=
  readSection part SamplingSettings.names SamplingSettings.overriding base data

/-- Reads a section of extraction settings. -/
def readExtraction [Stack] (part : String) (base : ExtractionSettings) (data : Option Raw) :
    Except ConfigFault ExtractionSettings :=
  readSection part ExtractionSettings.names ExtractionSettings.overriding base data

/-- A part of the collection at an index. -/
def partOf (index : Nat) (part : String) : String :=
  "collections[" ++ Number.natText index ++ "]." ++ part

/-- Reads the collection at an index. -/
def readCollection [Stack] (sampling : SamplingSettings) (extraction : ExtractionSettings) (index : Nat)
    (r : Raw) : Except ConfigFault CollectionSettings :=
  match r with
  | .text _ | .code _ => .ok { name := r }
  | .map entries =>
    match Raw.field? "name" entries with
    | none => .error (.nameMissing index)
    | some name => do
      let sampling? ← match Raw.field? "sampling" entries with
        | none => .ok none
        | some data => (readSampling (partOf index "sampling") sampling data).map some
      let extraction? ← match Raw.field? "extraction" entries with
        | none => .ok none
        | some data => (readExtraction (partOf index "extraction") extraction data).map some
      .ok { name, typeName := (Raw.field? "type_name" entries).getD .null, sampling?, extraction? }
  | _ => .error (.badEntry index)

/-- Reads collections from an index on. -/
def readCollections [Stack] (sampling : SamplingSettings) (extraction : ExtractionSettings) (index : Nat) :
    List Raw → Except ConfigFault (List CollectionSettings)
  | [] => .ok []
  | item :: items => do
    let entry ← readCollection sampling extraction index item
    let entries ← readCollections sampling extraction (index + 1) items
    .ok (entry :: entries)

/-- Whether a name occurs more than once. -/
def isRepeated (names : List Raw) (name : Raw) : Bool :=
  decide (1 < (names.filter (Raw.same name)).length)

/-- The names that occur more than once. -/
def repeatedNames (names : List Raw) : List Raw :=
  names.filter (isRepeated names)

/-- Whether the name at a place is nested too deeply to be compared with the name at another place. -/
def isIncomparable [Stack] (names : List Raw) (name : Raw) (place : Nat) : Bool :=
  names.zipIdx.any fun (other, i) => i != place && other.exhausts (Stack.compared i place) name

/-- What is wrong with the name at a place, if it cannot be counted, or be kept as one that occurs more than once. -/
def countFault? [Stack] (names : List Raw) : Raw × Nat → Option ConfigFault
  | (name, place) =>
    if isIncomparable names name place then some .notCompared
    else if isRepeated names name && !name.isKey then some (.misuse name.keyMisuse)
    else none

/-- Refuses collections of the same name. -/
def checkNames [Stack] (names : List Raw) : Except ConfigFault Unit :=
  match names.zipIdx.findSome? (countFault? names) with
  | some fault => .error fault
  | none =>
    let repeated := repeatedNames names
    if repeated.isEmpty then .ok ()
    else
      match Raw.orderedTexts (Raw.distinct repeated) with
      | .ok texts => .error (.duplicates texts)
      | .error m => .error (.misuse m)

/-- Reads the list of collections (`_parse_collections`). -/
def readCollectionList [Stack] (sampling : SamplingSettings) (extraction : ExtractionSettings)
    (data : Option Raw) : Except ConfigFault (List CollectionSettings) :=
  match data with
  | none => .error .collectionsMissing
  | some (.list []) => .error .noCollections
  | some (.list items) => do
    let entries ← readCollections sampling extraction 0 items
    checkNames (entries.map CollectionSettings.name)
    .ok entries
  | some _ => .error .collectionsNotList

/-- The number of collections that may run at the same time. -/
def readParallel [Stack] (data : Option Raw) : Except ConfigFault Nat :=
  (Settings.positive "max_parallel_collections" (data.getD (.int 1))).mapError (.ofSettings .parallel)

/-- Reads a configuration (`parse_config`). -/
def ofRaw [Stack] (data : Raw) : Except ConfigFault Config :=
  match data with
  | .map entries => do
    let source ← readSource (Raw.field? "source" entries)
    let sampling ← readSampling "sampling" {} (Raw.field? "sampling" entries)
    let extraction ← readExtraction "extraction" {} (Raw.field? "extraction" entries)
    let maxParallel ← readParallel (Raw.field? "max_parallel_collections" entries)
    let collections ← readCollectionList sampling extraction (Raw.field? "collections" entries)
    .ok { source, collections, sampling, extraction, maxParallel }
  | data => .error (.misuse (.noPart data.typeName "get"))

end DocSchema.Config
