import DocSchema.Raw.Equality
import DocSchema.Settings.Fault

/-!
# Settings of the extraction

How far a document is looked into, which keys stay hidden, which field identifies a document, and
whether texts may be identifiers.
-/

namespace DocSchema

/-- How documents are looked into. -/
structure ExtractionSettings where
  maxDepth : Nat := 32
  arraySampleSize : Nat := 3
  /-- The starts of hidden keys; one that is no text is met when a key is compared with it. -/
  hiddenStarts : List Raw := [.text "__", .text "$"]
  identifierField : Raw := .text "_id"
  detectIdentifiers : Raw := .bool true
  deriving Repr

namespace ExtractionSettings

/-- The names of the settings. -/
def names : List String :=
  ["max_depth", "array_sample_size", "excluded_prefixes", "identifier_field",
    "detect_identifier_strings"]

/-- The settings by name. -/
def toFields (s : ExtractionSettings) : Settings.Fields :=
  [("max_depth", .int s.maxDepth), ("array_sample_size", .int s.arraySampleSize),
    ("excluded_prefixes", .tuple s.hiddenStarts), ("identifier_field", s.identifierField),
    ("detect_identifier_strings", s.detectIdentifiers)]

/-- The greatest depth that can be asked for. -/
def depthLimit : Nat := 200

/-- The starts of hidden keys that a value gives: one text, or the true ones of several values. -/
def startsOf (r : Raw) : Except SettingsFault (List Raw) :=
  match r.text? with
  | some s => .ok ([.text s].filter Raw.isTrue)
  | none =>
    match r.elements? with
    | some items => .ok (items.filter Raw.isTrue)
    | none => .error (.misuse (.notIterable r.typeName))

/-- The settings that differ from others in the named fields (`ExtractionConfig`). -/
def overriding [Stack] (base : ExtractionSettings) (fields : Settings.Fields) :
    Except SettingsFault ExtractionSettings := do
  Settings.checkNames names fields
  let value (name : String) : Raw :=
    Settings.value fields name (Settings.value base.toFields name .null)
  let maxDepth ← Settings.positive "max_depth" (value "max_depth")
  let arraySampleSize ← Settings.positive "array_sample_size" (value "array_sample_size")
  if depthLimit < maxDepth then .error (.showing (.int maxDepth) .tooDeep)
  else
    let hiddenStarts ← startsOf (value "excluded_prefixes")
    let identifierField := value "identifier_field"
    let detectIdentifiers := value "detect_identifier_strings"
    if identifierField.isTrue then
      .ok { maxDepth, arraySampleSize, hiddenStarts, identifierField, detectIdentifiers }
    else .error .noIdentifierField

/-- Whether texts may be identifiers. -/
def detects (s : ExtractionSettings) : Bool :=
  s.detectIdentifiers.isTrue

/-- Whether a key begins with a text. -/
def beginsWith (key start : String) : Bool :=
  start.toList.isPrefixOf key.toList

/-- Whether a key stays hidden (`is_excluded`). -/
def hides (s : ExtractionSettings) (key : String) : Bool :=
  s.hiddenStarts.any fun start => (start.text?.map (beginsWith key)).getD false

end ExtractionSettings

end DocSchema
