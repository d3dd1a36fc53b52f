import DocSchema.Extraction.Sample
import DocSchema.Path
import DocSchema.Settings.Extraction
import DocSchema.Value.Fault

/-!
# Extraction

The samples of a document. Hidden keys are passed over, of an array only the first elements are
looked at, and objects at the greatest depth are cut off and become opaque leaves.

- `extract_eq_error_iff`: a document is refused when it is no object or when the walk meets a fault.
- `extract_ok_iff`: it is extracted otherwise.
- `fieldPaths_hidden`: a hidden key adds no path.
-/

namespace DocSchema.Extraction

variable (s : ExtractionSettings)

/-- The leaf that a value is, if it is one: nulls are none, and objects only at the greatest depth (`_collect`). -/
def leaf? (depth : Nat) : Value → Option Value
  | .null => none
  | .map _ | .unfit (some .map) _ => if depth < s.maxDepth then none else some .untyped
  | v => some v

/-- The leaves among the first elements of an array. -/
def leaves (depth : Nat) (items : List Value) : List Value :=
  (items.take s.arraySampleSize).filterMap (leaf? s depth)

mutual
/-- The samples of the visible fields of an object at a path, whose keys stand at a depth (`_walk_object`). -/
def fieldSamples (path : String) (depth : Nat) : List (String × Value) → List FieldSample
  | [] => []
  | (key, value) :: entries =>
    if s.hides key then fieldSamples path depth entries
    else fieldSample key (Path.child path key) depth value :: fieldSamples path depth entries
/-- The sample of a field at a path (`_walk_field`). -/
def fieldSample (key path : String) (depth : Nat) : Value → FieldSample
  | .sequence items =>
    .mk key (Path.elements path) .sequence (leaves s depth items)
      (elementObjects (Path.elements path) depth s.arraySampleSize items)
  | .map entries =>
    if depth < s.maxDepth then
      .mk key path .map [] [.mk path (fieldSamples path (depth + 1) entries)]
    else .mk key path .map [.untyped] []
  | v => .mk key path (v.kind?.getD .binary) (leaf? s depth v).toList []
/-- The objects among the first `count` elements of an array (`_collect`). -/
def elementObjects (path : String) (depth count : Nat) : List Value → List ObjectSample
  | [] => []
  | item :: items =>
    match count with
    | 0 => []
    | count + 1 =>
      match item with
      | .map entries =>
        if depth < s.maxDepth then
          .mk path (fieldSamples path (depth + 1) entries) ::
            elementObjects path depth count items
        else elementObjects path depth count items
      | _ => elementObjects path depth count items
end

mutual
/-- The canonical paths of the visible fields of an object at a path. -/
def fieldPaths (path : String) (depth : Nat) : List (String × Value) → List String
  | [] => []
  | (key, value) :: entries =>
    if s.hides key then fieldPaths path depth entries
    else valuePaths (Path.child path key) depth value ++ fieldPaths path depth entries
/-- The canonical path of a field and of the fields below it. -/
def valuePaths (path : String) (depth : Nat) : Value → List String
  | .sequence items =>
    Path.elements path :: elementPaths (Path.elements path) depth s.arraySampleSize items
  | .map entries =>
    path :: if depth < s.maxDepth then fieldPaths path (depth + 1) entries else []
  | _ => [path]
/-- The canonical paths below the first `count` elements of an array. -/
def elementPaths (path : String) (depth count : Nat) : List Value → List String
  | [] => []
  | item :: items =>
    match count with
    | 0 => []
    | count + 1 =>
      match item with
      | .map entries =>
        (if depth < s.maxDepth then fieldPaths path (depth + 1) entries else []) ++
          elementPaths path depth count items
      | _ => elementPaths path depth count items
end

/-- What the walk over a document comes upon, apart from its fields. -/
inductive Incident
  | cut (path : String)
  | fault (f : DocumentFault)
  /-- An object with keys that are no text, and that no start of hidden keys refuses. Nothing is said here of what
  it shows. -/
  | unfollowed
  deriving DecidableEq, Repr

/-- The fault of comparing a key with the starts of hidden keys. -/
def keyFault? (key : String) : List Raw → Option DocumentFault
  | [] => none
  | start :: starts =>
    match start.text? with
    | none => some (.hiddenStartNotText start.typeName)
    | some text => if ExtractionSettings.beginsWith key text then none else keyFault? key starts

/-- The faults of comparing keys with the starts of hidden keys. -/
def keyFaults (entries : List (String × Value)) : List Incident :=
  entries.filterMap fun (key, _) => (keyFault? key s.hiddenStarts).map .fault

/-- The fault of comparing a byte string with the starts of hidden keys. -/
def bytesKeyFault? (key : List UInt8) : List Raw → Option DocumentFault
  | [] => none
  | .bytes _ start :: starts => if start.isPrefixOf key then none else bytesKeyFault? key starts
  | start :: _ => some (.hiddenStartNotBytes start.typeName)

/-- The fault of comparing a key of any kind with the starts of hidden keys: a byte string is compared as a text
is. -/
def rawKeyFault? (starts : List Raw) (key : Raw) : Option DocumentFault :=
  match key with
  | .text s | .code s => keyFault? s starts
  | .bytes .immutable data | .bytes (.tagged _) data => bytesKeyFault? data starts
  | key => some (.keyOfNode key.typeName)

/-- What the walk comes upon at an object whose payload does not fit: the fault of its first key that has one. -/
def unfitObject (payload : Raw) : Incident :=
  match payload with
  | .map entries =>
    match entries.findSome? fun (key, _) => rawKeyFault? s.hiddenStarts key with
    | some f => .fault f
    | none => .unfollowed
  | payload => .fault (.noEntries payload.typeName)

mutual
/-- The incidents of the walk over the fields of an object. -/
def fieldIncidents (path : String) (depth : Nat) : List (String × Value) → List Incident
  | [] => []
  | (key, value) :: entries =>
    if s.hides key then fieldIncidents path depth entries
    else valueIncidents (Path.child path key) depth value ++ fieldIncidents path depth entries
/-- The incidents of the walk over a field. -/
def valueIncidents (path : String) (depth : Nat) : Value → List Incident
  | .sequence items => elementIncidents (Path.elements path) depth s.arraySampleSize items
  | .map entries =>
    if depth < s.maxDepth then keyFaults s entries ++ fieldIncidents path (depth + 1) entries
    else [.cut path]
  | .unfit none payload => [.fault (.notANode payload.typeName "kind")]
  | .unfit (some .sequence) payload => [.fault (.notSliced payload.typeName)]
  | .unfit (some .map) payload =>
    if depth < s.maxDepth then [unfitObject s payload] else [.cut path]
  | _ => []
/-- The incidents of the walk over the first `count` elements of an array. -/
def elementIncidents (path : String) (depth count : Nat) : List Value → List Incident
  | [] => []
  | item :: items =>
    match count with
    | 0 => []
    | count + 1 =>
      match item with
      | .sequence _ | .unfit (some .sequence) _ => elementIncidents path depth count items
      | .unfit none payload => [.fault (.notANode payload.typeName "is_null")]
      | item => valueIncidents path depth item ++ elementIncidents path depth count items
end

/-- The incidents of the walk over a document. -/
def incidents : Value → List Incident
  | .map entries => keyFaults s entries ++ fieldIncidents s "" 1 entries
  | .unfit (some .map) payload => [unfitObject s payload]
  | .unfit none payload => [.fault (.notANode payload.typeName "kind")]
  | v => [.fault (.notAnObject (v.kind?.getD .binary))]

/-- The paths at which a walk cut objects off before it ended. -/
def cuts : List Incident → List String
  | [] => []
  | .cut path :: rest => path :: cuts rest
  | .fault _ :: _ => []
  | .unfollowed :: rest => cuts rest

/-- The first fault of a walk. -/
def fault? : List Incident → Option DocumentFault
  | [] => none
  | .fault f :: _ => some f
  | _ :: rest => fault? rest

/-- Whether every object that the walk over a document comes to is gone into or refused. Only nodes that were built
beforehand may hold others: those of a document that is converted have texts for keys. -/
def Followed (document : Value) : Prop :=
  .unfollowed ∉ incidents s document

instance (document : Value) : Decidable (Followed s document) :=
  inferInstanceAs (Decidable (¬_))

/-- The tree of samples and the paths of a document. -/
def extracted (entries : List (String × Value)) : Extracted where
  root := .mk "" (fieldSamples s "" 1 entries)
  paths := fieldPaths s "" 1 entries

/-- The entries of a document. -/
def entriesOf : Value → List (String × Value)
  | .map entries => entries
  | _ => []

/-- What a document shows (`extract`). -/
def extract (document : Value) : Except DocumentFault Extracted :=
  match fault? (incidents s document) with
  | some f => .error f
  | none => .ok (extracted s (entriesOf document))

theorem extract_eq_error_iff {document : Value} {f : DocumentFault} :
    extract s document = .error f ↔ fault? (incidents s document) = some f := by
  rw [extract]
  split <;> simp_all

variable {s} in
theorem extract_ok_iff {document : Value} {e : Extracted} :
    extract s document = .ok e ↔
      fault? (incidents s document) = none ∧ extracted s (entriesOf document) = e := by
  rw [extract]
  split <;> simp_all

theorem fieldPaths_hidden {key : String} (h : s.hides key = true) (path : String) (depth : Nat)
    (value : Value) (entries : List (String × Value)) :
    fieldPaths s path depth ((key, value) :: entries) = fieldPaths s path depth entries := by
  rw [fieldPaths, if_pos h]

end DocSchema.Extraction
