import DocSchema.Proofs.Extraction.Rearrangement

/-!
# The visible part of a document

A document is looked at through its visible part: hidden entries are left out, of an array the elements
beyond the first, and what stays a leaf whatever it holds (objects at the greatest depth, arrays within
arrays, binary payloads) is one and the same opaque leaf. The walk over the visible part of a document
gathers what the walk over the document does, so two documents with the same visible part cannot be told
apart by what is merged.

- `visible`: the visible part of a document.
- `valuePaths_visible`, `fault?_valueIncidents_visible`, `mergeField_visible`: what the visible part of a
  field keeps.
- `extract_hidden_irrelevant`: documents with one visible part extract alike, and merge alike.
-/

namespace DocSchema

namespace Extraction

variable (s : ExtractionSettings)

/-- Whether a key is found to begin with the start of hidden keys. Unlike `hides`, it is not so when a
start that is no text is met before. -/
def excludes (key : String) : Bool :=
  s.hides key && (keyFault? key s.hiddenStarts).isNone

mutual
/-- The visible entries of an object whose keys stand at a depth. -/
def visibleEntries (depth : Nat) : List (String × Value) → List (String × Value)
  | [] => []
  | (key, value) :: entries =>
    if excludes s key then visibleEntries depth entries
    else (key, visibleValue depth value) :: visibleEntries depth entries
/-- The visible part of the value of a field. -/
def visibleValue (depth : Nat) : Value → Value
  | .sequence items => .sequence (visibleElements depth s.arraySampleSize items)
  | .map entries =>
    if depth < s.maxDepth then .map (visibleEntries (depth + 1) entries) else .untyped
  | .unfit (some .map) payload =>
    if depth < s.maxDepth then .unfit (some .map) payload else .untyped
  | .binary _ | .unfit (some .binary) _ => .untyped
  | v => v
/-- The visible part of the first `count` elements of an array. -/
def visibleElements (depth count : Nat) : List Value → List Value
  | [] => []
  | item :: items =>
    match count with
    | 0 => []
    | count + 1 =>
      (if item.kind? = some .sequence then .untyped else visibleValue depth item) ::
        visibleElements depth count items
end

/-- The visible part of a document. -/
def visible : Value → Value
  | .map entries => .map (visibleEntries s 1 entries)
  | .unfit (some .map) payload => .unfit (some .map) payload
  | v => visibleValue s 0 v

/-- The visible part of an element of an array, of which inner arrays are passed over. -/
def visibleElement (depth : Nat) (item : Value) : Value :=
  if item.kind? = some .sequence then .untyped else visibleValue s depth item

variable {s}

/-- Any key can be compared with starts that are texts. -/
theorem keyFault?_eq_none {starts : List Raw} (h : ∀ start ∈ starts, start.text?.isSome) (key : String) :
    keyFault? key starts = none := by
  induction starts with
  | nil => rfl
  | cons start starts ih =>
    obtain ⟨text, htext⟩ := Option.isSome_iff_exists.1 (h start List.mem_cons_self)
    simp only [keyFault?, htext]
    split
    · rfl
    · exact ih fun start hs => h start (List.mem_cons_of_mem _ hs)

/-- Starts of hidden keys that are texts hide the keys that begin with one. -/
theorem excludes_eq_hides (h : ∀ start ∈ s.hiddenStarts, start.text?.isSome) (key : String) :
    excludes s key = s.hides key := by
  rw [excludes, keyFault?_eq_none h, Option.isNone_none, Bool.and_true]

theorem hides_of_excludes {key : String} (h : excludes s key = true) :
    s.hides key = true ∧ keyFault? key s.hiddenStarts = none := by
  simpa [excludes] using h

theorem visibleElements_succ (depth count : Nat) (item : Value) (items : List Value) :
    visibleElements s depth (count + 1) (item :: items) =
      visibleElement s depth item :: visibleElements s depth count items := by
  rw [visibleElements, visibleElement]

theorem visibleElements_zero (depth : Nat) (items : List Value) :
    visibleElements s depth 0 items = [] := by
  cases items <;> rw [visibleElements]

theorem visibleElement_unfit (depth : Nat) (kind? : Option ValueKind) (payload : Raw) :
    visibleElement s depth (.unfit kind? payload) = .untyped ∨
      visibleElement s depth (.unfit kind? payload) = .unfit kind? payload := by
  cases kind? with
  | none => exact .inr rfl
  | some kind =>
    cases kind with
    | map =>
      rw [visibleElement, if_neg (by simp [Value.kind?]), visibleValue]
      split
      · exact .inr rfl
      · exact .inl rfl
    | sequence | binary => exact .inl rfl
    | _ => exact .inr rfl

/-! ## Paths -/

theorem elementPaths_zero (path : String) (depth : Nat) (items : List Value) :
    elementPaths s path depth 0 items = [] := by
  rw [elementPaths_eq, List.take_zero, List.flatMap_nil]

theorem elementPaths_succ (path : String) (depth count : Nat) (item : Value) (items : List Value) :
    elementPaths s path depth (count + 1) (item :: items) =
      (if depth < s.maxDepth then objectPaths s path (depth + 1) item else []) ++
        elementPaths s path depth count items := by
  rw [elementPaths_eq, elementPaths_eq, List.take_succ_cons, List.flatMap_cons]

mutual
theorem fieldPaths_visible (path : String) (depth : Nat) : ∀ entries : List (String × Value),
    fieldPaths s path depth (visibleEntries s depth entries) = fieldPaths s path depth entries
  | [] => by rw [visibleEntries]
  | (key, value) :: entries => by
    rw [visibleEntries]
    split
    · rename_i hexcluded
      rw [fieldPaths_hidden s (hides_of_excludes hexcluded).1]
      exact fieldPaths_visible path depth entries
    · rw [fieldPaths, fieldPaths, valuePaths_visible, fieldPaths_visible path depth entries]
theorem valuePaths_visible (path : String) (depth : Nat) : ∀ v : Value,
    valuePaths s path depth (visibleValue s depth v) = valuePaths s path depth v
  | .sequence items => by
    rw [visibleValue, valuePaths, valuePaths, elementPaths_visible]
  | .map entries => by
    rw [visibleValue, valuePaths]
    split
    · rename_i hdepth
      rw [valuePaths, if_pos hdepth, fieldPaths_visible path (depth + 1) entries]
    · rfl
  | .unfit none payload => rfl
  | .unfit (some kind) payload => by
    cases kind with
    | map =>
      rw [visibleValue]
      split <;> rfl
    | _ => rfl
  | .null | .bool _ | .int _ | .float _ | .string _ | .identifier _ | .binary _ => rfl
theorem elementPaths_visible (path : String) (depth : Nat) : ∀ (count : Nat) (items : List Value),
    elementPaths s path depth count (visibleElements s depth count items) =
      elementPaths s path depth count items
  | _, [] => by rw [visibleElements]
  | 0, item :: items => by rw [elementPaths_zero, elementPaths_zero]
  | count + 1, item :: items => by
    rw [visibleElements_succ, elementPaths_succ, elementPaths_succ, elementPaths_visible path depth count items]
    congr 1
    split
    · rename_i hdepth
      cases item with
      | map entries =>
        rw [visibleElement, if_neg (by simp [Value.kind?]), visibleValue, if_pos hdepth]
        exact fieldPaths_visible path (depth + 1) entries
      | unfit kind? payload =>
        rcases visibleElement_unfit depth kind? payload with h | h
        · rw [h]
          rfl
        · rw [h]
      | _ => rfl
    · rfl
end

/-! ## Faults -/

theorem fault?_append (xs ys : List Incident) : fault? (xs ++ ys) = (fault? xs).or (fault? ys) := by
  induction xs with
  | nil => rfl
  | cons i xs ih =>
    cases i with
    | cut path => exact ih
    | fault f => rfl
    | unfollowed => exact ih

theorem keyFaults_cons (e : String × Value) (entries : List (String × Value)) :
    keyFaults s (e :: entries) =
      ((keyFault? e.1 s.hiddenStarts).map Incident.fault).toList ++ keyFaults s entries := by
  rw [keyFaults_eq, keyFaults_eq, List.map_cons, List.filterMap_cons]
  cases keyFault? e.1 s.hiddenStarts <;> rfl

/-- A key that is left out has no fault. -/
theorem keyFaults_visible (depth : Nat) (entries : List (String × Value)) :
    keyFaults s (visibleEntries s depth entries) = keyFaults s entries := by
  induction entries with
  | nil => rw [visibleEntries]
  | cons e entries ih =>
    obtain ⟨key, value⟩ := e
    rw [visibleEntries, keyFaults_cons]
    split
    · rename_i hexcluded
      rw [(hides_of_excludes hexcluded).2, ih]
      rfl
    · rw [keyFaults_cons, ih]

/-- The first fault of a walk over an array is that of the first element with one. -/
theorem fault?_elementIncidents_succ (path : String) (depth count : Nat) (item : Value)
    (items : List Value) :
    fault? (elementIncidents s path depth (count + 1) (item :: items)) =
      (fault? (elementIncident s path depth item)).or
        (fault? (elementIncidents s path depth count items)) := by
  rw [← fault?_append]
  cases item with
  | unfit kind? payload =>
    cases kind? with
    | none => rw [elementIncidents, elementIncident]; rfl
    | some kind => cases kind <;> simp only [elementIncidents, elementIncident, List.nil_append]
  | _ => simp only [elementIncidents, elementIncident, List.nil_append]

theorem elementIncidents_zero (path : String) (depth : Nat) (items : List Value) :
    elementIncidents s path depth 0 items = [] := by
  cases items <;> rw [elementIncidents]

/-- The visible part of an element has the faults that the visible part of the value of a field has. -/
theorem fault?_elementIncident_visible {path : String} {depth : Nat} {v : Value}
    (h : fault? (valueIncidents s path depth (visibleValue s depth v)) =
      fault? (valueIncidents s path depth v)) :
    fault? (elementIncident s path depth (visibleElement s depth v)) =
      fault? (elementIncident s path depth v) := by
  have hmap (hkind : v.kind? ≠ some .sequence)
      (hvalue : elementIncident s path depth v = valueIncidents s path depth v)
      (hvisible : elementIncident s path depth (visibleValue s depth v) =
        valueIncidents s path depth (visibleValue s depth v)) :
      fault? (elementIncident s path depth (visibleElement s depth v)) =
        fault? (elementIncident s path depth v) := by
    rw [visibleElement, if_neg hkind, hvisible, h, hvalue]
  cases v with
  | map entries =>
    refine hmap (by simp [Value.kind?]) rfl ?_
    rw [visibleValue]
    split <;> rfl
  | unfit kind? payload =>
    cases kind? with
    | none => rfl
    | some kind =>
      cases kind with
      | map =>
        refine hmap (by simp [Value.kind?]) rfl ?_
        rw [visibleValue]
        split <;> rfl
      | _ => rfl
  | _ => rfl

mutual
theorem fault?_fieldIncidents_visible (path : String) (depth : Nat) :
    ∀ entries : List (String × Value),
    fault? (fieldIncidents s path depth (visibleEntries s depth entries)) =
      fault? (fieldIncidents s path depth entries)
  | [] => by rw [visibleEntries]
  | (key, value) :: entries => by
    rw [visibleEntries, fieldIncidents]
    split
    · rename_i hexcluded
      rw [if_pos (hides_of_excludes hexcluded).1]
      exact fault?_fieldIncidents_visible path depth entries
    · rw [fieldIncidents]
      split
      · exact fault?_fieldIncidents_visible path depth entries
      · rw [fault?_append, fault?_append, fault?_valueIncidents_visible,
          fault?_fieldIncidents_visible path depth entries]
theorem fault?_valueIncidents_visible (path : String) (depth : Nat) : ∀ v : Value,
    fault? (valueIncidents s path depth (visibleValue s depth v)) = fault? (valueIncidents s path depth v)
  | .sequence items => by
    rw [visibleValue, valueIncidents, valueIncidents, fault?_elementIncidents_visible]
  | .map entries => by
    rw [visibleValue, valueIncidents]
    split
    · rename_i hdepth
      rw [valueIncidents, if_pos hdepth, fault?_append, fault?_append, keyFaults_visible,
        fault?_fieldIncidents_visible path (depth + 1) entries]
    · rfl
  | .unfit none payload => rfl
  | .unfit (some kind) payload => by
    cases kind with
    | map =>
      rw [visibleValue, valueIncidents]
      split
      · rename_i hdepth
        rw [valueIncidents, if_pos hdepth]
      · rfl
    | _ => rfl
  | .null | .bool _ | .int _ | .float _ | .string _ | .identifier _ | .binary _ => rfl
theorem fault?_elementIncidents_visible (path : String) (depth : Nat) :
    ∀ (count : Nat) (items : List Value),
    fault? (elementIncidents s path depth count (visibleElements s depth count items)) =
      fault? (elementIncidents s path depth count items)
  | _, [] => by rw [visibleElements]
  | 0, item :: items => by rw [elementIncidents_zero, elementIncidents_zero]
  | count + 1, item :: items => by
    rw [visibleElements_succ, fault?_elementIncidents_succ, fault?_elementIncidents_succ,
      fault?_elementIncidents_visible path depth count items,
      fault?_elementIncident_visible (fault?_valueIncidents_visible path depth item)]
end

/-! ## Merges -/

section Merges

open Schema (leafKinds mergeField mergeFields mergeNested mergeObject mergeDocument mergeNested_cons)

variable {detect : Bool}

/-- A field is merged by its key, its path, what it is counted as, the types of its leaves and how its
objects are merged. -/
theorem mergeField_congr {owner : Owner} {key path : String} {kind kind' : ValueKind}
    {leaves leaves' : List Value} {objects objects' : List ObjectSample}
    (hnull : (kind == .null) = (kind' == .null)) (harray : (kind == .sequence) = (kind' == .sequence))
    (hleaves : leaves.map (classify detect) = leaves'.map (classify detect))
    (hobjects : mergeNested detect owner key objects = mergeNested detect owner key objects')
    (a : Accumulator) :
    mergeField detect owner (.mk key path kind leaves objects) a =
      mergeField detect owner (.mk key path kind' leaves' objects') a := by
  rw [mergeField, mergeField, leafKinds_congr hleaves, hnull, harray, hobjects]

/-- An object is merged by whether it is empty and how its fields are merged. -/
theorem mergeNested_congr {owner : Owner} {key path : String} {fields fields' : List FieldSample}
    {objects objects' : List ObjectSample} (hempty : fields.isEmpty = fields'.isEmpty)
    (hfields : ∀ owner, mergeFields detect owner fields = mergeFields detect owner fields')
    (hobjects : mergeNested detect owner key objects = mergeNested detect owner key objects') :
    mergeNested detect owner key (.mk path fields :: objects) =
      mergeNested detect owner key (.mk path fields' :: objects') := by
  funext a
  have he : (ObjectSample.mk path fields).isEmpty = (ObjectSample.mk path fields').isEmpty := hempty
  rw [mergeNested_cons, mergeNested_cons, he, hobjects, ObjectSample.fields, ObjectSample.fields, hfields]

theorem elementObjects_zero (path : String) (depth : Nat) (items : List Value) :
    elementObjects s path depth 0 items = [] := by
  rw [elementObjects_eq, List.take_zero, List.flatMap_nil]

theorem elementObjects_succ (path : String) (depth count : Nat) (item : Value) (items : List Value) :
    elementObjects s path depth (count + 1) (item :: items) =
      (if depth < s.maxDepth then objectSamples s path (depth + 1) item else []) ++
        elementObjects s path depth count items := by
  rw [elementObjects_eq, elementObjects_eq, List.take_succ_cons, List.flatMap_cons]

/-- The visible part of an element is a leaf of the same type, or no leaf. -/
theorem leaf?_visibleElement (depth : Nat) (v : Value) :
    (leaf? s depth (visibleElement s depth v)).map (classify detect) =
      (leaf? s depth v).map (classify detect) := by
  have hcut (v : Value) (hv : leaf? s depth v = if depth < s.maxDepth then none else some .untyped)
      (w : Value) (hw : leaf? s depth w = if depth < s.maxDepth then none else some .untyped) :
      leaf? s depth (if depth < s.maxDepth then w else .untyped) = leaf? s depth v := by
    rw [hv]
    split
    · rename_i hdepth
      rw [hw, if_pos hdepth]
    · rfl
  cases v with
  | map entries =>
    rw [visibleElement, if_neg (by simp [Value.kind?]), visibleValue, hcut (.map entries) rfl _ rfl]
  | unfit kind? payload =>
    cases kind? with
    | none => rfl
    | some kind =>
      cases kind with
      | map =>
        rw [visibleElement, if_neg (by simp [Value.kind?]), visibleValue,
          hcut (.unfit (some .map) payload) rfl _ rfl]
      | _ => rfl
  | _ => rfl

/-- The elements that are looked at are leaves of the same types. -/
theorem leaves_visible (depth : Nat) (items : List Value) :
    (leaves s depth (visibleElements s depth s.arraySampleSize items)).map (classify detect) =
      (leaves s depth items).map (classify detect) := by
  rw [leaves, leaves]
  generalize s.arraySampleSize = count
  induction items generalizing count with
  | nil => rw [visibleElements]
  | cons item items ih =>
    cases count with
    | zero => rw [visibleElements_zero]; rfl
    | succ count =>
      rw [visibleElements_succ, List.take_succ_cons, List.take_succ_cons, List.map_filterMap,
        List.map_filterMap, List.filterMap_cons, List.filterMap_cons, leaf?_visibleElement,
        ← List.map_filterMap, ← List.map_filterMap, ih]

/-- The visible part of an object is empty when the object is. -/
theorem isEmpty_fieldSamples_visible (path : String) (depth depth' : Nat)
    (entries : List (String × Value)) :
    (fieldSamples s path depth (visibleEntries s depth' entries)).isEmpty =
      (fieldSamples s path depth entries).isEmpty := by
  rw [isEmpty_fieldSamples, isEmpty_fieldSamples]
  induction entries with
  | nil => rw [visibleEntries]
  | cons e entries ih =>
    obtain ⟨key, value⟩ := e
    rw [visibleEntries, List.map_cons, List.all_cons]
    split
    · rename_i hexcluded
      rw [ih, (hides_of_excludes hexcluded).1, Bool.true_and]
    · rw [List.map_cons, List.all_cons, ih]

mutual
theorem mergeFields_visible (path : String) (depth : Nat) :
    ∀ (entries : List (String × Value)) (owner : Owner),
    mergeFields detect owner (fieldSamples s path depth (visibleEntries s depth entries)) =
      mergeFields detect owner (fieldSamples s path depth entries)
  | [], _ => by rw [visibleEntries]
  | (key, value) :: entries, owner => by
    rw [visibleEntries, fieldSamples]
    split
    · rename_i hexcluded
      rw [if_pos (hides_of_excludes hexcluded).1]
      exact mergeFields_visible path depth entries owner
    · rw [fieldSamples]
      split
      · exact mergeFields_visible path depth entries owner
      · funext a
        rw [mergeFields, mergeFields, mergeField_visible key _ depth value owner,
          mergeFields_visible path depth entries owner]
theorem mergeField_visible (key path : String) (depth : Nat) : ∀ (v : Value) (owner : Owner),
    mergeField detect owner (fieldSample s key path depth (visibleValue s depth v)) =
      mergeField detect owner (fieldSample s key path depth v)
  | .sequence items, owner => by
    funext a
    rw [visibleValue, fieldSample, fieldSample]
    exact mergeField_congr rfl rfl (leaves_visible depth items)
      (mergeNested_visible _ depth s.arraySampleSize items owner key) a
  | .map entries, owner => by
    funext a
    rw [visibleValue, fieldSample]
    split
    · rename_i hdepth
      rw [fieldSample, if_pos hdepth]
      exact mergeField_congr rfl rfl rfl
        (mergeNested_congr (isEmpty_fieldSamples_visible path (depth + 1) (depth + 1) entries)
          (mergeFields_visible path (depth + 1) entries) rfl) a
    · exact mergeField_congr rfl rfl rfl rfl a
  | .unfit none payload, owner => rfl
  | .unfit (some kind) payload, owner => by
    funext a
    cases kind with
    | map =>
      have hleaf : (leaf? s depth (visibleElement s depth (.unfit (some .map) payload))).map
          (classify detect) = (leaf? s depth (.unfit (some .map) payload)).map (classify detect) :=
        leaf?_visibleElement depth _
      rw [visibleElement, if_neg (by simp [Value.kind?])] at hleaf
      rw [visibleValue] at hleaf ⊢
      split
      · rfl
      · rename_i hdepth
        rw [if_neg hdepth] at hleaf
        exact mergeField_congr rfl rfl (by rw [← Option.toList_map, ← Option.toList_map, hleaf]) rfl a
    | _ => exact mergeField_congr rfl rfl rfl rfl a
  | .binary _, owner => by
    funext a
    exact mergeField_congr rfl rfl rfl rfl a
  | .null, owner | .bool _, owner | .int _, owner | .float _, owner | .string _, owner
  | .identifier _, owner => rfl
theorem mergeNested_visible (path : String) (depth : Nat) :
    ∀ (count : Nat) (items : List Value) (owner : Owner) (key : String),
    mergeNested detect owner key
        (elementObjects s path depth count (visibleElements s depth count items)) =
      mergeNested detect owner key (elementObjects s path depth count items)
  | _, [], _, _ => by rw [visibleElements]
  | 0, item :: items, _, _ => by rw [elementObjects_zero, elementObjects_zero]
  | count + 1, item :: items, owner, key => by
    have hrest := mergeNested_visible path depth count items owner key
    rw [visibleElements_succ, elementObjects_succ, elementObjects_succ]
    split
    · rename_i hdepth
      cases item with
      | map entries =>
        rw [visibleElement, if_neg (by simp [Value.kind?]), visibleValue, if_pos hdepth]
        exact mergeNested_congr (isEmpty_fieldSamples_visible path (depth + 1) (depth + 1) entries)
          (mergeFields_visible path (depth + 1) entries) hrest
      | unfit kind? payload =>
        rcases visibleElement_unfit depth kind? payload with h | h <;> rw [h] <;> exact hrest
      | _ => exact hrest
    · exact hrest
end

/-- The visible part of an object is merged as the object is. -/
theorem mergeDocument_visible (entries : List (String × Value)) :
    mergeDocument detect (extracted s (visibleEntries s 1 entries)) =
      mergeDocument detect (extracted s entries) := by
  funext a
  simp only [mergeDocument, extracted, mergeObject, isEmpty_fieldSamples_visible, mergeFields_visible,
    fieldPaths_visible]

end Merges

/-! ## Documents -/

theorem entriesOf_visible (d : Value) : entriesOf (visible s d) = visibleEntries s 1 (entriesOf d) := by
  cases d with
  | unfit kind? payload =>
    cases kind? with
    | none => simp only [visible, visibleValue, entriesOf, visibleEntries]
    | some kind => cases kind <;> simp only [visible, visibleValue, entriesOf, visibleEntries, Value.untyped]
  | _ => simp only [visible, visibleValue, entriesOf, visibleEntries, Value.untyped]

/-- The visible part of a document is refused with the fault that the document is refused with. -/
theorem fault?_visible (d : Value) : fault? (incidents s (visible s d)) = fault? (incidents s d) := by
  cases d with
  | map entries =>
    rw [visible, incidents, incidents, fault?_append, fault?_append, keyFaults_visible,
      fault?_fieldIncidents_visible]
  | sequence items => simp only [visible, visibleValue, incidents, Value.kind?]
  | unfit kind? payload =>
    cases kind? with
    | none => rfl
    | some kind => cases kind <;> rfl
  | _ => rfl

/-- Content that the visible part of a document leaves out has no influence: two documents with one
visible part are refused alike, or extracted with the same paths, and then to merge either into a state
is to merge the other. Nothing is asked of the documents or of the state. -/
theorem extract_hidden_irrelevant (s : ExtractionSettings) (detect : Bool) (d d' : Value)
    (h : visible s d = visible s d') :
    (∃ f, extract s d = .error f ∧ extract s d' = .error f) ∨
      ∃ e e', extract s d = .ok e ∧ extract s d' = .ok e' ∧ e.paths = e'.paths ∧
        ∀ a, Schema.mergeDocument detect e a = Schema.mergeDocument detect e' a := by
  have hfault : fault? (incidents s d) = fault? (incidents s d') := by
    rw [← fault?_visible d, ← fault?_visible d', h]
  have hentries : visibleEntries s 1 (entriesOf d) = visibleEntries s 1 (entriesOf d') := by
    rw [← entriesOf_visible, ← entriesOf_visible, h]
  rw [extract, extract, ← hfault]
  split
  · exact .inl ⟨_, rfl, rfl⟩
  · refine .inr ⟨_, _, rfl, rfl, ?_, fun a => ?_⟩
    · rw [extracted, extracted, ← fieldPaths_visible "" 1 (entriesOf d), hentries, fieldPaths_visible]
    · rw [← mergeDocument_visible (entriesOf d), hentries, mergeDocument_visible]

/-- A hidden entry, a third element of an array, an object cut off, an inner array and a binary payload
in one document, and others in their place in the other. -/
theorem extract_hidden_irrelevant_pair :
    let s : ExtractionSettings := { maxDepth := 2, arraySampleSize := 2 }
    let d : Value := .map [("__v", .int 1), ("a", .sequence [.null, .sequence [.int 1], .string "x"]),
      ("m", .map [("deep", .map [("x", .int 1)])]), ("b", .binary (some [1]))]
    let d' : Value := .map [("a", .sequence [.null, .sequence []]),
      ("m", .map [("$set", .null), ("deep", .map [])]), ("b", .binary (some [2, 3])), ("__w", .map [])]
    visible s d = visible s d' ∧
      ∃ e e', extract s d = .ok e ∧ extract s d' = .ok e' ∧ e.paths = ["a[]", "m", "m.deep", "b"] ∧
        e.paths = e'.paths ∧ ∀ a, Schema.mergeDocument true e a = Schema.mergeDocument true e' a := by
  intro s d d'
  have hvisible : visible s d = visible s d' := rfl
  rcases extract_hidden_irrelevant s true d d' hvisible with ⟨f, hf, -⟩ | ⟨e, e', he, he', h⟩
  · cases hf
  · cases he
    exact ⟨hvisible, _, e', rfl, he', rfl, h⟩

end Extraction

end DocSchema
