import DocSchema.Proofs.Merge.Trace
import DocSchema.Proofs.Value.Proper
import DocSchema.Extraction.Walk

/-!
# Rearranged documents

A value is rearranged by putting the entries of an object in it, at any depth, in another order. What a
walk over a document gathers is gathered entry by entry, so a rearranged document has the same
incidents, paths and events in another order.

- `Value.Rearranged`: the same value but for the order of entries.
- `isProper_of_rearranged`, `valueIncidents_perm`, `valuePaths_perm`, `fieldEvents_perm`: what a
  rearranged value keeps.
- `extract_rearranged`: a rearranged document is extracted, and calls for the same events.
-/

namespace DocSchema

/-- The same value but for the order of the entries of objects in it. -/
inductive Value.Rearranged : Value → Value → Prop
  | refl (v : Value) : Rearranged v v
  | trans {u v w : Value} : Rearranged u v → Rearranged v w → Rearranged u w
  /-- The entries of an object in another order. -/
  | entries {es fs : List (String × Value)} : es.Perm fs → Rearranged (.map es) (.map fs)
  /-- A change of the value of an entry. -/
  | entry (es fs : List (String × Value)) (key : String) {v w : Value} : Rearranged v w →
      Rearranged (.map (es ++ (key, v) :: fs)) (.map (es ++ (key, w) :: fs))
  /-- A change of an element of an array. -/
  | item (xs ys : List Value) {v w : Value} : Rearranged v w →
      Rearranged (.sequence (xs ++ v :: ys)) (.sequence (xs ++ w :: ys))

namespace Extraction

open Value (Rearranged isProperList isProperEntries isProperList_iff isProperEntries_iff)

variable {s : ExtractionSettings} {v w : Value}

/-! ## Gathering -/

section Gathering

variable {α β : Type}

/-- What is gathered from a list with one element changed. -/
theorem flatMap_perm_of_perm {g : α → List β} (xs ys : List α) {x y : α} (h : (g x).Perm (g y)) :
    ((xs ++ x :: ys).flatMap g).Perm ((xs ++ y :: ys).flatMap g) := by
  simp only [List.flatMap_append, List.flatMap_cons]
  exact (h.append_right _).append_left _

/-- What is gathered from the beginning of a list with one element changed. -/
theorem flatMap_take_perm {g : α → List β} (xs ys : List α) (n : Nat) {x y : α} (h : (g x).Perm (g y)) :
    (((xs ++ x :: ys).take n).flatMap g).Perm (((xs ++ y :: ys).take n).flatMap g) := by
  rw [List.take_append, List.take_append]
  cases n - xs.length with
  | zero => exact .refl _
  | succ m => exact flatMap_perm_of_perm _ _ h

/-- What is picked from the beginning of a list with one element changed. -/
theorem filterMap_take_eq {g : α → Option β} (xs ys : List α) (n : Nat) {x y : α} (h : g x = g y) :
    ((xs ++ x :: ys).take n).filterMap g = ((xs ++ y :: ys).take n).filterMap g := by
  rw [List.take_append, List.take_append]
  cases n - xs.length with
  | zero => rfl
  | succ m => simp only [List.take_succ_cons, List.filterMap_append, List.filterMap_cons, h]

end Gathering

/-! ## Proper values -/

theorem isProper_of_rearranged (h : Rearranged v w) : v.isProper = true → w.isProper = true := by
  induction h with
  | refl v => exact id
  | trans _ _ ih₁ ih₂ => exact fun hv => ih₂ (ih₁ hv)
  | entries hp =>
    simp only [Value.isProper, Bool.and_eq_true, decide_eq_true_eq, isProperEntries_iff]
    exact fun hv => ⟨(hp.map Prod.fst).nodup_iff.1 hv.1, fun e he => hv.2 e (hp.mem_iff.2 he)⟩
  | entry es fs key _ ih =>
    simp only [Value.isProper, Bool.and_eq_true, decide_eq_true_eq, isProperEntries_iff, List.map_append,
      List.map_cons, List.forall_mem_append, List.forall_mem_cons]
    exact fun hv => ⟨hv.1, hv.2.1, ih hv.2.2.1, hv.2.2.2⟩
  | item xs ys _ ih =>
    simp only [Value.isProper, isProperList_iff, List.forall_mem_append, List.forall_mem_cons]
    exact fun hv => ⟨hv.1, ih hv.2.1, hv.2.2⟩

/-- A rearranged value is of the same kind. -/
theorem kind?_of_rearranged (h : Rearranged v w) : v.kind? = w.kind? := by
  induction h with
  | trans _ _ ih₁ ih₂ => exact ih₁.trans ih₂
  | _ => rfl

/-! ## Paths -/

theorem fieldPaths_eq (path : String) (depth : Nat) (entries : List (String × Value)) :
    fieldPaths s path depth entries = entries.flatMap fun e =>
      if s.hides e.1 then [] else valuePaths s (Path.child path e.1) depth e.2 := by
  induction entries with
  | nil => rw [fieldPaths, List.flatMap_nil]
  | cons e entries ih =>
    obtain ⟨key, value⟩ := e
    rw [fieldPaths, List.flatMap_cons, ih]
    split <;> rfl

/-- The canonical paths of the fields of an object. -/
def objectPaths (s : ExtractionSettings) (path : String) (depth : Nat) : Value → List String
  | .map entries => fieldPaths s path depth entries
  | _ => []

theorem elementPaths_eq (path : String) (depth count : Nat) (items : List Value) :
    elementPaths s path depth count items = (items.take count).flatMap fun v =>
      if depth < s.maxDepth then objectPaths s path (depth + 1) v else [] := by
  induction items generalizing count with
  | nil => rw [elementPaths, List.take_nil, List.flatMap_nil]
  | cons item items ih =>
    cases count with
    | zero => rw [elementPaths, List.take_zero, List.flatMap_nil]
    | succ count =>
      rw [List.take_succ_cons, List.flatMap_cons, ← ih]
      cases item with
      | map entries => rw [elementPaths, objectPaths]
      | _ => simp [elementPaths, objectPaths]

theorem map_paths_perm {path : String} {es fs : List (String × Value)}
    (h : ∀ depth, (fieldPaths s path depth es).Perm (fieldPaths s path depth fs)) (depth : Nat) :
    (objectPaths s path depth (.map es)).Perm (objectPaths s path depth (.map fs)) ∧
      (valuePaths s path depth (.map es)).Perm (valuePaths s path depth (.map fs)) := by
  refine ⟨h depth, ?_⟩
  rw [valuePaths, valuePaths]
  split
  · exact (h _).cons _
  · exact .refl _

/-- A rearranged value has the same paths. -/
theorem valuePaths_perm (h : Rearranged v w) (path : String) (depth : Nat) :
    (objectPaths s path depth v).Perm (objectPaths s path depth w) ∧
      (valuePaths s path depth v).Perm (valuePaths s path depth w) := by
  induction h generalizing path depth with
  | refl v => exact ⟨.refl _, .refl _⟩
  | trans _ _ ih₁ ih₂ =>
    exact ⟨(ih₁ path depth).1.trans (ih₂ path depth).1, (ih₁ path depth).2.trans (ih₂ path depth).2⟩
  | entries hp =>
    refine map_paths_perm (fun depth => ?_) depth
    rw [fieldPaths_eq, fieldPaths_eq]
    exact hp.flatMap_right _
  | entry es fs key _ ih =>
    refine map_paths_perm (fun depth => ?_) depth
    rw [fieldPaths_eq, fieldPaths_eq]
    refine flatMap_perm_of_perm es fs ?_
    split
    · exact .refl _
    · exact (ih _ _).2
  | item xs ys _ ih =>
    refine ⟨.refl _, ?_⟩
    rw [valuePaths, valuePaths, elementPaths_eq, elementPaths_eq]
    refine .cons _ (flatMap_take_perm xs ys _ ?_)
    split
    · exact (ih _ _).1
    · exact .refl _

/-! ## Incidents -/

theorem keyFaults_eq (entries : List (String × Value)) :
    keyFaults s entries =
      (entries.map Prod.fst).filterMap fun key => (keyFault? key s.hiddenStarts).map .fault := by
  rw [keyFaults, List.filterMap_map]
  rfl

theorem fieldIncidents_eq (path : String) (depth : Nat) (entries : List (String × Value)) :
    fieldIncidents s path depth entries = entries.flatMap fun e =>
      if s.hides e.1 then [] else valueIncidents s (Path.child path e.1) depth e.2 := by
  induction entries with
  | nil => rw [fieldIncidents, List.flatMap_nil]
  | cons e entries ih =>
    obtain ⟨key, value⟩ := e
    rw [fieldIncidents, List.flatMap_cons, ih]
    split <;> rfl

/-- The incidents of the walk over an object. -/
def objectIncidents (s : ExtractionSettings) (path : String) (depth : Nat) : Value → List Incident
  | .map entries => keyFaults s entries ++ fieldIncidents s path depth entries
  | _ => []

/-- The incidents of the walk over an element of an array, of which inner arrays are passed over. -/
def elementIncident (s : ExtractionSettings) (path : String) (depth : Nat) : Value → List Incident
  | .sequence _ | .unfit (some .sequence) _ => []
  | .unfit none payload => [.fault (.notANode payload.typeName "is_null")]
  | v => valueIncidents s path depth v

theorem elementIncidents_eq (path : String) (depth count : Nat) (items : List Value)
    (h : isProperList items = true) :
    elementIncidents s path depth count items =
      (items.take count).flatMap (elementIncident s path depth) := by
  induction items generalizing count with
  | nil => rw [elementIncidents, List.take_nil, List.flatMap_nil]
  | cons item items ih =>
    rw [isProperList, Bool.and_eq_true] at h
    cases count with
    | zero => rw [elementIncidents, List.take_zero, List.flatMap_nil]
    | succ count =>
      rw [List.take_succ_cons, List.flatMap_cons, ← ih count h.2]
      cases item with
      | unfit kind? payload => cases h.1
      | _ => simp [elementIncidents, elementIncident]

theorem map_incidents_perm {path : String} {es fs : List (String × Value)}
    (hkeys : (es.map Prod.fst).Perm (fs.map Prod.fst))
    (h : ∀ depth, (fieldIncidents s path depth es).Perm (fieldIncidents s path depth fs)) (depth : Nat) :
    (objectIncidents s path depth (.map es)).Perm (objectIncidents s path depth (.map fs)) ∧
      (valueIncidents s path depth (.map es)).Perm (valueIncidents s path depth (.map fs)) ∧
      (elementIncident s path depth (.map es)).Perm (elementIncident s path depth (.map fs)) := by
  have hobject (depth : Nat) :
      (objectIncidents s path depth (.map es)).Perm (objectIncidents s path depth (.map fs)) := by
    rw [objectIncidents, objectIncidents, keyFaults_eq, keyFaults_eq]
    exact (hkeys.filterMap _).append (h depth)
  have hvalue : (valueIncidents s path depth (.map es)).Perm (valueIncidents s path depth (.map fs)) := by
    rw [valueIncidents, valueIncidents]
    split
    · exact hobject (depth + 1)
    · exact .refl _
  exact ⟨hobject depth, hvalue, hvalue⟩

/-- A rearranged value has the same incidents. -/
theorem valueIncidents_perm (h : Rearranged v w) (hv : v.isProper = true) (path : String) (depth : Nat) :
    (objectIncidents s path depth v).Perm (objectIncidents s path depth w) ∧
      (valueIncidents s path depth v).Perm (valueIncidents s path depth w) ∧
      (elementIncident s path depth v).Perm (elementIncident s path depth w) := by
  induction h generalizing path depth with
  | refl v => exact ⟨.refl _, .refl _, .refl _⟩
  | trans h₁ _ ih₁ ih₂ =>
    obtain ⟨ho, hval, he⟩ := ih₁ hv path depth
    obtain ⟨ho', hval', he'⟩ := ih₂ (isProper_of_rearranged h₁ hv) path depth
    exact ⟨ho.trans ho', hval.trans hval', he.trans he'⟩
  | entries hp =>
    refine map_incidents_perm (hp.map _) (fun depth => ?_) depth
    rw [fieldIncidents_eq, fieldIncidents_eq]
    exact hp.flatMap_right _
  | @entry es fs key v w _ ih =>
    have hvalue : v.isProper = true := by
      rw [Value.isProper, Bool.and_eq_true, isProperEntries_iff] at hv
      exact hv.2 _ (List.mem_append_right _ List.mem_cons_self)
    refine map_incidents_perm ?_ (fun depth => ?_) depth
    · simp only [List.map_append, List.map_cons]
      exact .refl _
    · rw [fieldIncidents_eq, fieldIncidents_eq]
      refine flatMap_perm_of_perm es fs ?_
      split
      · exact .refl _
      · exact (ih hvalue _ _).2.1
  | @item xs ys v w h ih =>
    have hw := isProper_of_rearranged (.item xs ys h) hv
    have hitem : v.isProper = true := by
      rw [Value.isProper, isProperList_iff] at hv
      exact hv _ (List.mem_append_right _ List.mem_cons_self)
    rw [Value.isProper] at hv hw
    refine ⟨.refl _, ?_, .refl _⟩
    rw [valueIncidents, valueIncidents, elementIncidents_eq _ _ _ _ hv, elementIncidents_eq _ _ _ _ hw]
    exact flatMap_take_perm xs ys _ (ih hitem _ _).2.2

/-! ## Events -/

theorem fieldSamples_eq (path : String) (depth : Nat) (entries : List (String × Value)) :
    fieldSamples s path depth entries = entries.flatMap fun e =>
      if s.hides e.1 then [] else [fieldSample s e.1 (Path.child path e.1) depth e.2] := by
  induction entries with
  | nil => rw [fieldSamples, List.flatMap_nil]
  | cons e entries ih =>
    obtain ⟨key, value⟩ := e
    rw [fieldSamples, List.flatMap_cons, ih]
    split <;> rfl

/-- The sample of an object. -/
def objectSamples (s : ExtractionSettings) (path : String) (depth : Nat) : Value → List ObjectSample
  | .map entries => [.mk path (fieldSamples s path depth entries)]
  | _ => []

theorem elementObjects_eq (path : String) (depth count : Nat) (items : List Value) :
    elementObjects s path depth count items = (items.take count).flatMap fun v =>
      if depth < s.maxDepth then objectSamples s path (depth + 1) v else [] := by
  induction items generalizing count with
  | nil => rw [elementObjects, List.take_nil, List.flatMap_nil]
  | cons item items ih =>
    cases count with
    | zero => rw [elementObjects, List.take_zero, List.flatMap_nil]
    | succ count =>
      rw [List.take_succ_cons, List.flatMap_cons, ← ih]
      cases item with
      | map entries =>
        rw [elementObjects, objectSamples]
        split <;> rfl
      | _ => simp [elementObjects, objectSamples]

section Events

variable {detect : Bool} {top : String}

open Schema (fieldEvent objectEvent placedEvents leafKinds documentEvents)
open ObjectSample (placedFields placedObjects)

/-- The events of objects that stand at a place, and of the objects below them. -/
def objectEvents (detect : Bool) (top : String) (place : Place) (objects : List ObjectSample) :
    List Schema.Event :=
  (placedObjects place objects).flatMap (placedEvents detect top)

/-- The events of a field of an object that stands at a place, and of the objects below it. -/
def fieldEvents (detect : Bool) (top : String) (place : Place) (f : FieldSample) : List Schema.Event :=
  fieldEvent detect top place f ::
    if f.isNull then [] else objectEvents detect top (f.key :: place) f.objects

theorem objectEvents_flatMap {α : Type} (place : Place) (l : List α) (g : α → List ObjectSample) :
    objectEvents detect top place (l.flatMap g) =
      l.flatMap fun x => objectEvents detect top place (g x) := by
  simp only [objectEvents, ObjectSample.placedObjects_eq, List.flatMap_assoc]

/-- The events of an object are its own and those of its fields. -/
theorem objectEvents_singleton (place : Place) (path : String) (fields : List FieldSample) :
    (objectEvents detect top place [.mk path fields]).Perm
      (objectEvent top place (.mk path fields) :: fields.flatMap (fieldEvents detect top place)) := by
  rw [objectEvents, placedObjects, placedObjects, List.append_nil, ObjectSample.placed, List.flatMap_cons,
    placedEvents, List.cons_append]
  refine .cons _ ?_
  rw [ObjectSample.fields]
  induction fields with
  | nil => exact .refl _
  | cons f fields ih =>
    rw [List.map_cons, ObjectSample.placedFields_cons, List.flatMap_append, List.flatMap_cons, fieldEvents,
      Schema.flatMap_ite_nil, List.cons_append, List.cons_append]
    refine .cons _ (List.Perm.trans ?_ (ih.append_left _))
    rw [← List.append_assoc, ← List.append_assoc]
    exact List.perm_append_comm.append_right _

theorem isEmpty_fieldSamples (path : String) (depth : Nat) (entries : List (String × Value)) :
    (fieldSamples s path depth entries).isEmpty = (entries.map Prod.fst).all s.hides := by
  induction entries with
  | nil =>
    rw [fieldSamples]
    rfl
  | cons e entries ih =>
    obtain ⟨key, value⟩ := e
    rw [fieldSamples, List.map_cons, List.all_cons]
    split
    · rename_i hhides
      rw [ih, hhides, Bool.true_and]
    · rename_i hhides
      rw [Bool.eq_false_iff.2 hhides, Bool.false_and]
      rfl

theorem objectEvent_congr {o o' : ObjectSample} (h : o.isEmpty = o'.isEmpty) (place : Place) :
    objectEvent top place o = objectEvent top place o' := by
  cases place with
  | nil => rw [objectEvent, objectEvent, h]
  | cons key up => rw [objectEvent, objectEvent, h]

theorem leafKinds_congr {leaves leaves' : List Value}
    (h : leaves.map (classify detect) = leaves'.map (classify detect)) :
    leafKinds detect leaves = leafKinds detect leaves' := by
  induction leaves generalizing leaves' with
  | nil =>
    obtain rfl : leaves' = [] := List.map_eq_nil_iff.1 h.symm
    rfl
  | cons v leaves ih =>
    cases leaves' with
    | nil => cases h
    | cons w leaves' =>
      rw [List.map_cons, List.map_cons, List.cons.injEq] at h
      rw [leafKinds, leafKinds, h.1, ih h.2]

theorem map_events_perm {es fs : List (String × Value)}
    (hkeys : (es.map Prod.fst).Perm (fs.map Prod.fst))
    (h : ∀ path depth place, ((fieldSamples s path depth es).flatMap (fieldEvents detect top place)).Perm
      ((fieldSamples s path depth fs).flatMap (fieldEvents detect top place)))
    (key path : String) (depth : Nat) (place : Place) :
    (objectEvents detect top place (objectSamples s path depth (.map es))).Perm
        (objectEvents detect top place (objectSamples s path depth (.map fs))) ∧
      (fieldEvents detect top place (fieldSample s key path depth (.map es))).Perm
        (fieldEvents detect top place (fieldSample s key path depth (.map fs))) := by
  have hobject (depth : Nat) (place : Place) :
      (objectEvents detect top place (objectSamples s path depth (.map es))).Perm
        (objectEvents detect top place (objectSamples s path depth (.map fs))) := by
    refine (objectEvents_singleton place path _).trans
      (.trans ?_ (objectEvents_singleton place path _).symm)
    have hempty : (ObjectSample.mk path (fieldSamples s path depth es)).isEmpty =
        (ObjectSample.mk path (fieldSamples s path depth fs)).isEmpty := by
      rw [ObjectSample.isEmpty, ObjectSample.isEmpty, ObjectSample.fields, ObjectSample.fields,
        isEmpty_fieldSamples, isEmpty_fieldSamples, hkeys.all_eq]
    rw [objectEvent_congr hempty]
    exact (h path depth place).cons _
  refine ⟨hobject depth place, ?_⟩
  rw [fieldSample, fieldSample]
  split
  · exact (hobject (depth + 1) (key :: place)).cons _
  · exact .refl _

/-- A rearranged value has leaves of the same types, and calls for the same events. -/
theorem fieldEvents_perm (h : Rearranged v w) (key path : String) (depth : Nat) (place : Place) :
    (leaf? s depth v).map (classify detect) = (leaf? s depth w).map (classify detect) ∧
      (objectEvents detect top place (objectSamples s path depth v)).Perm
        (objectEvents detect top place (objectSamples s path depth w)) ∧
      (fieldEvents detect top place (fieldSample s key path depth v)).Perm
        (fieldEvents detect top place (fieldSample s key path depth w)) := by
  induction h generalizing key path depth place with
  | refl v => exact ⟨rfl, .refl _, .refl _⟩
  | trans _ _ ih₁ ih₂ =>
    obtain ⟨hl, ho, hf⟩ := ih₁ key path depth place
    obtain ⟨hl', ho', hf'⟩ := ih₂ key path depth place
    exact ⟨hl.trans hl', ho.trans ho', hf.trans hf'⟩
  | entries hp =>
    refine ⟨rfl, map_events_perm (hp.map _) (fun path depth place => ?_) key path depth place⟩
    rw [fieldSamples_eq, fieldSamples_eq]
    exact (hp.flatMap_right _).flatMap_right _
  | entry es fs k _ ih =>
    refine ⟨rfl, map_events_perm ?_ (fun path depth place => ?_) key path depth place⟩
    · simp only [List.map_append, List.map_cons]
      exact .refl _
    · rw [fieldSamples_eq, fieldSamples_eq, List.flatMap_assoc, List.flatMap_assoc]
      refine flatMap_perm_of_perm es fs ?_
      split
      · exact .refl _
      · simpa using (ih k (Path.child path k) depth place).2.2
  | @item xs ys v w _ ih =>
    refine ⟨rfl, .refl _, ?_⟩
    have hleaves : leafKinds detect (leaves s depth (xs ++ v :: ys)) =
        leafKinds detect (leaves s depth (xs ++ w :: ys)) := by
      apply leafKinds_congr
      rw [leaves, leaves, List.map_filterMap, List.map_filterMap]
      exact filterMap_take_eq xs ys _ (ih key path depth place).1
    rw [fieldSample, fieldSample, fieldEvents, fieldEvents, fieldEvent, fieldEvent, hleaves]
    refine .cons _ ?_
    rw [FieldSample.objects, FieldSample.objects, elementObjects_eq, elementObjects_eq,
      objectEvents_flatMap, objectEvents_flatMap]
    refine flatMap_take_perm xs ys _ ?_
    split
    · exact (ih key _ _ _).2.1
    · exact .refl _

end Events

/-! ## Documents -/

theorem fault?_eq_none_iff {incidents : List Incident} :
    fault? incidents = none ↔ ∀ f, .fault f ∉ incidents := by
  induction incidents with
  | nil => simp [fault?]
  | cons i incidents ih =>
    cases i with
    | cut path => simp [fault?, ih]
    | fault f => exact ⟨(nomatch ·), fun h => absurd List.mem_cons_self (h f)⟩
    | unfollowed => simp [fault?, ih]

/-- What is extracted from a proper value comes from an object without a fault. -/
theorem extract_eq_ok_iff {d : Value} (hd : d.isProper = true) {e : Extracted} :
    extract s d = .ok e ↔ ∃ entries, d = .map entries ∧ e = extracted s entries ∧
      ∀ f, .fault f ∉ objectIncidents s "" 1 d := by
  rw [extract_ok_iff, fault?_eq_none_iff]
  constructor
  · rintro ⟨hfaults, rfl⟩
    cases d with
    | map entries => exact ⟨entries, rfl, rfl, hfaults⟩
    | unfit kind? payload => cases hd
    | _ => exact absurd List.mem_cons_self (hfaults _)
  · rintro ⟨entries, rfl, rfl, hfaults⟩
    exact ⟨hfaults, rfl⟩

/-- A rearranged document is extracted, and calls for the same events. -/
theorem extract_rearranged (detect : Bool) (top : String) {d d' : Value} (h : Rearranged d d')
    (hd : d.isProper = true) {e : Extracted} (he : extract s d = .ok e) :
    ∃ e', extract s d' = .ok e' ∧
      (Schema.documentEvents detect top e).Perm (Schema.documentEvents detect top e') := by
  obtain ⟨entries, rfl, rfl, hfaults⟩ := (extract_eq_ok_iff hd).1 he
  have hd' := isProper_of_rearranged h hd
  obtain ⟨entries', rfl⟩ : ∃ entries', d' = .map entries' := by
    have hkind := kind?_of_rearranged h
    cases d' with
    | map entries' => exact ⟨entries', rfl⟩
    | unfit kind? payload => cases hd'
    | _ => cases hkind
  refine ⟨extracted s entries', (extract_eq_ok_iff hd').2 ⟨entries', rfl, rfl, fun f hf => ?_⟩, ?_⟩
  · exact hfaults f ((valueIncidents_perm h hd "" 1).1.mem_iff.2 hf)
  · have hplaced (entries : List (String × Value)) :
        (extracted s entries).placed.flatMap (Schema.placedEvents detect top) =
          objectEvents detect top [] (objectSamples s "" 1 (.map entries)) := by
      rw [objectEvents, objectSamples, ObjectSample.placedObjects, ObjectSample.placedObjects, List.append_nil]
      rfl
    rw [Schema.documentEvents, Schema.documentEvents, hplaced, hplaced]
    refine (fieldEvents_perm h "" "" 1 []).2.1.append (.cons _ (.map _ ?_))
    exact (valuePaths_perm h "" 1).1

end Extraction

/-! ## Lists of documents -/

/-- The same documents in another order, and each with the entries of its objects in another order. -/
inductive Rearrangement : List Value → List Value → Prop
  | trans {ds ds' ds'' : List Value} : Rearrangement ds ds' → Rearrangement ds' ds'' → Rearrangement ds ds''
  /-- The documents in another order. -/
  | perm {ds ds' : List Value} : ds.Perm ds' → Rearrangement ds ds'
  /-- A document with its entries in another order. -/
  | document (ds ds' : List Value) {d d' : Value} : d.Rearranged d' →
      Rearrangement (ds ++ d :: ds') (ds ++ d' :: ds')

/-- Rearranged documents are extracted, and call for the same events. -/
theorem extract_rearrangement {s : ExtractionSettings} (detect : Bool) (top : String)
    {documents documents' : List Value} (h : Rearrangement documents documents')
    (hproper : ∀ d ∈ documents, d.isProper = true) {es : List Extracted}
    (hes : documents.mapM (Extraction.extract s) = .ok es) :
    (∀ d ∈ documents', d.isProper = true) ∧
      ∃ es', documents'.mapM (Extraction.extract s) = .ok es' ∧
        (es.flatMap (Schema.documentEvents detect top)).Perm
          (es'.flatMap (Schema.documentEvents detect top)) := by
  induction h generalizing es with
  | trans _ _ ih₁ ih₂ =>
    obtain ⟨hproper', es', hes', hp⟩ := ih₁ hproper hes
    obtain ⟨hproper'', es'', hes'', hp'⟩ := ih₂ hproper' hes'
    exact ⟨hproper'', es'', hes'', hp.trans hp'⟩
  | perm hp =>
    obtain ⟨es', hes', hp'⟩ := mapM_perm hp hes
    exact ⟨fun d hd => hproper d (hp.mem_iff.2 hd), es', hes', hp'.flatMap_right _⟩
  | @document ds ds' d d' h =>
    rw [List.forall_mem_append, List.forall_mem_cons] at hproper ⊢
    have hd' := Extraction.isProper_of_rearranged h hproper.2.1
    rw [mapM_eq_ok_iff, List.map_append, List.map_cons, eq_comm, List.map_eq_append_iff] at hes
    obtain ⟨es₁, es₂, rfl, hes₁, hes₂⟩ := hes
    obtain ⟨e, es₂, rfl, he, hes₂⟩ := List.map_eq_cons_iff.1 hes₂
    obtain ⟨e', he', hp⟩ := Extraction.extract_rearranged detect top h hproper.2.1 he.symm
    refine ⟨⟨hproper.1, hd', hproper.2.2⟩, es₁ ++ e' :: es₂, ?_, ?_⟩
    · rw [mapM_eq_ok_iff, List.map_append, List.map_cons, List.map_append, List.map_cons, hes₁, hes₂, he']
    · exact Extraction.flatMap_perm_of_perm es₁ es₂ hp

end DocSchema
