import DocSchema.Proofs.Extraction.Regular
import DocSchema.Proofs.Merge.History
import DocSchema.Proofs.Merge.Trace

/-!
# The state of a run as a tally of objects

When documents have been merged as a whole and no name was refused, the state is a record of all
their events, and what it counts are objects. The fields of an owner count the objects that stand at
a place of the owner, and the context of a nested type counts its objects with fields.

- `Merged`, `Merged.of_regular`: a state in which documents have been merged as a whole.
- `Merged.field?_isSome_iff`, `countP_shows`, `Merged.contains_kind_iff`: what the fields count.
- `Merged.observations_root`, `Merged.observations_nested`: what the contexts count.
-/

namespace DocSchema

/-- Whether an object has a field with a value that passes a test of being null and of being an
array. -/
def ObjectSample.holds (o : ObjectSample) (key : String)
    (test : (isNull isArray : Bool) → Bool) : Bool :=
  o.fields.any fun f => decide (f.key = key) && test f.isNull f.isArray

theorem ObjectSample.isEmpty_of_mem_fields {o : ObjectSample} {f : FieldSample} (hf : f ∈ o.fields) :
    o.isEmpty = false := by
  rw [isEmpty, List.isEmpty_eq_false_iff]
  exact List.ne_nil_of_mem hf

theorem ObjectSample.isEmpty_of_holds {o : ObjectSample} {key : String}
    {test : (isNull isArray : Bool) → Bool} (h : o.holds key test = true) : o.isEmpty = false := by
  rw [holds, List.any_eq_true] at h
  obtain ⟨f, hf, -⟩ := h
  exact isEmpty_of_mem_fields hf

namespace Schema

open Extracted (placedIn mem_placedIn)

variable {detect : Bool} {top : String} {es : List Extracted} {a : Accumulator}

/-! ## Events of objects -/

/-- Whether an event is about an object or a field. -/
def Event.isObserved : Event → Bool
  | .finish | .record _ => false
  | _ => true

theorem countP_closing {p : Event → Bool} (hp : ∀ e, e.isObserved = false → p e = false)
    (e : Extracted) : (Event.finish :: e.paths.map .record).countP p = 0 := by
  refine List.countP_eq_zero.2 fun f hf => ?_
  rw [hp f]
  · decide
  · rcases List.mem_cons.1 hf with rfl | hf
    · rfl
    · obtain ⟨path, -, rfl⟩ := List.mem_map.1 hf
      rfl

/-- The events about objects can be counted object by object. -/
theorem countP_events {p : Event → Bool} {P : Place × ObjectSample → Bool}
    (hp : ∀ e, e.isObserved = false → p e = false)
    (hP : ∀ q ∈ placedIn es, (placedEvents detect top q).countP p = (P q).toNat) :
    (es.flatMap (documentEvents detect top)).countP p = (placedIn es).countP P := by
  have hplaced (l : List (Place × ObjectSample))
      (hl : ∀ q ∈ l, (placedEvents detect top q).countP p = (P q).toNat) :
      (l.flatMap (placedEvents detect top)).countP p = l.countP P := by
    induction l with
    | nil => rfl
    | cons q l ih =>
      rw [List.flatMap_cons, List.countP_append, hl q List.mem_cons_self,
        ih fun r hr => hl r (List.mem_cons_of_mem _ hr), List.countP_cons]
      cases P q <;> simp [Nat.add_comm]
  induction es with
  | nil => rfl
  | cons e es ih =>
    rw [placedIn, List.flatMap_cons] at hP
    rw [placedIn, List.flatMap_cons, List.flatMap_cons, List.countP_append, List.countP_append,
      documentEvents, List.countP_append, countP_closing hp, Nat.add_zero,
      hplaced e.placed fun q hq => hP q (List.mem_append_left _ hq),
      ih fun q hq => hP q (List.mem_append_right _ hq)]
    rfl

/-- An event about an object or a field is one of an object at its place. -/
theorem mem_events_iff {f : Event} (hf : f.isObserved = true) :
    f ∈ es.flatMap (documentEvents detect top) ↔ ∃ q ∈ placedIn es, f ∈ placedEvents detect top q := by
  have hclosing (e : Extracted) : f ∉ Event.finish :: e.paths.map .record := by
    intro h
    rcases List.mem_cons.1 h with rfl | h
    · cases hf
    · obtain ⟨path, -, rfl⟩ := List.mem_map.1 h
      cases hf
  simp only [List.mem_flatMap, documentEvents, List.mem_append, hclosing, or_false, mem_placedIn]
  constructor
  · rintro ⟨e, he, q, hq, h⟩
    exact ⟨q, ⟨e, he, hq⟩, h⟩
  · rintro ⟨q, ⟨e, he, hq⟩, h⟩
    exact ⟨e, he, q, hq, h⟩

theorem isObserved_of_mem {q : Place × ObjectSample} {f : Event} (hf : f ∈ placedEvents detect top q) :
    f.isObserved = true := by
  obtain ⟨place, object⟩ := q
  rw [placedEvents, List.mem_cons, List.mem_map] at hf
  rcases hf with rfl | ⟨g, -, rfl⟩
  · cases place with
    | nil => rfl
    | cons key up => rw [objectEvent]; split <;> rfl
  · cases g
    rfl

/-- A path is recorded when a document has it. -/
theorem record_mem_iff {path : String} :
    Event.record path ∈ es.flatMap (documentEvents detect top) ↔ ∃ e ∈ es, path ∈ e.paths := by
  rw [List.mem_flatMap]
  refine exists_congr fun e => and_congr_right fun _ => ?_
  have hplaced : Event.record path ∉ e.placed.flatMap (placedEvents detect top) := by
    intro h
    obtain ⟨q, -, hq⟩ := List.mem_flatMap.1 h
    cases isObserved_of_mem hq
  rw [documentEvents, List.mem_append, or_iff_right hplaced, List.mem_cons, List.mem_map]
  simp

/-- A field of an owner is seen when an object at a place of the owner has it. -/
theorem field_mem_iff {o : Owner} {k path : String} {isNull isArray : Bool} {kinds : KindSet} :
    Event.field o k path isNull isArray kinds ∈ es.flatMap (documentEvents detect top) ↔
      ∃ q ∈ placedIn es, ∃ f ∈ q.2.fields, Place.owner top q.1 = o ∧ f.key = k ∧
        Path.logical f.path = path ∧ f.isNull = isNull ∧ f.isArray = isArray ∧
        (leafKinds detect f.leaves).1 = kinds := by
  rw [mem_events_iff rfl]
  refine exists_congr fun q => and_congr_right fun _ => ?_
  obtain ⟨place, object⟩ := q
  have hobject : Event.field o k path isNull isArray kinds ≠ objectEvent top place object := by
    cases place with
    | nil => simp [objectEvent]
    | cons key up => rw [objectEvent]; split <;> simp
  simp only [placedEvents, List.mem_cons, hobject, false_or, List.mem_map]
  refine exists_congr fun f => and_congr_right fun _ => ?_
  obtain ⟨key, path', kind, leaves, objects⟩ := f
  simp [fieldEvent, FieldSample.key, FieldSample.path, FieldSample.isNull, FieldSample.isArray,
    FieldSample.kind, FieldSample.leaves]

/-- An object is noted in a field of an owner when it stands there. -/
theorem objectEvent_mem_iff {f : Event} (hf : f.isObserved = true)
    (hfield : ∀ place g, f ≠ fieldEvent detect top place g) :
    f ∈ es.flatMap (documentEvents detect top) ↔ ∃ q ∈ placedIn es, f = objectEvent top q.1 q.2 := by
  rw [mem_events_iff hf]
  refine exists_congr fun q => and_congr_right fun _ => ?_
  rw [placedEvents, List.mem_cons, List.mem_map]
  exact or_iff_left fun ⟨g, _, hg⟩ => hfield q.1 g hg.symm

theorem objectEvent_eq_nested_iff {place : Place} {object : ObjectSample} {o : Owner} {k : String} :
    .nested o k = objectEvent top place object ↔
      ∃ up, place = k :: up ∧ Place.owner top up = o ∧ object.isEmpty = false := by
  cases place with
  | nil => simp [objectEvent]
  | cons key up =>
    rw [objectEvent]
    constructor
    · intro h
      split at h
      · cases h
      · rename_i hne
        cases h
        exact ⟨up, rfl, rfl, Bool.eq_false_iff.2 hne⟩
    · rintro ⟨up', hplace, rfl, hne⟩
      cases hplace
      rw [hne]
      rfl

theorem objectEvent_eq_empty_iff {place : Place} {object : ObjectSample} {o : Owner} {k : String} :
    .empty o k = objectEvent top place object ↔
      ∃ up, place = k :: up ∧ Place.owner top up = o ∧ object.isEmpty = true := by
  cases place with
  | nil => simp [objectEvent]
  | cons key up =>
    rw [objectEvent]
    constructor
    · intro h
      split at h
      · rename_i he
        cases h
        exact ⟨up, rfl, rfl, he⟩
      · cases h
    · rintro ⟨up', hplace, rfl, he⟩
      cases hplace
      rw [he]
      rfl

theorem nested_mem_iff {o : Owner} {k : String} :
    Event.nested o k ∈ es.flatMap (documentEvents detect top) ↔
      ∃ q ∈ placedIn es, ∃ up, q.1 = k :: up ∧ Place.owner top up = o ∧ q.2.isEmpty = false := by
  rw [objectEvent_mem_iff rfl fun place g => by cases g; simp [fieldEvent]]
  exact exists_congr fun q => and_congr_right fun _ => objectEvent_eq_nested_iff

theorem empty_mem_iff {o : Owner} {k : String} :
    Event.empty o k ∈ es.flatMap (documentEvents detect top) ↔
      ∃ q ∈ placedIn es, ∃ up, q.1 = k :: up ∧ Place.owner top up = o ∧ q.2.isEmpty = true := by
  rw [objectEvent_mem_iff rfl fun place g => by cases g; simp [fieldEvent]]
  exact exists_congr fun q => and_congr_right fun _ => objectEvent_eq_empty_iff

/-! ## Counting events of objects -/

theorem shows_fieldEvent (place : Place) (f : FieldSample) (o : Owner) (k : String)
    (test : (isNull isArray : Bool) → Bool) :
    (fieldEvent detect top place f).shows o k test =
      (decide (Place.owner top place = o) && (decide (f.key = k) && test f.isNull f.isArray)) := by
  obtain ⟨key, path, kind, leaves, objects⟩ := f
  rw [fieldEvent, Event.shows, Bool.decide_and, Bool.and_assoc]
  rfl

theorem shows_objectEvent (q : Place × ObjectSample) (o : Owner) (k : String)
    (test : (isNull isArray : Bool) → Bool) : (objectEvent top q.1 q.2).shows o k test = false := by
  obtain ⟨place, object⟩ := q
  cases place with
  | nil => rfl
  | cons key up => rw [objectEvent]; split <;> rfl

/-- Among fields with different keys at most one is counted. -/
theorem countP_fields {fields : List FieldSample} (hd : (fields.map FieldSample.key).Nodup) (k : String)
    (test : (isNull isArray : Bool) → Bool) :
    fields.countP (fun f => decide (f.key = k) && test f.isNull f.isArray) =
      (fields.any fun f => decide (f.key = k) && test f.isNull f.isArray).toNat := by
  induction fields with
  | nil => rfl
  | cons f fields ih =>
    rw [List.map_cons, List.nodup_cons] at hd
    rw [List.countP_cons, List.any_cons, ih hd.2]
    by_cases hk : f.key = k
    · have hrest : (fields.any fun g => decide (g.key = k) && test g.isNull g.isArray) = false := by
        refine List.any_eq_false.2 fun g hg => ?_
        have hne : g.key ≠ k := fun h => hd.1 (hk ▸ h ▸ List.mem_map_of_mem hg)
        simp [hne]
      rw [hrest]
      cases test f.isNull f.isArray <;> simp [hk]
    · simp [hk]

/-- A field of an owner is seen once for each object with the field at a place of the owner. -/
theorem countP_shows (hd : ∀ q ∈ placedIn es, (q.2.fields.map FieldSample.key).Nodup) (o : Owner)
    (k : String) (test : (isNull isArray : Bool) → Bool) :
    (es.flatMap (documentEvents detect top)).countP (Event.shows o k test) =
      (placedIn es).countP fun q => decide (Place.owner top q.1 = o) && q.2.holds k test := by
  refine countP_events (fun e he => by cases e <;> first | rfl | cases he) fun q hq => ?_
  rw [placedEvents, List.countP_cons, shows_objectEvent, List.countP_map, ObjectSample.holds]
  simp only [Function.comp_def, shows_fieldEvent]
  cases decide (Place.owner top q.1 = o) with
  | false => simp
  | true => simpa using countP_fields (hd q hq) k test

/-- A field that an object has is seen for the owner of its place. -/
theorem countP_shows_pos {q : Place × ObjectSample} (hq : q ∈ placedIn es) {f : FieldSample}
    (hf : f ∈ q.2.fields) {test : (isNull isArray : Bool) → Bool} (ht : test f.isNull f.isArray = true) :
    0 < (es.flatMap (documentEvents detect top)).countP
      (Event.shows (Place.owner top q.1) f.key test) := by
  rw [List.countP_pos_iff]
  refine ⟨_, field_mem_iff.2 ⟨q, hq, f, hf, rfl, rfl, rfl, rfl, rfl, rfl⟩, ?_⟩
  simp [Event.shows, ht]

/-- Events that are no events of fields are counted once for each object. -/
theorem countP_objectEvents {p : Event → Bool} (hp : ∀ e, e.isObserved = false → p e = false)
    (hfield : ∀ place f, p (fieldEvent detect top place f) = false) :
    (es.flatMap (documentEvents detect top)).countP p =
      (placedIn es).countP fun q => p (objectEvent top q.1 q.2) := by
  refine countP_events hp fun q _ => ?_
  have hnone : (q.2.fields.map (fieldEvent detect top q.1)).countP p = 0 := by
    refine List.countP_eq_zero.2 fun e he => ?_
    obtain ⟨f, -, rfl⟩ := List.mem_map.1 he
    rw [hfield]
    decide
  rw [placedEvents, List.countP_cons, hnone]
  cases p (objectEvent top q.1 q.2) <;> rfl

/-! ## Merged documents -/

/-- A state in which documents have been merged as a whole, with no name refused. -/
structure Merged (detect : Bool) (top : String) (es : List Extracted) (a : Accumulator) : Prop where
  name : a.root.name = top
  clean : a.collisions = []
  records : Records a (es.flatMap (documentEvents detect top))
  distinct : ∀ q ∈ placedIn es, (q.2.fields.map FieldSample.key).Nodup

namespace Merged

/-- Regular documents that have been merged without a collision have been merged as a whole. -/
theorem of_regular {collection : String} (hregular : ∀ e ∈ es, e.root.Regular)
    (hclean : (mergeAll detect es (.fresh collection top)).collisions = []) :
    Merged detect top es (mergeAll detect es (.fresh collection top)) := by
  obtain ⟨events, run, -, hall⟩ := @mergeAll_traced detect top es (.fresh collection top) rfl
  have hall := hall (fun e he => fault?_mergeDocument (hregular e he)) hclean
  exact ⟨run.rootName, hclean, (records_of_run (.fresh collection top) run).perm hall,
    fun q hq => (regular_of_mem_placedIn hregular hq).nodup_keys⟩

variable (h : Merged detect top es a)

include h

theorem ownerName_owner (place : Place) : a.ownerName (Place.owner top place) = Place.typeName top place := by
  cases place with
  | nil => exact h.name
  | cons key up => rfl

/-- The paths that were seen are those of the documents. -/
theorem mem_seenPaths_iff {path : String} : path ∈ a.seenPaths ↔ ∃ e ∈ es, path ∈ e.paths :=
  (h.records.recorded path).trans record_mem_iff

/-! ## What the fields count -/

/-- A field of an owner is known when an object at a place of the owner has it. -/
theorem field?_isSome_iff {o : Owner} {k : String} : (a.field? o k).isSome ↔
    ∃ q ∈ placedIn es, Place.owner top q.1 = o ∧ ∃ f ∈ q.2.fields, f.key = k := by
  simp only [h.records.seen, field_mem_iff]
  constructor
  · rintro ⟨_, _, _, _, q, hq, f, hf, ho, hk, -⟩
    exact ⟨q, hq, ho, f, hf, hk⟩
  · rintro ⟨q, hq, ho, f, hf, hk⟩
    exact ⟨_, _, _, _, q, hq, f, hf, ho, hk, rfl, rfl, rfl, rfl⟩

/-- The path of a known field is that of a field of an object. -/
theorem path_of_field? {o : Owner} {k : String} (hk : (a.field? o k).isSome) :
    ∃ q ∈ placedIn es, Place.owner top q.1 = o ∧ ∃ f ∈ q.2.fields, f.key = k ∧
      (a.stats o k).path = Path.logical f.path := by
  obtain ⟨_, _, _, hin⟩ := h.records.path o k hk
  obtain ⟨q, hq, f, hf, ho, hk, hpath, -⟩ := field_mem_iff.1 hin
  exact ⟨q, hq, ho, f, hf, hk, hpath.symm⟩

/-- A field of an owner has a kind that its leaves or the objects in it have. -/
theorem contains_kind_iff (o : Owner) (k : String) (kind : SemanticType) :
    (a.stats o k).kinds.contains kind = true ↔
      (∃ q ∈ placedIn es, ∃ f ∈ q.2.fields, Place.owner top q.1 = o ∧ f.key = k ∧ f.isNull = false ∧
        (leafKinds detect f.leaves).1.contains kind = true) ∨
      ∃ q ∈ placedIn es, ∃ up, q.1 = k :: up ∧ Place.owner top up = o ∧
        kind = if q.2.isEmpty then .untyped else .nested := by
  rw [(h.records.fields o k).kinds, List.any_eq_true]
  constructor
  · rintro ⟨e, he, hkind⟩
    cases e with
    | field o' k' path isNull isArray kinds =>
      simp only [Event.showsKind, Bool.and_eq_true, decide_eq_true_eq, Bool.not_eq_true'] at hkind
      obtain ⟨⟨rfl, rfl⟩, hn, hc⟩ := hkind
      obtain ⟨q, hq, f, hf, ho, hk, -, hnull, -, rfl⟩ := field_mem_iff.1 he
      exact .inl ⟨q, hq, f, hf, ho, hk, hnull.trans hn, hc⟩
    | empty o' k' =>
      simp only [Event.showsKind, Bool.and_eq_true, decide_eq_true_eq] at hkind
      obtain ⟨⟨rfl, rfl⟩, rfl⟩ := hkind
      obtain ⟨q, hq, up, hup, ho, hempty⟩ := empty_mem_iff.1 he
      exact .inr ⟨q, hq, up, hup, ho, by rw [hempty]; rfl⟩
    | nested o' k' =>
      simp only [Event.showsKind, Bool.and_eq_true, decide_eq_true_eq] at hkind
      obtain ⟨⟨rfl, rfl⟩, rfl⟩ := hkind
      obtain ⟨q, hq, up, hup, ho, hempty⟩ := nested_mem_iff.1 he
      exact .inr ⟨q, hq, up, hup, ho, by rw [hempty]; rfl⟩
    | _ => simp [Event.showsKind] at hkind
  · rintro (⟨q, hq, f, hf, ho, hk, hn, hc⟩ | ⟨q, hq, up, hup, ho, rfl⟩)
    · exact ⟨_, field_mem_iff.2 ⟨q, hq, f, hf, ho, hk, rfl, rfl, rfl, rfl⟩, by
        simp [Event.showsKind, hn, hc]⟩
    · cases hempty : q.2.isEmpty with
      | true =>
        exact ⟨_, empty_mem_iff.2 ⟨q, hq, up, hup, ho, hempty⟩, by simp [Event.showsKind]⟩
      | false =>
        exact ⟨_, nested_mem_iff.2 ⟨q, hq, up, hup, ho, hempty⟩, by simp [Event.showsKind]⟩

/-! ## What the contexts count -/

/-- The name that an object with fields asked for is registered under the path of its field. -/
theorem registered {o : Owner} {k : String}
    (hin : Event.nested o k ∈ es.flatMap (documentEvents detect top)) :
    ∃ c, a.context? (.nested (Naming.nestedTypeName (a.ownerName o) k)) = some c ∧
      c.path = (a.stats o k).path := by
  obtain ⟨c, hc, hpath⟩ := h.records.asked o k hin
  obtain ⟨d, hd, rfl⟩ := Option.map_eq_some_iff.1 hc
  refine ⟨d, hd, hpath.resolve_right ?_⟩
  rw [h.clean]
  exact List.not_mem_nil

omit h in
/-- The objects of a nested type are those with fields and those without that stand at its path. -/
theorem observationsOf_nested {n : String} {c : TypeContext} (hc : a.context? (.nested n) = some c) :
    a.observationsOf (.nested n) = c.observations + a.emptyCount c.path := by
  rw [Accumulator.context?] at hc
  rw [Accumulator.observationsOf, hc]

theorem observations_root : a.observationsOf .root =
    (placedIn es).countP fun q => decide (Place.owner top q.1 = .root) := by
  rw [Accumulator.observationsOf, h.records.documents]
  rw [countP_objectEvents (fun e he => by cases e <;> first | rfl | cases he) fun place f => by
    cases f; rfl]
  refine List.countP_congr fun q _ => ?_
  obtain ⟨place, object⟩ := q
  cases place with
  | nil => simp [objectEvent, Event.isDocument, Place.owner]
  | cons key up => rw [objectEvent]; split <;> simp [Event.isDocument, Place.owner]

/-- The context of a nested type counts its objects with fields. -/
theorem observations_nested {n : String} {c : TypeContext} (hc : a.context? (.nested n) = some c) :
    c.observations = (placedIn es).countP fun q =>
      decide (Place.owner top q.1 = .nested n) && !q.2.isEmpty := by
  obtain ⟨-, -, hobs, -⟩ := h.records.context_of_get? hc
  rw [hobs, countP_objectEvents (fun e he => by cases e <;> first | rfl | cases he) fun place f => by
    cases f; rfl]
  refine List.countP_congr fun q hq => ?_
  obtain ⟨place, object⟩ := q
  cases place with
  | nil => simp [objectEvent, Event.asksFor, Place.owner]
  | cons key up =>
    rw [objectEvent]
    cases hempty : object.isEmpty with
    | true => simp [Event.asksFor]
    | false =>
      -- the path is that of the context, since no name was refused
      have hpath : Naming.nestedTypeName (Place.typeName top up) key = n →
          (a.stats (Place.owner top up) key).path = c.path := by
        intro hn
        obtain ⟨d, hd, hpath⟩ := h.registered (nested_mem_iff.2 ⟨_, hq, up, rfl, rfl, hempty⟩)
        rw [h.ownerName_owner, hn, hc, Option.some.injEq] at hd
        rw [hd, hpath]
      simp only [Event.asksFor, h.ownerName_owner, Place.owner_cons, Bool.false_eq_true, if_false,
        decide_eq_true_eq, Bool.not_false, Bool.and_true, Owner.nested.injEq]
      exact and_iff_left_of_imp hpath

/-- The objects without fields at a path are those in the fields known under the path. -/
theorem emptyCount_eq (path : String) : a.emptyCount path = (placedIn es).countP fun q =>
    match q.1 with
    | [] => false
    | key :: up => q.2.isEmpty && decide ((a.stats (Place.owner top up) key).path = path) := by
  rw [h.records.empties,
    countP_objectEvents (fun e he => by cases e <;> first | rfl | cases he) fun place f => by cases f; rfl]
  refine List.countP_congr fun q _ => ?_
  obtain ⟨place, object⟩ := q
  cases place with
  | nil => rfl
  | cons key up =>
    rw [objectEvent]
    cases hempty : object.isEmpty <;> simp [Event.emptyAt]

end Merged

end Schema

end DocSchema
