import DocSchema.Proofs.Extraction.Place
import DocSchema.Proofs.Merge.Event

/-!
# A merge is a run

The events that a document calls for can be read off its objects and their places. A merge runs
through some of them; it leaves out no event unless it stops at a leaf or is refused a name.

- `mergeDocument_traced`: a merge runs through events of its document.
- `mergeAll_traced`: so do merges one after the other.
-/

namespace DocSchema.Schema

variable (detect : Bool) (top : String)

/-! ## The events of a document -/

/-- The event of a field of an object that stands at a place. -/
def fieldEvent (place : Place) : FieldSample → Event
  | .mk key path kind leaves _ =>
    .field (Place.owner top place) key (Path.logical path) (kind == .null) (kind == .sequence)
      (leafKinds detect leaves).1

/-- The event of an object that stands at a place. -/
def objectEvent : Place → ObjectSample → Event
  | [], object => .document (!object.isEmpty)
  | key :: up, object =>
    if object.isEmpty then .empty (Place.owner top up) key else .nested (Place.owner top up) key

/-- The events of an object that stands at a place and of its fields. -/
def placedEvents (p : Place × ObjectSample) : List Event :=
  objectEvent top p.1 p.2 :: p.2.fields.map (fieldEvent detect top p.1)

/-- The events that a document calls for. -/
def documentEvents (e : Extracted) : List Event :=
  e.placed.flatMap (placedEvents detect top) ++ .finish :: e.paths.map .record

/-- Merges what documents show, one after the other. A merge that stops keeps what it has merged. -/
def mergeAll (es : List Extracted) (a : Accumulator) : Accumulator :=
  es.foldl (fun a e => (mergeDocument detect e a).state) a

/-- A merge from a state runs through events of a list, and through all of them if it neither stops
nor ends with a name refused. -/
def Traced (a : Accumulator) (m : Merging) (events : List Event) : Prop :=
  ∃ es, Run a es m.state ∧ (∀ e ∈ es, e ∈ events) ∧
    (m.fault? = none → m.state.collisions = [] → es.Perm events)

variable {detect top} {a : Accumulator} {m : Merging} {events events' : List Event}

namespace Traced

theorem nil (a : Accumulator) : Traced a ⟨a, none⟩ [] :=
  ⟨[], .nil a, fun _ h => h, fun _ _ => .nil⟩

theorem perm (h : Traced a m events) (hp : events.Perm events') : Traced a m events' := by
  obtain ⟨es, run, sub, all⟩ := h
  exact ⟨es, run, fun e he => hp.mem_iff.1 (sub e he), fun hf hc => (all hf hc).trans hp⟩

theorem cons {e : Event} (he : e.Enabled a) (h : Traced (e.apply a) m events) :
    Traced a m (e :: events) := by
  obtain ⟨es, run, sub, all⟩ := h
  refine ⟨e :: es, .cons he run, fun f hf => ?_, fun hf hc => (all hf hc).cons e⟩
  rcases List.mem_cons.1 hf with rfl | hf
  · exact List.mem_cons_self
  · exact List.mem_cons_of_mem _ (sub f hf)

/-- A merge that stops, or that a name is refused to, may leave out events. -/
theorem cut {e : Event} (he : e.Enabled a) (hm : m.state = e.apply a) (hin : e ∈ events)
    (hstop : m.fault? = none → m.state.collisions ≠ []) : Traced a m events := by
  refine ⟨[e], ?_, fun f hf => ?_, fun hf hc => absurd hc (hstop hf)⟩
  · rw [hm]
    exact .single he
  · rw [List.mem_singleton.1 hf]
    exact hin

/-- A merge goes on from where it was. -/
theorem andThen {next : Accumulator → Merging} (h : Traced a m events)
    (hnext : ∀ es, Run a es m.state → Traced m.state (next m.state) events') :
    Traced a (m.andThen next) (events ++ events') := by
  obtain ⟨es, run, sub, all⟩ := h
  cases hf : m.fault? with
  | some f =>
    rw [Merging.fault_andThen hf]
    refine ⟨es, run, fun e he => List.mem_append_left _ (sub e he), fun hn => ?_⟩
    rw [hf] at hn
    cases hn
  | none =>
    obtain ⟨fs, run', sub', all'⟩ := hnext es run
    have hm : m.andThen next = next m.state := by simp [Merging.andThen, hf]
    rw [hm]
    refine ⟨es ++ fs, run.append run', fun e he => ?_, fun hf' hc => ?_⟩
    · rcases List.mem_append.1 he with he | he
      · exact List.mem_append_left _ (sub e he)
      · exact List.mem_append_right _ (sub' e he)
    · have hc' : m.state.collisions = [] := by
        have hp := run'.collisions_prefix
        rw [hc] at hp
        exact List.prefix_nil.1 hp
      exact (all hf hc').append (all' hf' hc)

end Traced

/-! ## Leaves and fields -/

/-- A leaf never has the kind of nested objects. -/
theorem ne_nested_of_classify {v : Value} {k : SemanticType} (h : classify detect v = .ok (some k)) :
    k ≠ .nested := by
  rintro rfl
  cases v with
  | int n => revert h; simp only [classify]; split <;> simp
  | string s => revert h; simp only [classify, classifyText]; split <;> simp
  | map entries => cases entries <;> simp [classify] at h
  | unfit kind? payload =>
    revert h
    simp only [classify, classifyUnfit]
    split <;> try simp
    · simp only [classifyNumber]
      split <;> try simp
      split <;> simp
    · split <;> try simp
      split <;> simp
    · split <;> simp
  | _ => simp [classify] at h

theorem leafKinds_nested (leaves : List Value) : (leafKinds detect leaves).1.contains .nested = false := by
  induction leaves with
  | nil => rfl
  | cons v leaves ih =>
    rw [leafKinds]
    split
    · rfl
    · rename_i kind? hk
      cases kind? with
      | none => exact ih
      | some k => simpa [ne_nested_of_classify hk] using ih

theorem fieldEvent_enabled {place : Place} (h : (a.context? (Place.owner top place)).isSome)
    (f : FieldSample) : (fieldEvent detect top place f).Enabled a := by
  obtain ⟨key, path, kind, leaves, objects⟩ := f
  exact ⟨h, leafKinds_nested leaves⟩

/-- What is known of the field of an event, once the event has come. -/
theorem field?_fieldEvent {place : Place} (h : (a.context? (Place.owner top place)).isSome)
    {f : FieldSample} (hf : f.isNull = false) :
    ∃ s, ((fieldEvent detect top place f).apply a).field? (Place.owner top place) f.key = some s ∧
      0 < s.nonNull := by
  obtain ⟨key, path, kind, leaves, objects⟩ := f
  rw [fieldEvent, Event.field?_field h, FieldSample.key, if_pos ⟨rfl, rfl⟩]
  refine ⟨_, rfl, ?_⟩
  have hk : (kind == ValueKind.null) = false := hf
  simp [FieldStats.see, hk]

/-! ## Nested objects -/

/-- A name that is refused is noted, or was noted before. -/
theorem collisions_ne_nil_of_refused {owner : Owner} {key : String}
    (h : (enter a owner key).2 = false) : ((Event.nested owner key).apply a).collisions ≠ [] := by
  have hg := (not_congr (@Event.granted_iff a owner key)).1 (by rw [h]; decide)
  simp only [Classical.not_forall] at hg
  obtain ⟨c, hc, hp⟩ := hg
  rw [Event.collisions_nested]
  simp only [hc]
  split
  · rename_i hr
    obtain ⟨d, hd, -⟩ := CollisionLog.contains_iff.1 (hr.resolve_left hp)
    exact List.ne_nil_of_mem hd
  · simp

theorem mergeNested_cons (owner : Owner) (key : String) (object : ObjectSample)
    (objects : List ObjectSample) (a : Accumulator) :
    mergeNested detect owner key (object :: objects) a =
      (if object.isEmpty then ⟨(Event.empty owner key).apply a, none⟩
        else if (enter a owner key).2 then
          mergeFields detect (.nested (Naming.nestedTypeName (a.ownerName owner) key)) object.fields
            ((Event.nested owner key).apply a)
        else ⟨(Event.nested owner key).apply a, none⟩ : Merging).andThen
        (mergeNested detect owner key objects) := by
  rw [mergeNested]
  congr 1
  obtain ⟨path, fields⟩ := object
  by_cases he : (ObjectSample.mk path fields).isEmpty
  · rw [if_pos he, if_pos he]
    rfl
  · have hp : (!fields.isEmpty) = true := by
      simpa [ObjectSample.isEmpty, ObjectSample.fields] using he
    rw [if_neg he, if_neg he]
    simp only [Event.apply, enter, mergeObject, hp, ObjectSample.fields]
    split <;> rfl

/-! ## Documents -/

open ObjectSample (placedFields placedObjects)

theorem flatMap_ite_nil {α β : Type} (b : Bool) (l : List α) (g : α → List β) :
    (if b then [] else l).flatMap g = if b then [] else l.flatMap g := by
  split <;> rfl

theorem mergeFields_cons (owner : Owner) (f : FieldSample) (fields : List FieldSample) (a : Accumulator) :
    mergeFields detect owner (f :: fields) a =
      (mergeField detect owner f a).andThen (mergeFields detect owner fields) := by
  rw [mergeFields]

theorem mergeField_eq (place : Place) (f : FieldSample) (a : Accumulator) :
    mergeField detect (Place.owner top place) f a =
      if f.isNull then ⟨(fieldEvent detect top place f).apply a, none⟩
      else
        match (leafKinds detect f.leaves).2 with
        | some fault => ⟨(fieldEvent detect top place f).apply a, some fault⟩
        | none =>
          mergeNested detect (Place.owner top place) f.key f.objects
            ((fieldEvent detect top place f).apply a) := by
  obtain ⟨key, path, kind, leaves, objects⟩ := f
  rw [mergeField]
  rfl

/-- A field is seen, and then the objects in it are gone through unless it holds a null. -/
theorem mergeField_traced {place : Place} {f : FieldSample} (a : Accumulator)
    (ha : (a.context? (Place.owner top place)).isSome)
    (hobjects : f.isNull = false →
      Traced ((fieldEvent detect top place f).apply a)
        (mergeNested detect (Place.owner top place) f.key f.objects
          ((fieldEvent detect top place f).apply a)) events) :
    Traced a (mergeField detect (Place.owner top place) f a)
      (fieldEvent detect top place f :: if f.isNull then [] else events) := by
  have he : (fieldEvent detect top place f).Enabled a := fieldEvent_enabled ha f
  rw [mergeField_eq]
  cases hn : f.isNull with
  | true => exact .cons he (.nil _)
  | false =>
    simp only [Bool.false_eq_true, if_false]
    split
    · exact .cut he rfl List.mem_cons_self fun h => by simp at h
    · exact .cons he (hobjects hn)

theorem nested_typeName {up : Place} (htop : a.root.name = top) (key : String) :
    .nested (Naming.nestedTypeName (a.ownerName (Place.owner top up)) key) = Place.owner top (key :: up) := by
  cases up with
  | nil => rw [Place.owner, Accumulator.ownerName, htop]; rfl
  | cons _ _ => rfl

/-- An object in a field is noted, and then its fields are gone through if it has any and the name of
its type is granted. -/
theorem mergeOne_traced {up : Place} {key : String} {object : ObjectSample} (a : Accumulator)
    (htop : a.root.name = top) (ha : ∃ s, a.field? (Place.owner top up) key = some s ∧ 0 < s.nonNull)
    (hnil : object.isEmpty = true → events = [])
    (hfields : (((Event.nested (Place.owner top up) key).apply a).context?
        (Place.owner top (key :: up))).isSome →
      Traced ((Event.nested (Place.owner top up) key).apply a)
        (mergeFields detect (Place.owner top (key :: up)) object.fields
          ((Event.nested (Place.owner top up) key).apply a)) events) :
    Traced a
      (if object.isEmpty then ⟨(Event.empty (Place.owner top up) key).apply a, none⟩
        else if (enter a (Place.owner top up) key).2 then
          mergeFields detect (.nested (Naming.nestedTypeName (a.ownerName (Place.owner top up)) key))
            object.fields ((Event.nested (Place.owner top up) key).apply a)
        else ⟨(Event.nested (Place.owner top up) key).apply a, none⟩)
      (objectEvent top (key :: up) object :: events) := by
  have hempty : (Event.empty (Place.owner top up) key).Enabled a := ha
  have hnested : (Event.nested (Place.owner top up) key).Enabled a := ha
  rw [objectEvent]
  split
  · rename_i he
    rw [hnil he]
    exact .cons hempty (.nil _)
  · split
    · refine .cons hnested ?_
      rw [nested_typeName htop]
      refine hfields ?_
      simp only [← Accumulator.head?_isSome, Event.head?_nested]
      rw [if_pos (nested_typeName htop key).symm]
      rfl
    · rename_i hrefused
      exact .cut hnested rfl List.mem_cons_self fun _ =>
        collisions_ne_nil_of_refused (Bool.eq_false_iff.2 hrefused)

mutual
theorem mergeFields_traced (place : Place) : ∀ (fields : List FieldSample) (a : Accumulator),
    a.root.name = top → (a.context? (Place.owner top place)).isSome →
    Traced a (mergeFields detect (Place.owner top place) fields a)
      (fields.map (fieldEvent detect top place) ++
        (placedFields place fields).flatMap (placedEvents detect top))
  | [], a, _, _ => by
    rw [mergeFields]
    exact .nil a
  | .mk key path kind leaves objects :: fields, a, htop, ha => by
    rw [mergeFields_cons]
    refine .perm (.andThen (mergeField_traced a ha fun hn =>
      mergeNested_traced place key objects _ ((Event.rootName_apply _).trans htop)
        (field?_fieldEvent ha hn)) fun es run =>
      mergeFields_traced place fields _ (run.rootName.trans htop) (run.context?_isSome ha)) ?_
    -- the events of the later fields come behind those of the objects in this one
    rw [List.map_cons, ObjectSample.placedFields_cons, List.flatMap_append, flatMap_ite_nil,
      List.cons_append, List.cons_append]
    refine .cons _ ?_
    rw [← List.append_assoc, ← List.append_assoc]
    exact List.perm_append_comm.append_right _
theorem mergeNested_traced (up : Place) (key : String) :
    ∀ (objects : List ObjectSample) (a : Accumulator), a.root.name = top →
    (∃ s, a.field? (Place.owner top up) key = some s ∧ 0 < s.nonNull) →
    Traced a (mergeNested detect (Place.owner top up) key objects a)
      ((placedObjects (key :: up) objects).flatMap (placedEvents detect top))
  | [], a, _, _ => by
    rw [mergeNested]
    exact .nil a
  | .mk path fields :: objects, a, htop, ⟨s, hs, hpos⟩ => by
    rw [mergeNested_cons, placedObjects, List.flatMap_append, ObjectSample.placed, List.flatMap_cons]
    refine .andThen (mergeOne_traced a htop ⟨s, hs, hpos⟩ (fun he => ?_) fun hc =>
      mergeFields_traced (key :: up) fields _ ((Event.rootName_apply _).trans htop) hc)
      fun es run => mergeNested_traced up key objects _ (run.rootName.trans htop) ?_
    · have hnil : fields = [] := by simpa [ObjectSample.isEmpty, ObjectSample.fields] using he
      rw [hnil]
      rfl
    · obtain ⟨t, ht, -, hle⟩ := run.field?_mono hs
      exact ⟨t, ht, Nat.lt_of_lt_of_le hpos hle⟩
end

theorem recordPaths_run (paths : List String) (a : Accumulator) :
    Run a (paths.map .record) (a.recordPaths paths) := by
  induction paths generalizing a with
  | nil => exact .nil a
  | cons p paths ih => exact .cons trivial (ih _)

/-- The merge of an object at the top level runs through events of the objects below it. -/
theorem mergeRoot_traced (o : ObjectSample) (a : Accumulator) (htop : a.root.name = top) :
    Traced a (mergeObject detect .root o a) ((o.placed []).flatMap (placedEvents detect top)) := by
  obtain ⟨path, fields⟩ := o
  rw [mergeObject, ObjectSample.placed, List.flatMap_cons]
  refine .cons (e := .document (!fields.isEmpty)) trivial ?_
  exact mergeFields_traced [] fields _ ((Event.rootName_apply _).trans htop) rfl

/-- The merge of a document runs through events of the document. -/
theorem mergeDocument_traced (e : Extracted) (a : Accumulator) (htop : a.root.name = top) :
    Traced a (mergeDocument detect e a) (documentEvents detect top e) := by
  rw [mergeDocument, documentEvents, Extracted.placed]
  refine .andThen (mergeRoot_traced e.root a htop) fun es run =>
    ⟨.finish :: e.paths.map .record, .cons trivial (recordPaths_run _ _), fun _ h => h,
      fun _ _ => .refl _⟩

/-- Documents that are merged one after the other run through events of theirs, and through all of
them if no merge stops and no name is refused. -/
theorem mergeAll_traced (es : List Extracted) (a : Accumulator) (htop : a.root.name = top) :
    ∃ events, Run a events (mergeAll detect es a) ∧
      (∀ e ∈ events, e ∈ es.flatMap (documentEvents detect top)) ∧
      ((∀ e ∈ es, ∀ a, (mergeDocument detect e a).fault? = none) →
        (mergeAll detect es a).collisions = [] → events.Perm (es.flatMap (documentEvents detect top))) := by
  induction es generalizing a with
  | nil => exact ⟨[], .nil a, fun _ h => h, fun _ _ => .nil⟩
  | cons e es ih =>
    obtain ⟨fs, run, sub, all⟩ := @mergeDocument_traced detect _ e a htop
    obtain ⟨gs, run', sub', all'⟩ := ih _ (run.rootName.trans htop)
    refine ⟨fs ++ gs, run.append run', fun f hf => ?_, fun hfault hc => ?_⟩
    · rw [List.flatMap_cons]
      rcases List.mem_append.1 hf with hf | hf
      · exact List.mem_append_left _ (sub f hf)
      · exact List.mem_append_right _ (sub' f hf)
    · have hc' : (mergeDocument detect e a).state.collisions = [] := by
        have hp := run'.collisions_prefix
        rw [show (mergeAll detect es (mergeDocument detect e a).state).collisions = [] from hc] at hp
        exact List.prefix_nil.1 hp
      rw [List.flatMap_cons]
      exact (all (hfault e List.mem_cons_self a) hc').append
        (all' (fun f hf => hfault f (List.mem_cons_of_mem _ hf)) hc)

theorem collection_mergeAll (es : List Extracted) (a : Accumulator) :
    (mergeAll detect es a).collection = a.collection := by
  obtain ⟨_, run, -⟩ := @mergeAll_traced detect a.root.name es a rfl
  exact run.collection

end DocSchema.Schema
