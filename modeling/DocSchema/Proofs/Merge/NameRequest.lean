import DocSchema.Proofs.Merge.Trace

/-!
# What the objects of a document ask for

An object with fields, below the top level of a document, asks for the name of a type on behalf of the
path of the field that it is in. Which objects a merge comes to, and which of them are granted their
name, depends on the state: the fields of an object that is refused are not looked at, and nothing comes
after a leaf that stops the merge. So the requests are listed along the merge, with the states that it
goes through, and what holds between a state, the requests and the state after them is shown by one
induction.

- `NameRequest`, `requests`: the requests of a document, in the order in which a merge comes to them.
- `Followed`: a relation between states and the requests between them that every step of a merge keeps.
- `Followed.mergeDocument`: such a relation holds of a merge.
-/

namespace DocSchema

/-- The keys of an object. -/
def ObjectSample.keys (o : ObjectSample) : List String :=
  o.fields.map FieldSample.key

/-- What becomes of a merge under way: something that the state leads to, or what there is to say of a
merge that has stopped. -/
def Merging.elim {α : Type} (m : Merging) (stopped : α) (next : Accumulator → α) : α :=
  match m.fault? with
  | none => next m.state
  | some _ => stopped

namespace Schema

/-- The request of an object with fields: for the name of a type, which is granted or refused, on behalf
of the path of a field of the parent type. -/
structure NameRequest where
  typeName : String
  path : String
  parent : String
  granted : Bool
  object : ObjectSample

/-- The request of an object with fields that is in a field of an owner. -/
def requestOf (a : Accumulator) (owner : Owner) (key : String) (object : ObjectSample) : NameRequest where
  typeName := Naming.nestedTypeName (a.ownerName owner) key
  path := knownPath a owner key
  parent := a.ownerName owner
  granted := (enter a owner key).2
  object

variable (detect : Bool)

/-- The event of a field of an owner. -/
def seenEvent (owner : Owner) (f : FieldSample) : Event :=
  .field owner f.key (Path.logical f.path) f.isNull f.isArray (leafKinds detect f.leaves).1

/-- Merges one of the objects in a field of an owner. -/
def mergeOne (owner : Owner) (key : String) (object : ObjectSample) (a : Accumulator) : Merging :=
  if object.isEmpty then ⟨(Event.empty owner key).apply a, none⟩
  else if (enter a owner key).2 then
    mergeFields detect (.nested (requestOf a owner key object).typeName) object.fields
      ((Event.nested owner key).apply a)
  else ⟨(Event.nested owner key).apply a, none⟩

/-- Whether a merge looks at the objects in a field: the field is not null, and no leaf of it stops the
merge. -/
def opens (f : FieldSample) : Bool :=
  !f.isNull && (leafKinds detect f.leaves).2.isNone

mutual
/-- The requests of the objects in some fields of an owner. -/
def requestsOfFields (owner : Owner) : List FieldSample → Accumulator → List NameRequest
  | [], _ => []
  | f :: fields, a =>
    requestsOfField owner f a ++ (mergeField detect owner f a).elim [] (requestsOfFields owner fields)
/-- The requests of the objects in a field of an owner. -/
def requestsOfField (owner : Owner) : FieldSample → Accumulator → List NameRequest
  | .mk key path kind leaves objects, a =>
    if opens detect (.mk key path kind leaves objects) then
      requestsOfObjects owner key objects
        ((seenEvent detect owner (.mk key path kind leaves objects)).apply a)
    else []
/-- The requests of objects in a field of an owner. -/
def requestsOfObjects (owner : Owner) (key : String) : List ObjectSample → Accumulator → List NameRequest
  | [], _ => []
  | object :: objects, a =>
    requestsOfObject owner key object a ++
      (mergeOne detect owner key object a).elim [] (requestsOfObjects owner key objects)
/-- The requests of an object in a field of an owner: its own and, if it is granted its name, those of the
objects in its fields. -/
def requestsOfObject (owner : Owner) (key : String) : ObjectSample → Accumulator → List NameRequest
  | .mk path fields, a =>
    if fields.isEmpty then []
    else
      requestOf a owner key (.mk path fields) ::
        if (enter a owner key).2 then
          requestsOfFields (.nested (requestOf a owner key (.mk path fields)).typeName) fields
            ((Event.nested owner key).apply a)
        else []
end

/-- The requests of a document, in the order in which a merge comes to them. -/
def requests (e : Extracted) (a : Accumulator) : List NameRequest :=
  requestsOfFields detect .root e.root.fields ((Event.document !e.root.isEmpty).apply a)

variable {detect} {a b c : Accumulator} {owner : Owner}

theorem mergeField_opens (f : FieldSample) (a : Accumulator) :
    mergeField detect owner f a =
      if opens detect f then
        mergeNested detect owner f.key f.objects ((seenEvent detect owner f).apply a)
      else ⟨(seenEvent detect owner f).apply a, if f.isNull then none else (leafKinds detect f.leaves).2⟩ := by
  obtain ⟨key, path, kind, leaves, objects⟩ := f
  simp only [mergeField, opens, seenEvent, FieldSample.isNull, FieldSample.isArray, FieldSample.key,
    FieldSample.kind, FieldSample.leaves, FieldSample.objects, FieldSample.path, Event.apply]
  split
  · rename_i hnull
    simp [hnull]
  · rename_i hnull
    split <;> rename_i hfault <;> simp [hnull, hfault]

theorem mergeNested_one (owner : Owner) (key : String) (object : ObjectSample) (objects : List ObjectSample)
    (a : Accumulator) :
    mergeNested detect owner key (object :: objects) a =
      (mergeOne detect owner key object a).andThen (mergeNested detect owner key objects) :=
  mergeNested_cons ..

/-! ## Relations along a merge -/

/-- A relation between two states of a merge and the requests between them, for an object of an owner
with some keys, that every step of a merge keeps. -/
structure Followed
    (R : Owner → List String → Accumulator → List NameRequest → Accumulator → Prop) : Prop where
  stay : ∀ owner keys a, R owner keys a [] a
  trans : ∀ {owner keys a b c l l'}, R owner keys a l b → R owner keys b l' c → R owner keys a (l ++ l') c
  field : ∀ {owner keys key} a path isNull isArray kinds, key ∈ keys →
    R owner keys a [] ((Event.field owner key path isNull isArray kinds).apply a)
  empty : ∀ {owner keys key} a, key ∈ keys → R owner keys a [] ((Event.empty owner key).apply a)
  nested : ∀ {owner keys key} a object, key ∈ keys → object.isEmpty = false →
    R owner keys a [requestOf a owner key object] ((Event.nested owner key).apply a)
  granted : ∀ {owner keys} {a b c : Accumulator} {x : NameRequest} {l}, R owner keys a [x] b →
    x.granted = true → R (.nested x.typeName) x.object.keys b l c → R owner keys a (x :: l) c
  document : ∀ keys a populated, R .root keys a [] ((Event.document populated).apply a)
  finish : ∀ keys a, R .root keys a [] (Event.finish.apply a)
  record : ∀ keys a path, R .root keys a [] ((Event.record path).apply a)

namespace Followed

variable {R : Owner → List String → Accumulator → List NameRequest → Accumulator → Prop}
  {keys : List String} {l l' : List NameRequest}

theorem andThen (h : Followed R) {m : Merging} {next : Accumulator → Merging}
    {after : Accumulator → List NameRequest} (hm : R owner keys a l m.state)
    (hnext : ∀ b, R owner keys b (after b) (next b).state) :
    R owner keys a (l ++ m.elim [] after) (m.andThen next).state := by
  rw [Merging.elim, Merging.andThen]
  cases m.fault? with
  | none => exact h.trans hm (hnext m.state)
  | some fault => simpa using hm

theorem seen (h : Followed R) {f : FieldSample} (hf : f.key ∈ keys) (a : Accumulator) :
    R owner keys a [] ((seenEvent detect owner f).apply a) :=
  h.field a _ _ _ _ hf

mutual
theorem mergeFields (h : Followed R) (owner : Owner) (keys : List String) :
    ∀ (fields : List FieldSample) (a : Accumulator), (∀ f ∈ fields, f.key ∈ keys) →
    R owner keys a (requestsOfFields detect owner fields a) (Schema.mergeFields detect owner fields a).state
  | [], a, _ => by
    rw [requestsOfFields, Schema.mergeFields]
    exact h.stay owner keys a
  | f :: fields, a, hkeys => by
    rw [requestsOfFields, mergeFields_cons]
    exact h.andThen (mergeField h owner keys f a (hkeys f List.mem_cons_self)) fun b =>
      mergeFields h owner keys fields b fun g hg => hkeys g (List.mem_cons_of_mem f hg)
theorem mergeField (h : Followed R) (owner : Owner) (keys : List String) :
    ∀ (f : FieldSample) (a : Accumulator), f.key ∈ keys →
    R owner keys a (requestsOfField detect owner f a) (Schema.mergeField detect owner f a).state
  | .mk key path kind leaves objects, a, hkey => by
    have hseen : R owner keys a []
        ((seenEvent detect owner (.mk key path kind leaves objects)).apply a) := h.seen hkey a
    rw [requestsOfField, mergeField_opens]
    split
    · exact h.trans hseen (mergeNested h owner keys key hkey objects _)
    · exact hseen
theorem mergeNested (h : Followed R) (owner : Owner) (keys : List String) (key : String)
    (hkey : key ∈ keys) : ∀ (objects : List ObjectSample) (a : Accumulator),
    R owner keys a (requestsOfObjects detect owner key objects a)
      (Schema.mergeNested detect owner key objects a).state
  | [], a => by
    rw [requestsOfObjects, Schema.mergeNested]
    exact h.stay owner keys a
  | object :: objects, a => by
    rw [requestsOfObjects, mergeNested_one]
    exact h.andThen (mergeOne h owner keys key hkey object a) (mergeNested h owner keys key hkey objects)
theorem mergeOne (h : Followed R) (owner : Owner) (keys : List String) (key : String) (hkey : key ∈ keys) :
    ∀ (object : ObjectSample) (a : Accumulator),
    R owner keys a (requestsOfObject detect owner key object a)
      (Schema.mergeOne detect owner key object a).state
  | .mk path fields, a => by
    rw [requestsOfObject, Schema.mergeOne, ObjectSample.isEmpty, ObjectSample.fields]
    cases hempty : fields.isEmpty with
    | true => exact h.empty a hkey
    | false =>
      have hnested : R owner keys a [requestOf a owner key (.mk path fields)]
          ((Event.nested owner key).apply a) := h.nested a (.mk path fields) hkey hempty
      cases hgranted : (enter a owner key).2 with
      | true =>
        exact h.granted hnested hgranted
          (mergeFields h _ _ fields _ fun f hf => List.mem_map_of_mem hf)
      | false => exact hnested
end

theorem recordPaths (h : Followed R) (keys : List String) (paths : List String) (a : Accumulator) :
    R .root keys a [] (a.recordPaths paths) := by
  induction paths generalizing a with
  | nil => exact h.stay .root keys a
  | cons path paths ih => exact h.trans (h.record keys a path) (ih _)

/-- What every step of a merge keeps holds of the merge of a document and of the requests of the
document. -/
theorem mergeDocument (h : Followed R) (e : Extracted) (a : Accumulator) :
    R .root e.root.keys a (requests detect e a) (Schema.mergeDocument detect e a).state := by
  obtain ⟨⟨path, fields⟩, paths⟩ := e
  have hroot : R .root (ObjectSample.mk path fields).keys a (requests detect ⟨.mk path fields, paths⟩ a)
      (mergeObject detect .root (.mk path fields) a).state := by
    rw [mergeObject]
    exact h.trans (h.document _ a _) (h.mergeFields .root _ fields _ fun f hf => List.mem_map_of_mem hf)
  rw [Schema.mergeDocument, Merging.andThen]
  cases (mergeObject detect .root (ObjectSample.mk path fields) a).fault? with
  | some fault => exact hroot
  | none =>
    rw [← List.append_nil (requests ..)]
    exact h.trans hroot (h.trans (h.finish _ _) (h.recordPaths _ paths _))

end Followed

end Schema

end DocSchema
