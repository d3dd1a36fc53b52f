import DocSchema.Proofs.Merge.Trace
import DocSchema.Proofs.Naming.Words
import DocSchema.Proofs.Schema.Fields

/-!
# The graph of schemas

The schemas of a run refer to each other by the nested types of their fields. Whatever documents were
merged, with names refused or not, a reference has a schema to refer to, every nested schema is
reached from the top-level one, and no schema reaches itself: the name of a nested type is that of its
parent with something added, so names grow along references.

- `length_lt_nestedTypeName`: the name of a nested type is longer than that of its parent.
- `coherent_of_records`: the schemas of a recorded state are coherent.
- `schemas_coherent`: so are those of any documents merged one after the other.
-/

namespace DocSchema

theorem Naming.length_lt_nestedTypeName (parent field : String) :
    parent.length < (Naming.nestedTypeName parent field).length := by
  obtain ⟨extension, hne, -, heq⟩ := Naming.exists_nestedTypeName_eq parent field
  have hlength : extension.length ≠ 0 := fun h => hne (String.length_eq_zero_iff.1 h)
  rw [heq, String.length_append]
  omega

namespace Schema

/-- A schema refers to another by the nested type of a field. -/
def Refers (es : List EntitySchema) (e e' : EntitySchema) : Prop :=
  e ∈ es ∧ e' ∈ es ∧ ∃ d ∈ e.fields, d.nestedType? = some e'.name

/-- A top-level schema and nested ones form a closed graph without cycles, which is reached from the
top-level schema. -/
structure Coherent (top : EntitySchema) (nested : List EntitySchema) : Prop where
  distinct : ((top :: nested).map EntitySchema.name).Nodup
  nestedType : ∀ e ∈ top :: nested, ∀ d ∈ e.fields, d.type = .nested ↔ d.nestedType?.isSome
  closed : ∀ e ∈ top :: nested, ∀ d ∈ e.fields, ∀ name, d.nestedType? = some name →
    ∃ e' ∈ nested, e'.name = name
  reached : ∀ e ∈ nested, Relation.TransGen (Refers (top :: nested)) top e
  acyclic : ∀ e, ¬ Relation.TransGen (Refers (top :: nested)) e e

section Records

variable {identifier? : Option String} {a : Accumulator} {es : List Event}

/-- A reference leads from the schema of an owner to that of the nested type of one of its fields. -/
theorem nestedType?_of_mem (h : Records a es) {owner : Owner} {c : TypeContext}
    (hc : a.context? owner = some c) {d : FieldDefinition}
    (hd : d ∈ (schemaOf identifier? a owner c).fields) {name : String} (hname : d.nestedType? = some name) :
    ∃ k, Event.nested owner k ∈ es ∧ name = Naming.nestedTypeName (a.ownerName owner) k := by
  rw [schemaOf_fields h hc] at hd
  obtain ⟨k, s, hs, rfl⟩ := (mem_fieldDefinitions_iff hc).1 hd
  simp only [fieldDefinition, typeOf_of_records h hs] at hname
  split at hname
  · rename_i hin
    exact ⟨k, hin, (Option.some.inj hname).symm⟩
  · cases hname

/-- Names grow along references. -/
theorem length_lt_of_refers (h : Records a es) {e e' : EntitySchema}
    (hr : Refers (schemas identifier? a) e e') : e.name.length < e'.name.length := by
  obtain ⟨he, -, d, hd, hname⟩ := hr
  obtain ⟨owner, c, hc, rfl⟩ := (mem_schemas_iff h).1 he
  obtain ⟨k, -, hk⟩ := nestedType?_of_mem h hc hd hname
  rw [schemaOf_name h hc, hk]
  exact Naming.length_lt_nestedTypeName _ _

theorem length_lt_of_reaches (h : Records a es) {e e' : EntitySchema}
    (hr : Relation.TransGen (Refers (schemas identifier? a)) e e') : e.name.length < e'.name.length := by
  induction hr with
  | single hr => exact length_lt_of_refers h hr
  | tail _ hr ih => exact Nat.lt_trans ih (length_lt_of_refers h hr)

/-- A nested type is referred to by the owner of the field that asked for it. -/
theorem exists_refers (h : Records a es) {n : String} {c : TypeContext} (hc : a.nested.get? n = some c) :
    ∃ owner c', a.context? owner = some c' ∧ (a.ownerName owner).length < n.length ∧
      Refers (schemas identifier? a) (schemaOf identifier? a owner c') (nestedEntity identifier? a c) := by
  obtain ⟨-, -, -, owner, k, hin, hn, -⟩ := h.context_of_get? hc
  have hsome := h.noted _ hin owner k (by simp [Event.concerns])
  obtain ⟨s, hs⟩ := Option.isSome_iff_exists.1 hsome
  obtain ⟨c', hc'⟩ := Option.isSome_iff_exists.1 (Accumulator.field?_isSome_of_owner hsome)
  refine ⟨owner, c', hc', ?_, (mem_schemas_iff h).2 ⟨owner, c', hc', rfl⟩,
    (mem_schemas_iff h).2 ⟨.nested n, c, hc, rfl⟩,
    fieldDefinition a (a.observationsOf owner) k s, ?_, ?_⟩
  · rw [hn]
    exact Naming.length_lt_nestedTypeName _ _
  · rw [schemaOf_fields h hc']
    exact (mem_fieldDefinitions_iff hc').2 ⟨k, s, hs, rfl⟩
  · simp only [fieldDefinition, typeOf_of_records h hs, if_pos hin]
    rw [← hn]
    exact congrArg some (h.context_named hc).1.symm

/-- Every nested schema is reached: its name is longer than that of a schema that refers to it. -/
theorem reaches_nested (h : Records a es) (size : Nat) : ∀ (n : String) (c : TypeContext), n.length = size →
    a.nested.get? n = some c → Relation.TransGen (Refers (schemas identifier? a))
      (entity identifier? a) (nestedEntity identifier? a c) := by
  induction size using Nat.strongRecOn with
  | _ size ih =>
    intro n c hsize hc
    obtain ⟨owner, c', hc', hlt, hr⟩ := exists_refers h hc
    cases owner with
    | root => exact .single hr
    | nested m => exact .tail (ih _ (hsize ▸ hlt) m c' rfl hc') hr

theorem nodup_names (h : Records a es) : ((schemas identifier? a).map EntitySchema.name).Nodup := by
  rw [schemas, List.map_cons, List.nodup_cons]
  constructor
  · intro hin
    obtain ⟨e, he, hname⟩ := List.mem_map.1 hin
    obtain ⟨n, c, hc, rfl⟩ := (mem_nestedEntities_iff h).1 he
    have hlt := length_lt_of_reaches h (@reaches_nested identifier? _ _ h _ n c rfl hc)
    rw [hname] at hlt
    exact Nat.lt_irrefl _ hlt
  · rw [map_name_nestedEntities h]
    exact a.nested.nodup_sortedKeys

/-- The schemas of a recorded state are coherent. -/
theorem coherent_of_records (h : Records a es) :
    Coherent (entity identifier? a) (nestedEntities identifier? a) where
  distinct := nodup_names h
  nestedType e he d hd := by
    obtain ⟨owner, c, hc, rfl⟩ := (mem_schemas_iff h).1 he
    rw [schemaOf_fields h hc] at hd
    obtain ⟨k, s, hs, rfl⟩ := (mem_fieldDefinitions_iff hc).1 hd
    have hnested := h.contains_nested_iff owner k
    rw [Records.stats_eq hs, ← KindSet.resolve_eq_nested_iff] at hnested
    simp only [fieldDefinition, typeOf_of_records h hs, FieldStats.resolvedType?]
    split
    · rename_i hin
      simp [hnested.2 hin]
    · rename_i hin
      refine iff_of_false (fun ht => hin (hnested.1 ?_)) (by simp)
      cases hr : s.kinds.resolve with
      | none => rw [hr] at ht; cases ht
      | some t => rw [hr] at ht; rw [show t = .nested from ht]
  closed e he d hd name hname := by
    obtain ⟨owner, c, hc, rfl⟩ := (mem_schemas_iff h).1 he
    obtain ⟨k, hin, hk⟩ := nestedType?_of_mem h hc hd hname
    obtain ⟨c', hc'⟩ := h.registered_of_nested hin
    rw [hk]
    exact ⟨_, (mem_nestedEntities_iff h).2 ⟨_, c', hc', rfl⟩, (h.context_named hc').1⟩
  reached e he := by
    obtain ⟨n, c, hc, rfl⟩ := (mem_nestedEntities_iff h).1 he
    exact reaches_nested h _ n c rfl hc
  acyclic e hr := Nat.lt_irrefl _ (length_lt_of_reaches h hr)

end Records

/-- Whatever documents have been merged, their schemas are coherent, and no field with the kind of
nested objects falls back to an opaque type. -/
theorem schemas_coherent (detect : Bool) (identifier? : Option String) (es : List Extracted)
    (collection typeName : String) :
    let a := mergeAll detect es (.fresh collection typeName)
    Coherent (entity identifier? a) (nestedEntities identifier? a) ∧
      ∀ owner key s, a.field? owner key = some s → (typeOf a s).1 = s.resolvedType?.getD .untyped := by
  obtain ⟨events, run, -⟩ := @mergeAll_traced detect typeName es (.fresh collection typeName) rfl
  have h := records_of_run (.fresh collection typeName) run
  refine ⟨coherent_of_records h, fun owner key s hs => ?_⟩
  rw [typeOf_of_records h hs]

end Schema

end DocSchema
