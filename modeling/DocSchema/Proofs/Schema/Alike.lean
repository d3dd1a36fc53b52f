import DocSchema.Proofs.Merge.Event
import DocSchema.Schema.Build
import Mathlib.Data.List.Basic

/-!
# States with the same schemas

The schemas of a state say only what can be looked up in it. Two states that know the same fields and
types, and whose definitions of each field are the same when something is left out of them, have the same
schemas when it is left out of all definitions.

- `Alike`: states whose definitions are the same once each is changed.
- `Alike.entity_eq`, `Alike.nestedEntities_eq`: what their schemas have in common.
-/

namespace DocSchema

/-- A schema with each of its definitions changed. -/
def EntitySchema.mapFields (f : FieldDefinition → FieldDefinition) (e : EntitySchema) : EntitySchema :=
  { e with fields := e.fields.map f }

theorem EntitySchema.mapFields_id : mapFields id = id :=
  funext fun e => by rw [mapFields, List.map_id, id]

/-- What the schema of a type says besides its fields, and whether there is one. -/
def TypeContext.label (c : TypeContext) : String × String × Option String × Bool :=
  (c.name, c.path, c.parent?, c.populated)

namespace Schema

/-- States that know the same fields and types, and whose definitions are the same once each is changed;
types are registered under their names. -/
structure Alike (f : FieldDefinition → FieldDefinition) (a b : Accumulator) : Prop where
  name : b.root.name = a.root.name
  collection : b.collection = a.collection
  named : ∀ n c, a.nested.get? n = some c → c.name = n
  contexts : ∀ n, (b.nested.get? n).map TypeContext.label = (a.nested.get? n).map TypeContext.label
  known : ∀ o k, (b.field? o k).isSome = (a.field? o k).isSome
  definitions : ∀ o k s t, a.field? o k = some s → b.field? o k = some t →
    f (fieldDefinition b (b.observationsOf o) k t) = f (fieldDefinition a (a.observationsOf o) k s)

variable (identifier? : Option String)

/-- The nested schemas as they are built name by name. -/
theorem nestedEntities_eq (a : Accumulator) :
    nestedEntities identifier? a = a.nested.sortedKeys.filterMap fun n =>
      ((a.nested.get? n).filter TypeContext.populated).map (nestedEntity identifier? a) := by
  rw [nestedEntities, Accumulator.populatedNested, List.filter_filterMap, List.map_filterMap]

namespace Alike

variable {f : FieldDefinition → FieldDefinition} {a b : Accumulator} (h : Alike f a b)

include h

theorem sortedKeys_fields_eq {o : Owner} {c d : TypeContext} (hc : a.context? o = some c)
    (hd : b.context? o = some d) : d.fields.sortedKeys = c.fields.sortedKeys := by
  refine Table.sortedKeys_congr fun k => ?_
  have hk := h.known o k
  rw [Accumulator.field?, Accumulator.field?, hc, hd, Option.bind_some, Option.bind_some] at hk
  rw [hk]

theorem fieldDefinitions_eq {o : Owner} {c d : TypeContext} (hc : a.context? o = some c)
    (hd : b.context? o = some d) :
    (fieldDefinitions identifier? b o d).map f = (fieldDefinitions identifier? a o c).map f := by
  have horder : fieldOrder identifier? d = fieldOrder identifier? c := by
    rw [fieldOrder, fieldOrder, h.sortedKeys_fields_eq hc hd]
  rw [fieldDefinitions, fieldDefinitions, horder, List.map_filterMap, List.map_filterMap]
  refine List.filterMap_congr fun k _ => ?_
  have hfield (x : Accumulator) {y : TypeContext} (hy : x.context? o = some y) :
      x.field? o k = y.fields.get? k := by rw [Accumulator.field?, hy, Option.bind_some]
  have hsome := h.known o k
  rw [hfield a hc, hfield b hd] at hsome
  cases hs : c.fields.get? k with
  | none =>
    rw [hs, Option.isSome_none, Option.isSome_eq_false_iff, Option.isNone_iff_eq_none] at hsome
    rw [hsome]
    rfl
  | some s =>
    rw [hs] at hsome
    obtain ⟨t, ht⟩ := Option.isSome_iff_exists.1 hsome
    rw [ht, Option.map_some, Option.map_some, Option.map_some, Option.map_some,
      h.definitions o k s t ((hfield a hc).trans hs) ((hfield b hd).trans ht)]

/-- The schemas of the top-level type differ in the number of documents, besides. -/
theorem entity_eq : (entity identifier? b).mapFields f =
    (entity identifier? { a with documentsMerged := b.documentsMerged }).mapFields f := by
  have hc : a.context? .root = some a.root := rfl
  have hd : b.context? .root = some b.root := rfl
  have hsize : b.root.fields.size = a.root.fields.size := by
    have hlength := congrArg List.length (h.sortedKeys_fields_eq hc hd)
    rwa [a.root.fields.sortedKeys_perm.length_eq, b.root.fields.sortedKeys_perm.length_eq, Table.keys,
      Table.keys, List.length_map, List.length_map] at hlength
  simp only [EntitySchema.mapFields, entity, EntitySchema.mk.injEq, and_true]
  refine ⟨h.name, h.fieldDefinitions_eq identifier? hc hd, ?_⟩
  rw [h.collection, hsize]

/-- The schemas of nested types, in the order of their names. -/
theorem nestedEntities_eq : (nestedEntities identifier? b).map (EntitySchema.mapFields f) =
    (nestedEntities identifier? a).map (EntitySchema.mapFields f) := by
  have hkeys : b.nested.sortedKeys = a.nested.sortedKeys :=
    Table.sortedKeys_congr fun n => by
      have hn := congrArg Option.isSome (h.contexts n)
      rw [Option.isSome_map, Option.isSome_map] at hn
      rw [hn]
  rw [Schema.nestedEntities_eq, Schema.nestedEntities_eq, hkeys, List.map_filterMap, List.map_filterMap]
  refine List.filterMap_congr fun n _ => ?_
  have hlabel := h.contexts n
  cases hc : a.nested.get? n with
  | none =>
    rw [hc, Option.map_none, Option.map_eq_none_iff] at hlabel
    rw [hlabel]
    rfl
  | some c =>
    rw [hc, Option.map_some] at hlabel
    obtain ⟨d, hd, hcd⟩ := Option.map_eq_some_iff.1 hlabel
    simp only [TypeContext.label, Prod.mk.injEq] at hcd
    obtain ⟨hname, hpath, hparent, hpopulated⟩ := hcd
    have hfields : (fieldDefinitions identifier? b (.nested n) d).map f =
        (fieldDefinitions identifier? a (.nested n) c).map f := h.fieldDefinitions_eq identifier? hc hd
    rw [hd, Option.filter_some, Option.filter_some, hpopulated]
    split
    · simp only [Option.map_some, EntitySchema.mapFields, nestedEntity, hname, hpath, hparent,
        h.named n c hc, hfields]
    · rfl

end Alike

end Schema

end DocSchema
