import DocSchema.Proofs.Merge.History
import DocSchema.Schema.Build

/-!
# The schemas of a recorded state

What the schemas say that are built from the state of a run: which definitions they have, in terms of
the fields that are known, and what the type of a definition is. In a state that is a record of events
every registered type is populated, so each has its schema and no definition falls back to an opaque
type.

- `mem_schemas_iff`: the schemas are those of the owners that have a context.
- `mem_fieldDefinitions_iff`: the definitions of a schema are those of the known fields.
- `typeOf_of_records`: the type of a definition is the one that the kinds of the field widen to.
-/

namespace DocSchema

theorem KindSet.resolve_eq_nested_iff {s : KindSet} : s.resolve = some .nested ↔ s.contains .nested = true := by
  obtain ⟨a, b, c, d, e, f, g⟩ := s
  revert a b c d e f g
  decide

namespace Schema

variable {identifier? : Option String} {a : Accumulator} {es : List Event}

/-- The schemas of a state, the top-level one first. -/
def schemas (identifier? : Option String) (a : Accumulator) : List EntitySchema :=
  entity identifier? a :: nestedEntities identifier? a

/-- The schema of an owner with a context. -/
def schemaOf (identifier? : Option String) (a : Accumulator) : Owner → TypeContext → EntitySchema
  | .root, _ => entity identifier? a
  | .nested _, c => nestedEntity identifier? a c

theorem mem_nestedEntities_iff (h : Records a es) {e : EntitySchema} :
    e ∈ nestedEntities identifier? a ↔
      ∃ n c, a.nested.get? n = some c ∧ e = nestedEntity identifier? a c := by
  simp only [nestedEntities, Accumulator.populatedNested, List.mem_map, List.mem_filter,
    List.mem_filterMap, a.nested.sortedKeys_perm.mem_iff, Table.mem_keys_iff]
  constructor
  · rintro ⟨c, ⟨⟨n, -, hc⟩, -⟩, rfl⟩
    exact ⟨n, c, hc, rfl⟩
  · rintro ⟨n, c, hc, rfl⟩
    exact ⟨c, ⟨⟨n, by rw [hc]; rfl, hc⟩, (h.context_named hc).2⟩, rfl⟩

theorem mem_schemas_iff (h : Records a es) {e : EntitySchema} :
    e ∈ schemas identifier? a ↔
      ∃ owner c, a.context? owner = some c ∧ e = schemaOf identifier? a owner c := by
  rw [schemas, List.mem_cons, mem_nestedEntities_iff h]
  constructor
  · rintro (rfl | ⟨n, c, hc, rfl⟩)
    · exact ⟨.root, a.root, rfl, rfl⟩
    · exact ⟨.nested n, c, hc, rfl⟩
  · rintro ⟨owner, c, hc, rfl⟩
    cases owner with
    | root => exact .inl rfl
    | nested n => exact .inr ⟨n, c, hc, rfl⟩

/-- There is one nested schema for each registered name, in the order of the names. -/
theorem map_name_nestedEntities (h : Records a es) :
    (nestedEntities identifier? a).map EntitySchema.name = a.nested.sortedKeys := by
  have hkeys : ∀ n ∈ a.nested.sortedKeys, (a.nested.get? n).isSome := fun n hn =>
    Table.mem_keys_iff.1 (a.nested.sortedKeys_perm.mem_iff.1 hn)
  rw [nestedEntities, Accumulator.populatedNested, List.map_map]
  generalize a.nested.sortedKeys = names at hkeys ⊢
  induction names with
  | nil => rfl
  | cons n names ih =>
    obtain ⟨c, hc⟩ := Option.isSome_iff_exists.1 (hkeys n List.mem_cons_self)
    obtain ⟨hname, hpop⟩ := h.context_named hc
    rw [List.filterMap_cons_some hc, List.filter_cons_of_pos hpop, List.map_cons,
      ih fun m hm => hkeys m (List.mem_cons_of_mem _ hm), Function.comp_apply, nestedEntity, hname]

theorem schemaOf_name (h : Records a es) {owner : Owner} {c : TypeContext}
    (hc : a.context? owner = some c) : (schemaOf identifier? a owner c).name = a.ownerName owner := by
  cases owner with
  | root => rfl
  | nested n => exact (h.context_named hc).1

theorem schemaOf_fields (h : Records a es) {owner : Owner} {c : TypeContext}
    (hc : a.context? owner = some c) :
    (schemaOf identifier? a owner c).fields = fieldDefinitions identifier? a owner c := by
  cases owner with
  | root =>
    obtain rfl : a.root = c := by simpa [Accumulator.context?] using hc
    rfl
  | nested n => rw [schemaOf, nestedEntity, (h.context_named hc).1]

/-- The definitions of a schema are those of the fields of its owner. -/
theorem mem_fieldDefinitions_iff {owner : Owner} {c : TypeContext} (hc : a.context? owner = some c)
    {d : FieldDefinition} : d ∈ fieldDefinitions identifier? a owner c ↔
      ∃ k s, a.field? owner k = some s ∧ d = fieldDefinition a (a.observationsOf owner) k s := by
  simp only [fieldDefinitions, List.mem_filterMap, (fieldOrder_perm identifier? c).mem_iff,
    Table.mem_keys_iff, Accumulator.field?, hc, Option.bind_some]
  constructor
  · rintro ⟨k, -, hk⟩
    obtain ⟨s, hs, rfl⟩ := Option.map_eq_some_iff.1 hk
    exact ⟨k, s, hs, rfl⟩
  · rintro ⟨k, s, hs, rfl⟩
    exact ⟨k, by rw [hs]; rfl, by rw [hs]; rfl⟩

/-- There is one definition for each known field, in the order of the fields. -/
theorem map_name_fieldDefinitions (owner : Owner) (c : TypeContext) :
    (fieldDefinitions identifier? a owner c).map FieldDefinition.name = fieldOrder identifier? c := by
  have hkeys : ∀ k ∈ fieldOrder identifier? c, (c.fields.get? k).isSome := fun k hk =>
    Table.mem_keys_iff.1 ((fieldOrder_perm identifier? c).mem_iff.1 hk)
  rw [fieldDefinitions]
  generalize fieldOrder identifier? c = names at hkeys ⊢
  induction names with
  | nil => rfl
  | cons k names ih =>
    obtain ⟨s, hs⟩ := Option.isSome_iff_exists.1 (hkeys k List.mem_cons_self)
    rw [List.filterMap_cons_some (by rw [hs]; rfl), List.map_cons,
      ih fun m hm => hkeys m (List.mem_cons_of_mem _ hm)]
    rfl

/-- No definition falls back to an opaque type: its type is the one that the kinds of the field widen
to, and a nested one refers to the type that the field asked for. -/
theorem typeOf_of_records (h : Records a es) {owner : Owner} {k : String} {s : FieldStats}
    (hs : a.field? owner k = some s) :
    typeOf a s = (s.resolvedType?.getD .untyped,
      if Event.nested owner k ∈ es then some (Naming.nestedTypeName (a.ownerName owner) k) else none) := by
  have hnested := h.contains_nested_iff owner k
  have hname := h.nestedType?_eq owner k
  rw [Records.stats_eq hs] at hnested hname
  rw [← KindSet.resolve_eq_nested_iff] at hnested
  rw [typeOf, FieldStats.resolvedType?]
  by_cases hin : Event.nested owner k ∈ es
  · rw [if_pos hin] at hname ⊢
    obtain ⟨c, hc⟩ := h.registered_of_nested hin
    simp [hnested.2 hin, hname, hc, (h.context_named hc).2]
  · rw [if_neg hin]
    have hne : s.kinds.resolve ≠ some .nested := fun hr => hin (hnested.1 hr)
    cases hr : s.kinds.resolve with
    | none => rfl
    | some t =>
      have ht : t ≠ .nested := fun ht => hne (by rw [hr, ht])
      simp [ht]

end Schema

end DocSchema
