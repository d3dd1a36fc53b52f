import DocSchema.Proofs.Extraction.Regular
import DocSchema.Proofs.Merge.Tally
import DocSchema.Proofs.Schema.Fields
import DocSchema.Sampling.Batch
import Mathlib.Data.List.Count

/-!
# Documents conform to their schemas

When no name was refused, every document that was merged conforms to the schemas that are built: each
of its keys is defined, what may be missing or null is nullable, and what a field holds is of the type
of its definition or of a narrower one.

- `Conforms`: an object, with all objects below it, is as a schema says.
- `Merged.conforms`: objects conform to the schema of their place.
- `merged_conform`: plain documents that are read and merged without a collision conform.
-/

namespace DocSchema

/-- What a field of an object holds is as a definition says. -/
structure FieldSample.Fits (detect : Bool) (nested : List EntitySchema) (d : FieldDefinition)
    (f : FieldSample) : Prop where
  array : f.isArray = true → d.isArray = true
  scalar : f.isNull = false → f.isArray = false → d.isArray = true → d.isNullable = true
  leaf : ∀ v ∈ f.leaves, ∃ kind?, classify detect v = .ok kind? ∧
    SemanticType.isWidening kind? (some d.type) = true
  empty : ∀ o ∈ f.objects, o.isEmpty = true → d.type = .untyped ∨ d.type = .nested ∧
    ∃ e ∈ nested, d.nestedType? = some e.name ∧ ∀ d' ∈ e.fields, d'.isNullable = true
  populated : ∀ o ∈ f.objects, o.isEmpty = false → d.type = .nested ∧
    ∃ e ∈ nested, d.nestedType? = some e.name

/-- An object, with all objects below it, is as a schema says; objects in its fields are as the nested
schemas say that the definitions of the fields refer to. -/
inductive Conforms (detect : Bool) (nested : List EntitySchema) : EntitySchema → ObjectSample → Prop
  | intro {e : EntitySchema} {o : ObjectSample}
      (defined : ∀ f ∈ o.fields, ∃ d ∈ e.fields, d.name = f.key)
      (missing : ∀ d ∈ e.fields, (∀ f ∈ o.fields, f.key = d.name → f.isNull = true) →
        d.isNullable = true)
      (fits : ∀ f ∈ o.fields, ∀ d ∈ e.fields, d.name = f.key → f.Fits detect nested d)
      (objects : ∀ f ∈ o.fields, ∀ d ∈ e.fields, d.name = f.key → ∀ o' ∈ f.objects,
        o'.isEmpty = false → ∀ e' ∈ nested, d.nestedType? = some e'.name →
          Conforms detect nested e' o') :
      Conforms detect nested e o

/-! ## Types that a set widens to -/

/-- Every type of a set widens to the type of the set. -/
theorem KindSet.widensTo_resolve {s : KindSet} {k : SemanticType} (h : s.contains k = true) :
    k.widensTo (s.resolve.getD .untyped) = true := by
  obtain ⟨a, b, c, d, e, f, g⟩ := s
  revert h
  revert a b c d e f g
  cases k <;> decide

/-- A set with the opaque type is opaque unless it has the type of nested objects. -/
theorem KindSet.resolve_of_untyped {s : KindSet} (h : s.contains .untyped = true) :
    s.resolve = some .untyped ∨ s.resolve = some .nested := by
  obtain ⟨a, b, c, d, e, f, g⟩ := s
  revert h
  revert a b c d e f g
  decide

namespace Schema

open Extracted (placedIn)

variable {detect : Bool} {top : String} {es : List Extracted} {a : Accumulator}
  {identifier? : Option String}

/-- What is counted in one way and not in a narrower one makes the counts differ. -/
theorem countP_lt_countP {α : Type} {p q : α → Bool} {l : List α} (h : ∀ x ∈ l, p x = true → q x = true)
    {x : α} (hx : x ∈ l) (hp : p x = false) (hq : q x = true) : l.countP p < l.countP q := by
  have hfilter : l.countP p = (l.filter q).countP p := by
    rw [List.countP_filter]
    refine List.countP_congr fun y hy => ?_
    rw [Bool.and_eq_true]
    exact (and_iff_left_of_imp (h y hy)).symm
  rw [hfilter, List.countP_eq_length_filter (p := q), List.countP_lt_length_iff]
  exact ⟨x, List.mem_filter.2 ⟨hx, hq⟩, hp⟩

namespace Merged

variable (h : Merged detect top es a)

include h

/-! ## Objects that are counted -/

/-- Every document, and every nested object with fields, is counted for its owner. -/
theorem countP_le_observations {o : Owner} (ho : (a.context? o).isSome) :
    (placedIn es).countP (fun q => decide (Place.owner top q.1 = o) &&
      (decide (q.1 = []) || !q.2.isEmpty)) ≤ a.observationsOf o := by
  cases o with
  | root =>
    rw [h.observations_root]
    exact List.countP_mono_left fun q _ hq => (Bool.and_eq_true_iff.1 hq).1
  | nested n =>
    obtain ⟨c, hc⟩ := Option.isSome_iff_exists.1 ho
    rw [observationsOf_nested hc, h.observations_nested hc]
    refine Nat.le_trans (List.countP_mono_left fun q _ hq => ?_) (Nat.le_add_right _ _)
    simp only [Bool.and_eq_true, Bool.or_eq_true, decide_eq_true_eq] at hq ⊢
    refine ⟨hq.1, hq.2.resolve_left fun hroot => ?_⟩
    rw [hroot] at hq
    cases hq.1

/-- A field that a counted object lacks, or has as a null, has fewer values than its owner has
objects. -/
theorem nonNull_lt {q : Place × ObjectSample} (hq : q ∈ placedIn es) {o : Owner}
    (ho : Place.owner top q.1 = o) (hcounted : q.1 = [] ∨ q.2.isEmpty = false)
    (hc : (a.context? o).isSome) {k : String}
    (hlacks : ∀ f ∈ q.2.fields, f.key = k → f.isNull = true) :
    (a.stats o k).nonNull < a.observationsOf o := by
  refine Nat.lt_of_lt_of_le ?_ (h.countP_le_observations hc)
  rw [(h.records.fields o k).nonNull, countP_shows h.distinct]
  refine countP_lt_countP (fun r _ hr => ?_) hq ?_ ?_
  · -- an object with the field is no empty one
    rw [Bool.and_eq_true] at hr
    rw [hr.1, ObjectSample.isEmpty_of_holds hr.2, Bool.not_false, Bool.or_true]
    rfl
  · rw [ho, ObjectSample.holds]
    simp only [decide_true, Bool.true_and]
    refine List.any_eq_false.2 fun f hf hf' => ?_
    simp only [Bool.and_eq_true, decide_eq_true_eq] at hf'
    simp [hlacks f hf hf'.1] at hf'
  · rw [ho]
    rcases hcounted with hroot | hne
    · simp [hroot]
    · simp [hne]

/-- A field of a nested type has fewer values than the type has objects, once one of them is empty. -/
theorem nonNull_lt_of_empty {q : Place × ObjectSample} (hq : q ∈ placedIn es) {key : String} {up : Place}
    (hplace : q.1 = key :: up) (hempty : q.2.isEmpty = true)
    (hin : Event.nested (Place.owner top up) key ∈ es.flatMap (documentEvents detect top)) (k : String) :
    (a.stats (Place.owner top q.1) k).nonNull < a.observationsOf (Place.owner top q.1) := by
  obtain ⟨c, hc, hpath⟩ := h.registered hin
  rw [h.ownerName_owner, ← Place.owner_cons, ← hplace] at hc
  have hsum : a.observationsOf (Place.owner top q.1) = c.observations + a.emptyCount c.path := by
    rw [hplace] at hc ⊢
    exact observationsOf_nested hc
  have hpos : 0 < a.emptyCount c.path := by
    rw [h.records.empties, List.countP_pos_iff]
    refine ⟨_, empty_mem_iff.2 ⟨q, hq, up, hplace, rfl, hempty⟩, ?_⟩
    exact decide_eq_true hpath.symm
  have hle : (a.stats (Place.owner top q.1) k).nonNull ≤ c.observations := by
    rw [hplace, Place.owner_cons] at hc ⊢
    rw [h.observations_nested hc, (h.records.fields _ k).nonNull, countP_shows h.distinct]
    refine List.countP_mono_left fun r _ hr => ?_
    rw [Bool.and_eq_true] at hr
    rw [hr.1, ObjectSample.isEmpty_of_holds hr.2]
    rfl
  omega

/-! ## What the fields hold -/

/-- A field with an object that has fields refers to the schema of the type of the object. -/
theorem refers (identifier? : Option String) {o : Owner} {k : String} {s : FieldStats} (hs : a.field? o k = some s)
    (hin : Event.nested o k ∈ es.flatMap (documentEvents detect top)) :
    typeOf a s = (.nested, some (Naming.nestedTypeName (a.ownerName o) k)) ∧
      ∃ c, a.nested.get? (Naming.nestedTypeName (a.ownerName o) k) = some c ∧
        nestedEntity identifier? a c ∈ nestedEntities identifier? a ∧
        (nestedEntity identifier? a c).name = Naming.nestedTypeName (a.ownerName o) k := by
  obtain ⟨c, hc⟩ := h.records.registered_of_nested hin
  refine ⟨?_, c, hc, (mem_nestedEntities_iff h.records).2 ⟨_, c, hc, rfl⟩,
    (h.records.context_named hc).1⟩
  have hr := KindSet.resolve_eq_nested_iff.2 ((h.records.contains_nested_iff o k).2 hin)
  rw [Records.stats_eq hs] at hr
  rw [typeOf_of_records h.records hs, if_pos hin, FieldStats.resolvedType?, hr]
  rfl

/-- What a field of an object holds is as the definition of the field says. -/
theorem fits {q : Place × ObjectSample} (hq : q ∈ placedIn es) {f : FieldSample} (hf : f ∈ q.2.fields)
    (hreg : f.Regular q.2.path) {s : FieldStats} (hs : a.field? (Place.owner top q.1) f.key = some s) :
    f.Fits detect (nestedEntities identifier? a)
      (fieldDefinition a (a.observationsOf (Place.owner top q.1)) f.key s) := by
  have hstats : a.stats (Place.owner top q.1) f.key = s := Records.stats_eq hs
  have hfields := hstats ▸ h.records.fields (Place.owner top q.1) f.key
  have htype : (typeOf a s).1 = s.kinds.resolve.getD .untyped := by
    rw [typeOf_of_records h.records hs]
    rfl
  have hplaced {o : ObjectSample} (ho : o ∈ f.objects) : (f.key :: q.1, o) ∈ placedIn es :=
    Extracted.handedDown_placedIn es q.1 q.2 f o hq hf (hreg.isNull_of_object ho) ho
  constructor
  case array =>
    intro ha
    have hpos : 0 < s.arrays := by
      rw [hfields.arrays]
      exact countP_shows_pos hq hf (by rw [FieldSample.isNull_of_isArray ha, ha]; rfl)
    exact decide_eq_true hpos
  case scalar =>
    intro hn ha hd
    have hpos : 0 < s.scalars := by
      rw [hfields.scalars]
      exact countP_shows_pos hq hf (by rw [hn, ha]; rfl)
    have hconflict : s.hasArrayConflict = true :=
      Bool.and_eq_true_iff.2 ⟨hd, decide_eq_true hpos⟩
    rw [fieldDefinition, hconflict, Bool.or_true]
  case leaf =>
    intro v hv
    obtain ⟨kind, hkind⟩ := classify_of_isLeaf (hreg.leaves v hv) detect
    have hc : (leafKinds detect f.leaves).1.contains kind = true :=
      (contains_leafKinds_iff hreg.leaves).2 ⟨v, hv, by rw [leafKind?, hkind]⟩
    refine ⟨some kind, hkind, ?_⟩
    rw [SemanticType.isWidening, fieldDefinition, htype, ← hstats]
    exact KindSet.widensTo_resolve
      ((h.contains_kind_iff _ _ kind).2 (.inl ⟨q, hq, f, hf, rfl, rfl, hreg.isNull_of_leaf hv, hc⟩))
  case empty =>
    intro o ho hempty
    have hc : s.kinds.contains .untyped = true := by
      rw [← hstats]
      exact (h.contains_kind_iff _ _ _).2 (.inr ⟨_, hplaced ho, q.1, rfl, rfl, by rw [hempty]; rfl⟩)
    rw [fieldDefinition, htype]
    refine (KindSet.resolve_of_untyped hc).imp (fun hr => by rw [hr]; rfl) fun hr => ?_
    refine ⟨by rw [hr]; rfl, ?_⟩
    rw [KindSet.resolve_eq_nested_iff, ← hstats, h.records.contains_nested_iff] at hr
    obtain ⟨htypeOf, c, hget, hmem, hname⟩ := h.refers identifier? hs hr
    refine ⟨_, hmem, by rw [htypeOf, hname], fun d hd => ?_⟩
    -- the empty object is counted among those of the nested type
    have hlt := h.nonNull_lt_of_empty (hplaced ho) rfl hempty hr
    rw [h.ownerName_owner] at hget
    have hctx : a.context? (Place.owner top (f.key :: q.1)) = some c := hget
    rw [show (nestedEntity identifier? a c).fields = _ from schemaOf_fields h.records hctx] at hd
    obtain ⟨k, t, ht, rfl⟩ := (mem_fieldDefinitions_iff hctx).1 hd
    have hk := hlt k
    rw [Records.stats_eq ht] at hk
    rw [fieldDefinition, decide_eq_true hk, Bool.true_or]
  case populated =>
    intro o ho hempty
    have hin : Event.nested (Place.owner top q.1) f.key ∈ es.flatMap (documentEvents detect top) :=
      nested_mem_iff.2 ⟨_, hplaced ho, q.1, rfl, rfl, hempty⟩
    obtain ⟨htypeOf, c, -, hmem, hname⟩ := h.refers identifier? hs hin
    rw [fieldDefinition, htypeOf]
    exact ⟨rfl, _, hmem, by rw [hname]⟩

/-! ## Conformance -/

/-- An object conforms to the schema of its place, if it counts as one of its objects. -/
theorem conforms {o : ObjectSample} (hreg : o.Regular) {place : Place} (hq : (place, o) ∈ placedIn es)
    (hcounted : place = [] ∨ o.isEmpty = false) {c : TypeContext}
    (hc : a.context? (Place.owner top place) = some c) :
    Conforms detect (nestedEntities identifier? a)
      (schemaOf identifier? a (Place.owner top place) c) o := by
  induction hreg generalizing place c with
  | @mk o distinct fields objects ih =>
    have hdefinitions {d : FieldDefinition} := @mem_fieldDefinitions_iff identifier? a _ c hc d
    constructor <;> rw [schemaOf_fields h.records hc]
    case defined =>
      intro f hf
      obtain ⟨s, hs⟩ := Option.isSome_iff_exists.1
        (h.field?_isSome_iff.2 ⟨_, hq, rfl, f, hf, rfl⟩)
      exact ⟨_, hdefinitions.2 ⟨f.key, s, hs, rfl⟩, rfl⟩
    case missing =>
      intro d hd hlacks
      obtain ⟨k, s, hs, rfl⟩ := hdefinitions.1 hd
      have hlt := h.nonNull_lt hq rfl hcounted (by rw [hc]; rfl) hlacks
      rw [fieldDefinition, Records.stats_eq hs] at hlt
      rw [fieldDefinition, decide_eq_true hlt, Bool.true_or]
    case fits =>
      intro f hf d hd hname
      obtain ⟨k, s, hs, rfl⟩ := hdefinitions.1 hd
      obtain rfl : k = f.key := hname
      exact h.fits hq hf (fields f hf) hs
    case objects =>
      intro f hf d hd hname o' ho' hne e' he' hrefers
      obtain ⟨k, s, hs, rfl⟩ := hdefinitions.1 hd
      obtain rfl : k = f.key := hname
      have hnull := (fields f hf).isNull_of_object ho'
      have hplaced := Extracted.handedDown_placedIn es place o f o' hq hf hnull ho'
      have hin : Event.nested (Place.owner top place) f.key ∈ es.flatMap (documentEvents detect top) :=
        nested_mem_iff.2 ⟨_, hplaced, place, rfl, rfl, hne⟩
      -- the schema that the definition refers to is that of the type of the place
      obtain ⟨n, c', hc', rfl⟩ := (mem_nestedEntities_iff h.records).1 he'
      have hn : n = Naming.nestedTypeName (Place.typeName top place) f.key := by
        rw [fieldDefinition, (h.refers identifier? hs hin).1, h.ownerName_owner] at hrefers
        rw [← (h.records.context_named hc').1]
        exact (Option.some.inj hrefers).symm
      subst hn
      exact ih f hf o' ho' hplaced (.inr hne) hc'

end Merged

/-- **Soundness of the inferred schema.** Plain documents that are read are merged as a whole, and if no
name was refused in the end, each of them conforms to the schemas that are built. -/
theorem merged_conform (s : ExtractionSettings) (identifier? : Option String)
    (collection top : String) (raws : List Raw) (es : List Extracted)
    (hplain : ∀ r ∈ raws, r.isPlain = true ∧ r.hasDistinctKeys = true)
    (hread : raws.mapM (Sampling.readDocument s) = .ok es) :
    let a := mergeAll s.detects es (.fresh collection top)
    (∀ e ∈ es, ∀ b, (mergeDocument s.detects e b).fault? = none) ∧
      (a.collisions = [] →
        ∀ e ∈ es, Conforms s.detects (nestedEntities identifier? a) (entity identifier? a) e.root) := by
  intro a
  have hreg : ∀ e ∈ es, e.root.Regular := by
    intro e he
    obtain ⟨r, hr, h⟩ := exists_of_mapM_ok hread he
    obtain ⟨v, hv, h⟩ := exists_of_bind_ok h
    exact (Extraction.regular_of_extract h
      (Value.isProper_of_ofRaw r 0 v (hplain r hr).1 (hplain r hr).2 hv)).1
  refine ⟨fun e he => fault?_mergeDocument (hreg e he), fun hclean e he => ?_⟩
  have h : Merged s.detects top es a := .of_regular hreg hclean
  have hroot : ([], e.root) ∈ placedIn es :=
    Extracted.mem_placedIn.2 ⟨e, he, ObjectSample.mem_placed_self [] e.root⟩
  exact h.conforms (hreg e he) hroot (.inl rfl) rfl

/-- The two documents of a collection of which one holds an object in a field and the other an object
without fields there. -/
theorem merged_conform_pair :
    let raws : List Raw := [.map [(.text "a", .map [(.text "b", .int 1)])], .map [(.text "a", .map [])]]
    ∃ es, raws.mapM (Sampling.readDocument {}) = .ok es ∧ es.length = 2 ∧
      ∀ e ∈ es, Conforms true (nestedEntities none (mergeAll true es (.fresh "c" "C")))
        (entity none (mergeAll true es (.fresh "c" "C"))) e.root := by
  intro raws
  refine ⟨_, rfl, rfl, ?_⟩
  refine (merged_conform {} none "c" "C" raws _ ?_ rfl).2 ?_
  · decide
  · rfl

end Schema

end DocSchema
