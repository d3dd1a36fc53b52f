import DocSchema.Extraction.Walk
import DocSchema.Proofs.Extraction.Place
import DocSchema.Proofs.Value.Proper
import DocSchema.Schema.Merge

/-!
# Regular samples

The samples that are extracted from a proper value tree are regular: an object shows each key once,
the path of a field is made of that of its object, a null holds nothing, and every leaf has a kind. A
regular document is merged without a fault.

- `ObjectSample.Regular`: the samples of a proper tree.
- `leafKind?`, `classify_of_isLeaf`: the type that a leaf shows.
- `regular_of_extract`: what is extracted from a proper document is regular.
- `fault?_mergeDocument`: a regular document is merged as a whole.
-/

namespace DocSchema

/-- Whether a value can be a leaf of a sample. -/
def Value.isLeaf : Value → Bool
  | .null | .map _ | .unfit _ _ => false
  | _ => true

/-- The type that a leaf shows, if any. -/
def leafKind? (detect : Bool) (v : Value) : Option SemanticType :=
  match classify detect v with
  | .ok kind? => kind?
  | .error _ => none

theorem classify_of_isLeaf {v : Value} (h : v.isLeaf = true) (detect : Bool) :
    ∃ kind, classify detect v = .ok (some kind) := by
  cases v with
  | null => cases h
  | map entries => cases h
  | unfit kind? payload => cases h
  | _ => exact ⟨_, rfl⟩

/-- A field of an object at a canonical path is as extraction makes it. -/
structure FieldSample.Regular (parent : String) (f : FieldSample) : Prop where
  path : f.path =
    if f.isArray then Path.elements (Path.child parent f.key) else Path.child parent f.key
  null : f.isNull = true → f.leaves = [] ∧ f.objects = []
  leaves : ∀ v ∈ f.leaves, v.isLeaf = true
  objects : ∀ o ∈ f.objects, o.path = f.path

/-- An object, with all objects below it, is as extraction makes it. -/
inductive ObjectSample.Regular : ObjectSample → Prop
  | mk {o : ObjectSample} (distinct : (o.fields.map FieldSample.key).Nodup)
      (fields : ∀ f ∈ o.fields, f.Regular o.path)
      (objects : ∀ f ∈ o.fields, ∀ o' ∈ f.objects, Regular o') : Regular o

theorem FieldSample.isNull_of_isArray {f : FieldSample} (h : f.isArray = true) : f.isNull = false := by
  rw [isArray, beq_iff_eq] at h
  rw [isNull, h]
  rfl

theorem FieldSample.Regular.isNull_of_leaf {path : String} {f : FieldSample} (h : f.Regular path) {v : Value}
    (hv : v ∈ f.leaves) : f.isNull = false := by
  refine Bool.eq_false_iff.2 fun hn => ?_
  rw [(h.null hn).1] at hv
  cases hv

theorem FieldSample.Regular.isNull_of_object {path : String} {f : FieldSample} (h : f.Regular path)
    {o : ObjectSample} (ho : o ∈ f.objects) : f.isNull = false := by
  refine Bool.eq_false_iff.2 fun hn => ?_
  rw [(h.null hn).2] at ho
  cases ho

namespace Extraction

open Value (isProperList isProperEntries)

variable {s : ExtractionSettings}

/-! ## Leaves -/

theorem isLeaf_of_leaf? {depth : Nat} {v w : Value} (hv : v.isProper = true)
    (h : leaf? s depth v = some w) : w.isLeaf = true := by
  cases v with
  | null => cases h
  | map entries =>
    simp only [leaf?] at h
    split at h <;> cases h
    rfl
  | unfit kind? payload => cases hv
  | _ => cases h; rfl

theorem isLeaf_of_mem_leaves {depth : Nat} {items : List Value} (hi : isProperList items = true)
    {w : Value} (h : w ∈ leaves s depth items) : w.isLeaf = true := by
  obtain ⟨v, hv, hw⟩ := List.mem_filterMap.1 h
  exact isLeaf_of_leaf? (Value.isProperList_iff.1 hi v (List.mem_of_mem_take hv)) hw

/-! ## Fields and objects -/

@[simp]
theorem key_fieldSample (key path : String) (depth : Nat) (v : Value) :
    (fieldSample s key path depth v).key = key := by
  cases v with
  | map entries =>
    rw [fieldSample]
    split <;> rfl
  | _ => simp only [fieldSample, FieldSample.key]

/-- The keys that are shown are keys of the object. -/
theorem map_key_fieldSamples (path : String) (depth : Nat) (entries : List (String × Value)) :
    ((fieldSamples s path depth entries).map FieldSample.key).Sublist (entries.map Prod.fst) := by
  induction entries with
  | nil =>
    rw [fieldSamples]
    exact .slnil
  | cons e entries ih =>
    obtain ⟨key, value⟩ := e
    rw [fieldSamples]
    split
    · exact ih.cons _
    · rw [List.map_cons, key_fieldSample]
      exact ih.cons_cons _

/-- A field without objects that is no array is as extraction makes it. -/
theorem regular_of_leaves (key path : String) {kind : ValueKind} {found : List Value}
    (hk : (kind == .sequence) = false) (hn : (kind == .null) = true → found = [])
    (hv : ∀ v ∈ found, v.isLeaf = true) :
    (FieldSample.mk key (Path.child path key) kind found []).Regular path ∧
      ∀ o ∈ (FieldSample.mk key (Path.child path key) kind found []).objects, o.Regular := by
  refine ⟨⟨?_, fun h => ⟨hn h, rfl⟩, hv, fun o ho => nomatch ho⟩, fun o ho => nomatch ho⟩
  rw [FieldSample.isArray, FieldSample.kind, hk]
  rfl

mutual
theorem fieldSamples_regular (path : String) (depth : Nat) : ∀ entries : List (String × Value),
    isProperEntries entries = true → ∀ f ∈ fieldSamples s path depth entries,
      f.Regular path ∧ ∀ o ∈ f.objects, o.Regular
  | [], _, f, hf => by simp [fieldSamples] at hf
  | (key, value) :: entries, h, f, hf => by
    rw [isProperEntries, Bool.and_eq_true] at h
    rw [fieldSamples] at hf
    split at hf
    · exact fieldSamples_regular path depth entries h.2 f hf
    · rcases List.mem_cons.1 hf with rfl | hf
      · exact fieldSample_regular key path depth value h.1
      · exact fieldSamples_regular path depth entries h.2 f hf
theorem fieldSample_regular (key path : String) (depth : Nat) : ∀ v : Value, v.isProper = true →
    (fieldSample s key (Path.child path key) depth v).Regular path ∧
      ∀ o ∈ (fieldSample s key (Path.child path key) depth v).objects, o.Regular
  | .sequence items, h => by
    rw [Value.isProper] at h
    have hobjects := elementObjects_regular (Path.elements (Path.child path key)) depth
      s.arraySampleSize items h
    rw [fieldSample]
    exact ⟨⟨rfl, fun hn => absurd hn Bool.false_ne_true, fun v hv => isLeaf_of_mem_leaves h hv,
      fun o ho => (hobjects o ho).1⟩, fun o ho => (hobjects o ho).2⟩
  | .map entries, h => by
    rw [Value.isProper, Bool.and_eq_true, decide_eq_true_eq] at h
    have hfields := fieldSamples_regular (Path.child path key) (depth + 1) entries h.2
    rw [fieldSample]
    split
    · refine ⟨⟨rfl, fun hn => absurd hn Bool.false_ne_true, (fun v hv => nomatch hv),
        fun o ho => ?_⟩, fun o ho => ?_⟩
      · rw [List.mem_singleton.1 ho]
        rfl
      · rw [List.mem_singleton.1 ho]
        exact .mk ((map_key_fieldSamples _ _ _).nodup h.1) (fun f hf => (hfields f hf).1)
          fun f hf => (hfields f hf).2
    · refine regular_of_leaves key path rfl (fun hn => absurd hn Bool.false_ne_true) fun v hv => ?_
      rw [List.mem_singleton.1 hv]
      rfl
  | .null, _ => by
    rw [fieldSample]
    · exact regular_of_leaves key path rfl (fun _ => rfl) fun v hv => nomatch hv
    all_goals intros; contradiction
  | .bool _, _ | .int _, _ | .float _, _ | .string _, _ | .identifier _, _ | .binary _, _ => by
    rw [fieldSample]
    · refine regular_of_leaves key path rfl (fun hn => absurd hn Bool.false_ne_true) fun v hv => ?_
      rw [List.mem_singleton.1 hv]
      rfl
    all_goals intros; contradiction
  | .unfit _ _, h => by simp [Value.isProper] at h
theorem elementObjects_regular (path : String) (depth count : Nat) : ∀ items : List Value,
    isProperList items = true →
      ∀ o ∈ elementObjects s path depth count items, o.path = path ∧ o.Regular
  | [], _, o, ho => by simp [elementObjects] at ho
  | item :: items, h, o, ho => by
    rw [isProperList, Bool.and_eq_true] at h
    cases count with
    | zero => simp [elementObjects] at ho
    | succ count =>
      have hrest := elementObjects_regular path depth count items h.2
      cases item with
      | map entries =>
        rw [elementObjects] at ho
        split at ho
        · rcases List.mem_cons.1 ho with rfl | ho
          · have hm := h.1
            rw [Value.isProper, Bool.and_eq_true, decide_eq_true_eq] at hm
            have hfields := fieldSamples_regular path (depth + 1) entries hm.2
            exact ⟨rfl, .mk ((map_key_fieldSamples _ _ _).nodup hm.1)
              (fun f hf => (hfields f hf).1) fun f hf => (hfields f hf).2⟩
          · exact hrest o ho
        · exact hrest o ho
      | _ =>
        simp only [elementObjects] at ho
        exact hrest o ho
end

/-- What is extracted from a proper document is regular, and its tree stands at the top level. -/
theorem regular_of_extract {document : Value} {e : Extracted} (h : extract s document = .ok e)
    (hd : document.isProper = true) : e.root.Regular ∧ e.root.path = "" := by
  obtain ⟨hfault, rfl⟩ := extract_ok_iff.1 h
  cases document with
  | map entries =>
    rw [Value.isProper, Bool.and_eq_true, decide_eq_true_eq] at hd
    have hfields := fieldSamples_regular (s := s) "" 1 entries hd.2
    exact ⟨.mk ((map_key_fieldSamples _ _ _).nodup hd.1) (fun f hf => (hfields f hf).1)
      fun f hf => (hfields f hf).2, rfl⟩
  | unfit kind? payload => cases hd
  | _ => cases hfault

end Extraction

/-- The objects below regular documents are regular. -/
theorem regular_of_mem_placedIn {es : List Extracted} (h : ∀ e ∈ es, e.root.Regular)
    {q : Place × ObjectSample} (hq : q ∈ Extracted.placedIn es) : q.2.Regular := by
  obtain ⟨e, he, hq⟩ := Extracted.mem_placedIn.1 hq
  refine ObjectSample.placed_induct (P := fun _ o => o.Regular) ?_ [] e.root (h e he) q hq
  intro p o f o' ho hf _ ho'
  cases ho with
  | mk distinct fields objects => exact objects f hf o' ho'

/-- A regular object shows each key once. -/
theorem ObjectSample.Regular.nodup_keys {o : ObjectSample} (h : o.Regular) :
    (o.fields.map FieldSample.key).Nodup := by
  cases h with
  | mk distinct fields objects => exact distinct

/-! ## Merging -/

theorem Merging.fault?_andThen {m : Merging} {next : Accumulator → Merging}
    (hm : m.fault? = none) (hnext : ∀ a, (next a).fault? = none) :
    (m.andThen next).fault? = none := by
  rw [Merging.andThen, hm]
  exact hnext _

namespace Schema

variable {detect : Bool}

theorem leafKinds_fault? {leaves : List Value} (h : ∀ v ∈ leaves, v.isLeaf = true) :
    (leafKinds detect leaves).2 = none := by
  induction leaves with
  | nil => rfl
  | cons v leaves ih =>
    obtain ⟨kind, hkind⟩ := classify_of_isLeaf (h v List.mem_cons_self) detect
    rw [leafKinds, hkind]
    exact ih fun w hw => h w (List.mem_cons_of_mem v hw)

/-- The kinds of leaves are the types that they show. -/
theorem contains_leafKinds_iff {leaves : List Value} (h : ∀ v ∈ leaves, v.isLeaf = true)
    {kind : SemanticType} : (leafKinds detect leaves).1.contains kind = true ↔
      ∃ v ∈ leaves, leafKind? detect v = some kind := by
  induction leaves with
  | nil => simp [leafKinds]
  | cons v leaves ih =>
    obtain ⟨k, hk⟩ := classify_of_isLeaf (h v List.mem_cons_self) detect
    have hv : leafKind? detect v = some k := by rw [leafKind?, hk]
    rw [leafKinds, hk]
    simp only [Option.elim, KindSet.contains_insert, Bool.or_eq_true, decide_eq_true_eq, List.mem_cons,
      exists_eq_or_imp, hv, Option.some.injEq, ih fun w hw => h w (List.mem_cons_of_mem v hw)]

mutual
theorem fault?_mergeObject (owner : Owner) : ∀ (o : ObjectSample), o.Regular → ∀ a : Accumulator,
    (mergeObject detect owner o a).fault? = none
  | .mk path fields, h, a => by
    cases h with
    | mk distinct hfields hobjects =>
      rw [mergeObject]
      exact fault?_mergeFields owner fields (fun f hf => (hfields f hf).leaves) hobjects _
theorem fault?_mergeFields (owner : Owner) : ∀ fields : List FieldSample,
    (∀ f ∈ fields, ∀ v ∈ f.leaves, v.isLeaf = true) →
    (∀ f ∈ fields, ∀ o ∈ f.objects, o.Regular) → ∀ a : Accumulator,
      (mergeFields detect owner fields a).fault? = none
  | [], _, _, a => rfl
  | .mk key path kind leaves objects :: fields, hleaves, hobjects, a => by
    rw [mergeFields]
    refine Merging.fault?_andThen ?_ fun a => fault?_mergeFields owner fields
      (fun f hf => hleaves f (List.mem_cons_of_mem _ hf))
      (fun f hf => hobjects f (List.mem_cons_of_mem _ hf)) a
    have hf : FieldSample.mk key path kind leaves objects ∈
      FieldSample.mk key path kind leaves objects :: fields := List.mem_cons_self
    have hfault : (leafKinds detect leaves).2 = none := leafKinds_fault? (hleaves _ hf)
    simp only [mergeField]
    split
    · rfl
    · rw [hfault]
      exact fault?_mergeNested owner key objects (hobjects _ hf) _
theorem fault?_mergeNested (owner : Owner) (key : String) : ∀ objects : List ObjectSample,
    (∀ o ∈ objects, o.Regular) → ∀ a : Accumulator,
      (mergeNested detect owner key objects a).fault? = none
  | [], _, _ => rfl
  | o :: objects, h, a => by
    rw [mergeNested]
    refine Merging.fault?_andThen ?_ fun a => fault?_mergeNested owner key objects
      (fun o' ho' => h o' (List.mem_cons_of_mem o ho')) a
    split
    · rfl
    · dsimp only
      split
      · exact fault?_mergeObject _ o (h o List.mem_cons_self) _
      · rfl
end

/-- A regular document is merged as a whole. -/
theorem fault?_mergeDocument {e : Extracted} (h : e.root.Regular) (a : Accumulator) :
    (mergeDocument detect e a).fault? = none :=
  Merging.fault?_andThen (fault?_mergeObject .root e.root h a) fun _ => rfl

end Schema

end DocSchema
