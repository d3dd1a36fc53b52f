import DocSchema.Proofs.Merge.Separation
import DocSchema.Proofs.Schema.Fields
import Mathlib.Data.List.Count
import Mathlib.Data.List.Nodup

/-!
# Schemas say no more than the documents

When plain documents have been merged and no name was refused, the schemas are what a reader of all
documents would write down. A nested schema belongs to each logical path at which an object with fields
stands, and its definitions say of each key how many of the objects there have it, whether any of them
holds an array, whether any of them lacks it, and which types its values have.

- `instancesAt`: all objects at a logical path.
- `ExactField`, `Exact`: a definition and a schema are what objects show.
- `merged_exact`: the schemas are what the objects at their paths show.
-/

namespace DocSchema

/-- All objects of documents at a logical path. -/
def instancesAt (es : List Extracted) (path : String) : List ObjectSample :=
  (es.flatMap Extracted.objects).filter fun o => decide (Path.logical o.path = path)

/-- The types that objects show in a field: those of its leaves, and those of the objects in it. -/
def kindsIn (detect : Bool) (instances : List ObjectSample) (key : String) : List SemanticType :=
  instances.flatMap fun o => (o.fields.filter fun f => decide (f.key = key)).flatMap fun f =>
    f.leaves.filterMap (leafKind? detect) ++
      f.objects.map fun o' => if o'.isEmpty then .untyped else .nested

/-- A definition says what objects show of its field. -/
structure ExactField (detect : Bool) (instances : List ObjectSample) (d : FieldDefinition) : Prop where
  occurrences : d.occurrences =
    instances.countP fun o => o.fields.any fun f => decide (f.key = d.name)
  isArray : d.isArray = true ↔ ∃ o ∈ instances, ∃ f ∈ o.fields, f.key = d.name ∧ f.isArray = true
  isNullable : d.isNullable = true ↔
    (∃ o ∈ instances, (∀ f ∈ o.fields, f.key ≠ d.name) ∨
      ∃ f ∈ o.fields, f.key = d.name ∧ f.isNull = true) ∨
    (∃ o ∈ instances, ∃ f ∈ o.fields, f.key = d.name ∧ f.isArray = true) ∧
      ∃ o ∈ instances, ∃ f ∈ o.fields, f.key = d.name ∧ f.isNull = false ∧ f.isArray = false
  type : d.type = (KindSet.ofList (kindsIn detect instances d.name)).resolve.getD .untyped

/-- A schema defines the fields that objects show, each once, and says what they show of them. -/
structure Exact (detect : Bool) (instances : List ObjectSample) (e : EntitySchema) : Prop where
  names : ∀ key, key ∈ e.fieldNames ↔ ∃ o ∈ instances, ∃ f ∈ o.fields, f.key = key
  distinct : e.fieldNames.Nodup
  fields : ∀ d ∈ e.fields, ExactField detect instances d

theorem ObjectSample.holds_iff {o : ObjectSample} {key : String} {test : (isNull isArray : Bool) → Bool} :
    o.holds key test = true ↔ ∃ f ∈ o.fields, f.key = key ∧ test f.isNull f.isArray = true := by
  simp only [holds, List.any_eq_true, Bool.and_eq_true, decide_eq_true_eq]

theorem KindSet.contains_ofList {ts : List SemanticType} {k : SemanticType} :
    (ofList ts).contains k = true ↔ k ∈ ts := by
  rw [ofList, contains_foldl_insert, contains_empty]
  simp

namespace Schema

open Extracted (placedIn)
open ObjectSample (isEmpty_of_mem_fields)

variable {detect : Bool} {top : String} {es : List Extracted} {a : Accumulator}
  {identifier? : Option String}

/-! ## Objects at a place -/

/-- The top level, or a place where an object with fields stands. -/
def IsPopulated (es : List Extracted) (p : Place) : Prop :=
  p = [] ∨ ∃ q ∈ placedIn es, q.1 = p ∧ q.2.isEmpty = false

theorem IsPopulated.plain (hplain : PlainDocuments es) {p : Place} (hp : IsPopulated es p) :
    ∀ key ∈ p, Path.IsPlainKey key := by
  rcases hp with rfl | ⟨q, hq, rfl, -⟩
  · intro key hk
    cases hk
  · exact hplain.plain_place hq

theorem flatMap_objects (es : List Extracted) :
    es.flatMap Extracted.objects = (placedIn es).map Prod.snd := by
  rw [placedIn, List.map_flatMap]
  rfl

/-- Objects with the path of a populated place stand there. -/
theorem countP_instancesAt (hplain : PlainDocuments es) {p : Place} (hp : IsPopulated es p)
    (test : ObjectSample → Bool) :
    (instancesAt es p.path).countP test =
      (placedIn es).countP fun q => decide (q.1 = p) && test q.2 := by
  rw [instancesAt, List.countP_filter, flatMap_objects, List.countP_map]
  refine List.countP_congr fun q hq => ?_
  have hplace : Path.logical q.2.path = p.path ↔ q.1 = p := by
    rw [hplain.logical_path_of_placed hq]
    exact ⟨Place.path_injective (hplain.plain_place hq) (hp.plain hplain), congrArg _⟩
  simp only [Function.comp_apply, hplace, Bool.and_comm]

theorem mem_instancesAt (hplain : PlainDocuments es) {p : Place} (hp : IsPopulated es p)
    {o : ObjectSample} : o ∈ instancesAt es p.path ↔ (p, o) ∈ placedIn es := by
  rw [instancesAt, List.mem_filter, flatMap_objects, List.mem_map, decide_eq_true_eq]
  constructor
  · rintro ⟨⟨q, hq, rfl⟩, hpath⟩
    rw [hplain.logical_path_of_placed hq] at hpath
    rw [← Place.path_injective (hplain.plain_place hq) (hp.plain hplain) hpath]
    exact hq
  · intro hq
    exact ⟨⟨(p, o), hq, rfl⟩, hplain.logical_path_of_placed (q := (p, o)) hq⟩

/-- What is counted of some objects is counted apart for those with and those without fields. -/
theorem countP_add_countP_isEmpty (l : List (Place × ObjectSample)) (p : Place) :
    l.countP (fun q => decide (q.1 = p) && !q.2.isEmpty) +
      l.countP (fun q => decide (q.1 = p) && q.2.isEmpty) = l.countP fun q => decide (q.1 = p) := by
  induction l with
  | nil => rfl
  | cons q l ih =>
    simp only [List.countP_cons, ← ih]
    cases decide (q.1 = p) <;> cases q.2.isEmpty <;> simp <;> omega

/-! ## Types that objects show -/

theorem mem_kindsIn_iff {instances : List ObjectSample} {key : String} {kind : SemanticType} :
    kind ∈ kindsIn detect instances key ↔ ∃ o ∈ instances, ∃ f ∈ o.fields, f.key = key ∧
      ((∃ v ∈ f.leaves, leafKind? detect v = some kind) ∨
        ∃ o' ∈ f.objects, (if o'.isEmpty then .untyped else .nested) = kind) := by
  simp only [kindsIn, List.mem_flatMap, List.mem_filter, decide_eq_true_eq, List.mem_append,
    List.mem_filterMap, List.mem_map, and_assoc]

namespace Merged

variable (h : Merged detect top es a) (hplain : PlainDocuments es)

include h hplain

/-- Objects with fields that a populated place owns stand there. -/
theorem owner_eq_iff {p : Place} (hp : IsPopulated es p) {q : Place × ObjectSample} (hq : q ∈ placedIn es)
    (hne : q.2.isEmpty = false) : Place.owner top q.1 = Place.owner top p ↔ q.1 = p := by
  refine ⟨fun howner => ?_, congrArg _⟩
  rcases hp with rfl | ⟨r, hr, rfl, hre⟩
  · exact Place.owner_eq_root_iff.1 howner
  · exact h.separated hplain q hq r hr hne hre howner

/-- A field of a populated place counts the objects there that have it. -/
theorem countP_shows_eq {p : Place} (hp : IsPopulated es p) (k : String)
    (test : (isNull isArray : Bool) → Bool) :
    (es.flatMap (documentEvents detect top)).countP (Event.shows (Place.owner top p) k test) =
      (instancesAt es p.path).countP fun o => o.holds k test := by
  rw [countP_shows h.distinct, countP_instancesAt hplain hp]
  refine List.countP_congr fun q hq => ?_
  simp only [Bool.and_eq_true, decide_eq_true_eq]
  exact and_congr_left fun hholds =>
    h.owner_eq_iff hplain hp hq (ObjectSample.isEmpty_of_holds hholds)

/-- The context of a populated place has the path of the place. -/
theorem exists_context {q : Place × ObjectSample} (hq : q ∈ placedIn es) (hne : q.2.isEmpty = false)
    (hroot : q.1 ≠ []) :
    ∃ c, a.context? (Place.owner top q.1) = some c ∧ c.path = q.1.path := by
  obtain ⟨key, up, hplace⟩ := List.exists_cons_of_ne_nil hroot
  obtain ⟨r, hr, f, hf, rfl, rfl, -⟩ := exists_parent hq hplace
  obtain ⟨c, hc, hpath⟩ := h.registered (nested_mem_iff.2 ⟨q, hq, r.1, hplace, rfl, hne⟩)
  rw [h.ownerName_owner] at hc
  rw [hplace, Place.owner_cons]
  exact ⟨c, hc, hpath.trans (h.stats_path hplain hr hf)⟩

/-- The context of a nested type is that of a populated place. -/
theorem exists_place_of_context {n : String} {c : TypeContext} (hc : a.nested.get? n = some c) :
    ∃ q ∈ placedIn es, q.2.isEmpty = false ∧ q.1 ≠ [] ∧ Place.owner top q.1 = .nested n ∧
      c.path = q.1.path := by
  obtain ⟨-, -, -, o, k, hin, hn, -⟩ := h.records.context_of_get? hc
  obtain ⟨q, hq, up, hplace, rfl, hne⟩ := nested_mem_iff.1 hin
  rw [h.ownerName_owner] at hn
  have howner : Place.owner top q.1 = .nested n := by rw [hplace, Place.owner_cons, hn]
  have hroot : q.1 ≠ [] := by simp [hplace]
  obtain ⟨d, hd, hpath⟩ := h.exists_context hplain hq hne hroot
  rw [howner, Accumulator.context?, hc, Option.some.injEq] at hd
  exact ⟨q, hq, hne, hroot, howner, hd ▸ hpath⟩

/-- All objects at a populated place are counted, those without fields included. -/
theorem observationsOf_eq {p : Place} (hp : IsPopulated es p) :
    a.observationsOf (Place.owner top p) = (instancesAt es p.path).length := by
  have hlength : (instancesAt es p.path).length = (placedIn es).countP fun q => decide (q.1 = p) := by
    rw [← List.countP_true, countP_instancesAt hplain hp]
    simp only [Bool.and_true]
  rw [hlength]
  cases p with
  | nil =>
    rw [Place.owner, h.observations_root]
    simp only [Place.owner_eq_root_iff]
  | cons key up =>
    obtain ⟨q, hq, hplace, hne⟩ := hp.resolve_left (List.cons_ne_nil key up)
    obtain ⟨c, hc, hpath⟩ := h.exists_context hplain hq hne (by simp [hplace])
    rw [hplace] at hc hpath
    rw [Place.owner_cons] at hc ⊢
    rw [observationsOf_nested hc, ← countP_add_countP_isEmpty]
    congr 1
    · rw [h.observations_nested hc]
      refine List.countP_congr fun r hr => ?_
      simp only [Bool.and_eq_true, decide_eq_true_eq, Bool.not_eq_true']
      exact and_congr_left fun hre => h.owner_eq_iff hplain (.inr ⟨q, hq, hplace, hne⟩) hr hre
    · rw [h.emptyCount_eq, hpath]
      refine List.countP_congr fun r hr => ?_
      obtain ⟨place, o⟩ := r
      cases place with
      | nil => simp
      | cons k w =>
        obtain ⟨u, hu, f, hf, rfl, rfl, -⟩ := exists_parent hr rfl
        have hiff : Place.path (f.key :: u.1) = Place.path (key :: up) ↔ f.key :: u.1 = key :: up :=
          ⟨Place.path_injective (hplain.plain_place hr) (hplace ▸ hplain.plain_place hq), congrArg _⟩
        simp only [h.stats_path hplain hu hf, hiff, Bool.and_comm]

/-! ## Fields of a place -/

/-- The kinds of a field of a populated place are the types that the objects there show in it. -/
theorem kinds_eq {p : Place} (hp : IsPopulated es p) (k : String) :
    (a.stats (Place.owner top p) k).kinds = .ofList (kindsIn detect (instancesAt es p.path) k) := by
  refine KindSet.ext_contains fun kind => Bool.eq_iff_iff.2 ?_
  rw [h.contains_kind_iff, KindSet.contains_ofList, mem_kindsIn_iff]
  simp only [mem_instancesAt hplain hp]
  constructor
  · rintro (⟨q, hq, f, hf, howner, hk, -, hc⟩ | ⟨q, hq, up, hplace, howner, rfl⟩)
    · obtain rfl := (h.owner_eq_iff hplain hp hq (isEmpty_of_mem_fields hf)).1 howner
      rw [contains_leafKinds_iff (hplain.field_regular hq hf).leaves] at hc
      exact ⟨q.2, hq, f, hf, hk, .inl hc⟩
    · obtain ⟨r, hr, f, hf, rfl, hk, -, ho⟩ := exists_parent hq hplace
      obtain rfl := (h.owner_eq_iff hplain hp hr (isEmpty_of_mem_fields hf)).1 howner
      exact ⟨r.2, hr, f, hf, hk, .inr ⟨q.2, ho, rfl⟩⟩
  · rintro ⟨o, hq, f, hf, hk, ⟨v, hv, hkind⟩ | ⟨o', ho', rfl⟩⟩
    · have hreg := hplain.field_regular hq hf
      refine .inl ⟨_, hq, f, hf, rfl, hk, hreg.isNull_of_leaf hv, ?_⟩
      exact (contains_leafKinds_iff hreg.leaves).2 ⟨v, hv, hkind⟩
    · have hn := (hplain.field_regular hq hf).isNull_of_object ho'
      exact .inr ⟨_, Extracted.handedDown_placedIn es p o f o' hq hf hn ho', p, by rw [hk], rfl, rfl⟩

/-- A field of a populated place has fewer values than there are objects when an object there lacks it, or
holds a null in it. -/
theorem nonNull_lt_iff {p : Place} (hp : IsPopulated es p) {k : String} {s : FieldStats}
    (hs : a.field? (Place.owner top p) k = some s) :
    s.nonNull < a.observationsOf (Place.owner top p) ↔ ∃ o ∈ instancesAt es p.path,
      (∀ f ∈ o.fields, f.key ≠ k) ∨ ∃ f ∈ o.fields, f.key = k ∧ f.isNull = true := by
  have hrecord := (h.records.fields (Place.owner top p) k).nonNull
  rw [Records.stats_eq hs] at hrecord
  rw [hrecord, h.countP_shows_eq hplain hp, h.observationsOf_eq hplain hp, List.countP_lt_length_iff]
  refine exists_congr fun o => and_congr_right fun ho => ?_
  rw [← Bool.not_eq_true, ObjectSample.holds_iff]
  constructor
  · intro hlacks
    by_cases hk : ∃ f ∈ o.fields, f.key = k
    · obtain ⟨f, hf, hk⟩ := hk
      refine .inr ⟨f, hf, hk, ?_⟩
      cases hn : f.isNull with
      | true => rfl
      | false => exact absurd ⟨f, hf, hk, by rw [hn]; rfl⟩ hlacks
    · exact .inl fun f hf hk' => hk ⟨f, hf, hk'⟩
  · rintro (hnone | ⟨f, hf, hk, hn⟩) ⟨g, hg, hgk, hgn⟩
    · exact hnone g hg hgk
    · -- the keys of an object are different, so the null is all that it holds there
      have hq := (mem_instancesAt hplain hp).1 ho
      obtain rfl := List.inj_on_of_nodup_map (h.distinct _ hq) hf hg (hk.trans hgk.symm)
      rw [hn] at hgn
      cases hgn

/-- A definition of the schema of a populated place says what the objects there show. -/
theorem exactField {p : Place} (hp : IsPopulated es p) {k : String} {s : FieldStats}
    (hs : a.field? (Place.owner top p) k = some s) :
    ExactField detect (instancesAt es p.path)
      (fieldDefinition a (a.observationsOf (Place.owner top p)) k s) := by
  have hrecord := h.records.fields (Place.owner top p) k
  rw [Records.stats_eq hs] at hrecord
  have hpos (test : (isNull isArray : Bool) → Bool) :
      0 < (es.flatMap (documentEvents detect top)).countP (Event.shows (Place.owner top p) k test) ↔
        ∃ o ∈ instancesAt es p.path, ∃ f ∈ o.fields, f.key = k ∧ test f.isNull f.isArray = true := by
    rw [h.countP_shows_eq hplain hp, List.countP_pos_iff]
    simp only [ObjectSample.holds_iff]
  have harrays : s.isArray = true ↔
      ∃ o ∈ instancesAt es p.path, ∃ f ∈ o.fields, f.key = k ∧ f.isArray = true := by
    rw [FieldStats.isArray, decide_eq_true_eq, hrecord.arrays, hpos]
    refine exists_congr fun o => and_congr_right fun _ => exists_congr fun f =>
      and_congr_right fun _ => and_congr_right fun _ => ?_
    rw [Bool.and_eq_true, Bool.not_eq_true']
    exact and_iff_right_of_imp FieldSample.isNull_of_isArray
  have hscalars : decide (0 < s.scalars) = true ↔ ∃ o ∈ instancesAt es p.path, ∃ f ∈ o.fields,
      f.key = k ∧ f.isNull = false ∧ f.isArray = false := by
    rw [decide_eq_true_eq, hrecord.scalars, hpos]
    simp only [Bool.and_eq_true, Bool.not_eq_true']
  constructor
  case occurrences =>
    rw [fieldDefinition, hrecord.present, h.countP_shows_eq hplain hp]
    simp only [ObjectSample.holds, Bool.and_true]
  case isArray => exact harrays
  case isNullable =>
    refine Iff.trans ?_ (or_congr (h.nonNull_lt_iff hplain hp hs) (and_congr harrays hscalars))
    rw [fieldDefinition, Bool.or_eq_true, decide_eq_true_eq, FieldStats.hasArrayConflict, Bool.and_eq_true]
    rfl
  case type =>
    have hkinds := h.kinds_eq hplain hp k
    rw [Records.stats_eq hs] at hkinds
    rw [fieldDefinition, typeOf_of_records h.records hs, FieldStats.resolvedType?, hkinds]

/-- The schema of a populated place says what the objects there show. -/
theorem exact {p : Place} (hp : IsPopulated es p) {c : TypeContext}
    (hc : a.context? (Place.owner top p) = some c) :
    Exact detect (instancesAt es p.path) (schemaOf identifier? a (Place.owner top p) c) := by
  have hnames : (schemaOf identifier? a (Place.owner top p) c).fieldNames = fieldOrder identifier? c := by
    rw [EntitySchema.fieldNames, schemaOf_fields h.records hc, map_name_fieldDefinitions]
  constructor
  case names =>
    intro key
    have hknown : (c.fields.get? key).isSome ↔ (a.field? (Place.owner top p) key).isSome := by
      rw [Accumulator.field?, hc]
      rfl
    rw [hnames, (fieldOrder_perm identifier? c).mem_iff, Table.mem_keys_iff, hknown, h.field?_isSome_iff]
    simp only [mem_instancesAt hplain hp]
    constructor
    · rintro ⟨q, hq, howner, f, hf, hk⟩
      obtain rfl := (h.owner_eq_iff hplain hp hq (isEmpty_of_mem_fields hf)).1 howner
      exact ⟨q.2, hq, f, hf, hk⟩
    · rintro ⟨o, hq, f, hf, hk⟩
      exact ⟨_, hq, rfl, f, hf, hk⟩
  case distinct =>
    rw [hnames, fieldOrder, (identifierFirst_perm identifier? _).nodup_iff]
    exact c.fields.nodup_sortedKeys
  case fields =>
    intro d hd
    rw [schemaOf_fields h.records hc] at hd
    obtain ⟨k, s, hs, rfl⟩ := (mem_fieldDefinitions_iff hc).1 hd
    exact h.exactField hplain hp hs

end Merged

/-- What is extracted from proper documents and has plain keys. -/
theorem plainDocuments_of_extract {s : ExtractionSettings}
    (hextract : ∀ e ∈ es, ∃ d : Value, d.isProper = true ∧ Extraction.extract s d = .ok e)
    (hplain : ∀ e ∈ es, ∀ o ∈ e.objects, ∀ f ∈ o.fields, Path.IsPlainKey f.key) :
    PlainDocuments es := by
  have hregular : ∀ e ∈ es, e.root.Regular ∧ e.root.path = "" := by
    intro e he
    obtain ⟨d, hproper, h⟩ := hextract e he
    exact Extraction.regular_of_extract h hproper
  refine ⟨fun e he => (hregular e he).1, fun e he => (hregular e he).2, fun q hq => ?_⟩
  obtain ⟨e, he, hq⟩ := Extracted.mem_placedIn.1 hq
  exact hplain e he q.2 (List.mem_map_of_mem hq)

/-- What is extracted from proper documents with plain keys, one by one. -/
theorem plainDocuments {s : ExtractionSettings} {documents : List Value}
    (hproper : ∀ d ∈ documents, d.isProper = true)
    (hextract : documents.mapM (Extraction.extract s) = .ok es)
    (hplain : ∀ e ∈ es, ∀ o ∈ e.objects, ∀ f ∈ o.fields, Path.IsPlainKey f.key) :
    PlainDocuments es := by
  refine plainDocuments_of_extract (s := s) (fun e he => ?_) hplain
  obtain ⟨d, hd, h⟩ := exists_of_mapM_ok hextract he
  exact ⟨d, hproper d hd, h⟩

/-- **Exactness of the inferred schema.** Proper documents with plain keys are merged as a whole, and if
no name was refused in the end, the top-level schema is what the documents show, and the nested schemas
belong to the paths at which there are objects with fields and are what the objects at their paths
show. -/
theorem merged_exact (s : ExtractionSettings) (detect : Bool) (identifier? : Option String)
    (collection top : String) (documents : List Value) (es : List Extracted)
    (hproper : ∀ d ∈ documents, d.isProper = true)
    (hextract : documents.mapM (Extraction.extract s) = .ok es)
    (hplain : ∀ e ∈ es, ∀ o ∈ e.objects, ∀ f ∈ o.fields, Path.IsPlainKey f.key) :
    let a := mergeAll detect es (.fresh collection top)
    (∀ e ∈ es, ∀ b, (mergeDocument detect e b).fault? = none) ∧ (a.collisions = [] →
      Exact detect (instancesAt es "") (entity identifier? a) ∧
      (∀ path, path ≠ "" → ((∃ e ∈ nestedEntities identifier? a, e.sourcePath? = some path) ↔
        ∃ o ∈ instancesAt es path, o.isEmpty = false)) ∧
      ∀ e ∈ nestedEntities identifier? a, ∃ path, e.sourcePath? = some path ∧ path ≠ "" ∧
        Exact detect (instancesAt es path) e) := by
  intro a
  have hdocuments := plainDocuments hproper hextract hplain
  refine ⟨fun e he => fault?_mergeDocument (hdocuments.regular e he), fun hclean => ?_⟩
  have h : Merged detect top es a := .of_regular hdocuments.regular hclean
  refine ⟨h.exact hdocuments (p := []) (.inl rfl) rfl, fun path hpath => ?_, fun e he => ?_⟩
  · constructor
    · rintro ⟨e, he, hsource⟩
      obtain ⟨n, c, hc, rfl⟩ := (mem_nestedEntities_iff h.records).1 he
      obtain ⟨q, hq, hne, -, -, hcpath⟩ := h.exists_place_of_context hdocuments hc
      obtain rfl : c.path = path := Option.some.inj hsource
      rw [hcpath]
      exact ⟨q.2, (mem_instancesAt hdocuments (.inr ⟨q, hq, rfl, hne⟩)).2 hq, hne⟩
    · rintro ⟨o, ho, hne⟩
      rw [instancesAt, List.mem_filter, decide_eq_true_eq, List.mem_flatMap] at ho
      obtain ⟨⟨e, he, ho⟩, rfl⟩ := ho
      obtain ⟨q, hq, rfl⟩ := List.mem_map.1 ho
      have hq := Extracted.mem_placedIn.2 ⟨e, he, hq⟩
      rw [hdocuments.logical_path_of_placed hq] at hpath ⊢
      have hroot : q.1 ≠ [] := fun hroot => hpath (by rw [hroot]; rfl)
      obtain ⟨c, hc, hcpath⟩ := h.exists_context hdocuments hq hne hroot
      obtain ⟨key, up, hplace⟩ := List.exists_cons_of_ne_nil hroot
      rw [hplace, Place.owner_cons] at hc
      exact ⟨_, (mem_nestedEntities_iff h.records).2 ⟨_, c, hc, rfl⟩, congrArg some hcpath⟩
  · obtain ⟨n, c, hc, rfl⟩ := (mem_nestedEntities_iff h.records).1 he
    obtain ⟨q, hq, hne, hroot, howner, hcpath⟩ := h.exists_place_of_context hdocuments hc
    refine ⟨c.path, rfl, ?_, ?_⟩
    · rw [hcpath, ne_eq, Place.path_eq_empty_iff (hdocuments.plain_place hq)]
      exact hroot
    · have hexact : Exact detect (instancesAt es q.1.path) (schemaOf identifier? a (Place.owner top q.1) c) :=
        h.exact hdocuments (.inr ⟨q, hq, rfl, hne⟩) (by rw [howner]; exact hc)
      rw [howner] at hexact
      rw [hcpath]
      exact hexact

/-- Two documents of which one holds an object in a field and the other an object without fields
there. -/
theorem merged_exact_pair :
    let documents : List Value := [.map [("a", .map [("b", .int 1)]), ("c", .sequence [.string "x", .null])],
      .map [("c", .null), ("a", .map [])]]
    ∃ es, documents.mapM (Extraction.extract {}) = .ok es ∧ es.length = 2 ∧
      ∀ e ∈ nestedEntities none (mergeAll true es (.fresh "c" "C")),
        ∃ path, e.sourcePath? = some path ∧ path ≠ "" ∧ Exact true (instancesAt es path) e := by
  intro documents
  refine ⟨_, rfl, rfl, ?_⟩
  refine ((merged_exact {} true none "c" "C" documents _ ?_ rfl ?_).2 ?_).2.2
  · decide
  · decide
  · rfl

end Schema

end DocSchema
