import DocSchema.Proofs.Extraction.Paths
import DocSchema.Proofs.Schema.Exactness
import DocSchema.Proofs.Schema.Graph

/-!
# Every discovered path is defined once

The paths that documents have shown are kept as a flat list of strings, and the schemas are built from
contexts that are found by their names. When plain documents have been merged and no name was refused,
the two agree: a definition belongs to a key at a place, places tell schemas apart, and each field of each
object has left its path.

- `definedPaths`: the paths of the fields that schemas define.
- `Merged.mem_definedPaths_iff`: they are those of the fields of all objects.
- `Merged.nodup_definedPaths`: none of them is defined twice.
- `merged_discovery`: the schemas define the logical paths that were seen, each once.
-/

namespace DocSchema

/-- The path of a schema; that of a top-level schema is empty. -/
def EntitySchema.path (e : EntitySchema) : String :=
  e.sourcePath?.getD ""

/-- The paths of the fields that schemas define, one for each definition. -/
def definedPaths (schemas : List EntitySchema) : List String :=
  schemas.flatMap fun e => e.fields.map fun d => Path.child e.path d.name

theorem definedPaths_eq (schemas : List EntitySchema) :
    definedPaths schemas = schemas.flatMap fun e => e.fieldNames.map (Path.child e.path) := by
  simp only [definedPaths, EntitySchema.fieldNames, List.map_map]
  rfl

namespace Schema

open Extracted (placedIn)
open ObjectSample (isEmpty_of_mem_fields)

variable {detect : Bool} {top : String} {es : List Extracted} {a : Accumulator}
  {identifier? : Option String}

namespace Merged

variable (h : Merged detect top es a) (hplain : PlainDocuments es)

include h hplain

/-- A schema belongs to a populated place and has its path. -/
theorem exists_place_of_schema {e : EntitySchema} (he : e ∈ schemas identifier? a) :
    ∃ p c, IsPopulated es p ∧ a.context? (Place.owner top p) = some c ∧
      e = schemaOf identifier? a (Place.owner top p) c ∧ e.path = p.path := by
  obtain ⟨o, c, hc, rfl⟩ := (mem_schemas_iff h.records).1 he
  cases o with
  | root => exact ⟨[], c, .inl rfl, hc, rfl, rfl⟩
  | nested n =>
    obtain ⟨q, hq, hne, -, howner, hpath⟩ := h.exists_place_of_context hplain hc
    rw [← howner] at hc ⊢
    refine ⟨q.1, c, .inr ⟨q, hq, rfl, hne⟩, hc, rfl, ?_⟩
    rw [howner]
    exact hpath

/-- A place with an object with fields has a schema, which has its path. -/
theorem exists_schema_of_place {q : Place × ObjectSample} (hq : q ∈ placedIn es)
    (hne : q.2.isEmpty = false) :
    ∃ c, a.context? (Place.owner top q.1) = some c ∧
      (schemaOf identifier? a (Place.owner top q.1) c).path = q.1.path := by
  by_cases hroot : q.1 = []
  · rw [hroot]
    exact ⟨a.root, rfl, rfl⟩
  · obtain ⟨c, hc, hpath⟩ := h.exists_context hplain hq hne hroot
    obtain ⟨key, up, hplace⟩ := List.exists_cons_of_ne_nil hroot
    refine ⟨c, hc, ?_⟩
    rw [hplace] at hpath ⊢
    exact hpath

/-- The schema of a populated place defines the keys of the objects there. -/
theorem mem_fieldNames_iff {p : Place} (hp : IsPopulated es p) {c : TypeContext}
    (hc : a.context? (Place.owner top p) = some c) {key : String} :
    key ∈ (schemaOf identifier? a (Place.owner top p) c).fieldNames ↔
      ∃ q ∈ placedIn es, q.1 = p ∧ ∃ f ∈ q.2.fields, f.key = key := by
  rw [(h.exact hplain hp hc).names]
  simp only [mem_instancesAt hplain hp]
  constructor
  · rintro ⟨o, ho, hkey⟩
    exact ⟨_, ho, rfl, hkey⟩
  · rintro ⟨q, hq, rfl, hkey⟩
    exact ⟨q.2, hq, hkey⟩

/-- The paths that are defined are those of the fields of all objects. -/
theorem mem_definedPaths_iff {path : String} : path ∈ definedPaths (schemas identifier? a) ↔
    ∃ q ∈ placedIn es, ∃ f ∈ q.2.fields, Place.path (f.key :: q.1) = path := by
  rw [definedPaths_eq, List.mem_flatMap]
  constructor
  · rintro ⟨e, he, hin⟩
    obtain ⟨key, hkey, rfl⟩ := List.mem_map.1 hin
    obtain ⟨p, c, hp, hc, rfl, hpath⟩ := h.exists_place_of_schema hplain he
    obtain ⟨q, hq, rfl, f, hf, rfl⟩ := (h.mem_fieldNames_iff hplain hp hc).1 hkey
    exact ⟨q, hq, f, hf, by rw [hpath]; rfl⟩
  · rintro ⟨q, hq, f, hf, rfl⟩
    have hne := isEmpty_of_mem_fields hf
    obtain ⟨c, hc, hpath⟩ : ∃ c, a.context? (Place.owner top q.1) = some c ∧
        (schemaOf identifier? a (Place.owner top q.1) c).path = q.1.path :=
      h.exists_schema_of_place hplain hq hne
    refine ⟨_, (mem_schemas_iff h.records).2 ⟨_, c, hc, rfl⟩, List.mem_map.2 ⟨f.key, ?_, ?_⟩⟩
    · exact (h.mem_fieldNames_iff hplain (.inr ⟨q, hq, rfl, hne⟩) hc).2 ⟨q, hq, rfl, f, hf, rfl⟩
    · rw [hpath]
      rfl

/-- The path of a definition tells its schema and its name. -/
theorem definedPath_injective {e e' : EntitySchema} (he : e ∈ schemas identifier? a)
    (he' : e' ∈ schemas identifier? a) {key key' : String} (hkey : key ∈ e.fieldNames)
    (hkey' : key' ∈ e'.fieldNames) (heq : Path.child e.path key = Path.child e'.path key') :
    e = e' ∧ key = key' := by
  obtain ⟨p, c, hp, hc, rfl, hpath⟩ := h.exists_place_of_schema hplain he
  obtain ⟨p', c', hp', hc', rfl, hpath'⟩ := h.exists_place_of_schema hplain he'
  obtain ⟨q, hq, rfl, f, hf, rfl⟩ := (h.mem_fieldNames_iff hplain hp hc).1 hkey
  obtain ⟨q', hq', rfl, f', hf', rfl⟩ := (h.mem_fieldNames_iff hplain hp' hc').1 hkey'
  rw [hpath, hpath'] at heq
  have hplaces : f.key :: q.1 = f'.key :: q'.1 :=
    Place.path_injective (List.forall_mem_cons.2 ⟨hplain.plain q hq f hf, hplain.plain_place hq⟩)
      (List.forall_mem_cons.2 ⟨hplain.plain q' hq' f' hf', hplain.plain_place hq'⟩) heq
  obtain ⟨hkeys, hplace⟩ := List.cons.inj hplaces
  rw [hplace, hc', Option.some.injEq] at hc
  rw [hplace, hc]
  exact ⟨rfl, hkeys⟩

/-- No path is defined twice. -/
theorem nodup_definedPaths : (definedPaths (schemas identifier? a)).Nodup := by
  rw [definedPaths_eq, List.nodup_flatMap]
  constructor
  · intro e he
    obtain ⟨p, c, hp, hc, heq, -⟩ := h.exists_place_of_schema hplain he
    have hdistinct : e.fieldNames.Nodup := by
      rw [heq]
      exact (h.exact hplain hp hc).distinct
    exact hdistinct.map_on fun key hkey key' hkey' hpath =>
      (h.definedPath_injective hplain he he hkey hkey' hpath).2
  · refine (nodup_names h.records).of_map.pairwise_of_forall_ne fun e he e' he' hne => ?_
    intro path hin hin'
    obtain ⟨key, hkey, rfl⟩ := List.mem_map.1 hin
    obtain ⟨key', hkey', hpath⟩ := List.mem_map.1 hin'
    exact hne (h.definedPath_injective hplain he he' hkey hkey' hpath.symm).1

/-- The context of an owner has the path of a place of the owner. -/
theorem exists_place_of_owner (hroot : a.root.path = "") {o : Owner} {c : TypeContext}
    (hc : a.context? o = some c) :
    ∃ p, (∀ key ∈ p, Path.IsPlainKey key) ∧ Place.owner top p = o ∧ c.path = p.path := by
  cases o with
  | root =>
    obtain rfl : a.root = c := Option.some.inj hc
    exact ⟨[], List.forall_mem_nil _, rfl, hroot⟩
  | nested n =>
    obtain ⟨q, hq, -, -, howner, hpath⟩ := h.exists_place_of_context hplain hc
    exact ⟨q.1, hplain.plain_place hq, howner, hpath⟩

/-- The path of a context tells its owner. -/
theorem owner_eq_of_path (hroot : a.root.path = "") {o o' : Owner} {c c' : TypeContext}
    (hc : a.context? o = some c) (hc' : a.context? o' = some c') (hpath : c.path = c'.path) : o = o' := by
  obtain ⟨p, hp, rfl, hcp⟩ := h.exists_place_of_owner hplain hroot hc
  obtain ⟨p', hp', rfl, hcp'⟩ := h.exists_place_of_owner hplain hroot hc'
  rw [hcp, hcp'] at hpath
  rw [Place.path_injective hp hp' hpath]

/-- The logical paths that were seen are those of the fields of all objects. -/
theorem exists_seen_iff {path : String}
    (hpaths : ∀ e ∈ es, ∀ p, p ∈ e.paths ↔ ∃ q ∈ e.placed, ∃ f ∈ q.2.fields, f.path = p) :
    (∃ p ∈ a.seenPaths, Path.logical p = path) ↔
      ∃ q ∈ placedIn es, ∃ f ∈ q.2.fields, Place.path (f.key :: q.1) = path := by
  simp only [h.mem_seenPaths_iff]
  constructor
  · rintro ⟨p, ⟨e, he, hp⟩, rfl⟩
    obtain ⟨q, hq, f, hf, rfl⟩ := (hpaths e he p).1 hp
    have hq := Extracted.mem_placedIn.2 ⟨e, he, hq⟩
    exact ⟨q, hq, f, hf, (hplain.logical_path_of_field hq hf).symm⟩
  · rintro ⟨q, hq, f, hf, rfl⟩
    obtain ⟨e, he, hqe⟩ := Extracted.mem_placedIn.1 hq
    exact ⟨f.path, ⟨e, he, (hpaths e he f.path).2 ⟨q, hqe, f, hf, rfl⟩⟩,
      hplain.logical_path_of_field hq hf⟩

end Merged

/-- **Every discovered path is in the schema exactly once.** Proper documents with plain keys are merged as
a whole, and if no name was refused in the end, the definitions of the schemas, each with the path of its
schema before its name, have pairwise different paths, and these are the logical paths of the paths that
were seen; and different owners have contexts with different paths. -/
theorem merged_discovery (s : ExtractionSettings) (detect : Bool) (identifier? : Option String)
    (collection top : String) (documents : List Value) (es : List Extracted)
    (hproper : ∀ d ∈ documents, d.isProper = true)
    (hextract : documents.mapM (Extraction.extract s) = .ok es)
    (hplain : ∀ e ∈ es, ∀ o ∈ e.objects, ∀ f ∈ o.fields, Path.IsPlainKey f.key) :
    let a := mergeAll detect es (.fresh collection top)
    (∀ e ∈ es, ∀ b, (mergeDocument detect e b).fault? = none) ∧ (a.collisions = [] →
      (definedPaths (schemas identifier? a)).Nodup ∧
      (∀ path, path ∈ definedPaths (schemas identifier? a) ↔ ∃ p ∈ a.seenPaths, Path.logical p = path) ∧
      ∀ o o' c c', a.context? o = some c → a.context? o' = some c' → c.path = c'.path → o = o') := by
  intro a
  have hdocuments := plainDocuments hproper hextract hplain
  refine ⟨fun e he => fault?_mergeDocument (hdocuments.regular e he), fun hclean => ?_⟩
  have h : Merged detect top es a := .of_regular hdocuments.regular hclean
  have hpaths : ∀ e ∈ es, ∀ p, p ∈ e.paths ↔ ∃ q ∈ e.placed, ∃ f ∈ q.2.fields, f.path = p := by
    intro e he p
    obtain ⟨d, -, hd⟩ := exists_of_mapM_ok hextract he
    exact Extraction.mem_paths_iff hd
  have hroot : a.root.path = "" := by
    obtain ⟨events, run, -⟩ := @mergeAll_traced detect top es (.fresh collection top) rfl
    exact run.rootPath
  refine ⟨h.nodup_definedPaths hdocuments, fun path => ?_, fun o o' c c' hc hc' hpath => ?_⟩
  · exact (h.mem_definedPaths_iff hdocuments).trans (h.exists_seen_iff hdocuments hpaths).symm
  · exact h.owner_eq_of_path hdocuments hroot hc hc' hpath

/-- A path that one document has below an array and the other below an object is defined once. -/
theorem merged_discovery_pair :
    let documents : List Value := [.map [("a", .sequence [.map [("b", .int 1)], .null]), ("b", .null)],
      .map [("a", .map [("b", .sequence [])])]]
    ∃ es, documents.mapM (Extraction.extract {}) = .ok es ∧
      let a := mergeAll true es (.fresh "c" "C")
      "a[].b" ∈ a.seenPaths ∧ "a.b[]" ∈ a.seenPaths ∧ (definedPaths (schemas none a)).count "a.b" = 1 := by
  intro documents
  refine ⟨_, rfl, by decide +kernel, by decide +kernel, ?_⟩
  obtain ⟨hnodup, hpaths, -⟩ :=
    (merged_discovery {} true none "c" "C" documents _ (by decide) rfl (by decide)).2 (by decide +kernel)
  exact List.count_eq_one_of_mem hnodup ((hpaths "a.b").2 ⟨"a[].b", by decide +kernel, by decide +kernel⟩)

end Schema

end DocSchema
