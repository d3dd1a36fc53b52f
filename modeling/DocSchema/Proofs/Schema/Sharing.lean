import DocSchema.Proofs.Merge.Alignment
import DocSchema.Proofs.Schema.Exactness

/-!
# Nested types that fields share

Two fields may synthesize the same name for the types of their objects. The name is registered for the
path of the field that came first, and a field with another path is refused it, which is reported. Two
fields with the same path are not told apart, though: they share the type, and nothing says so. With
plain keys no two fields have the same path.

- `Records.reported`: of two fields with one type and different paths one was refused it.
- `shared_type_reported`: which fields share a type only with a report.
- `shared_type_unreported`: a key with a dot shares the type of another field.
-/

namespace DocSchema.Schema

/-- Of two fields with the same nested type and different paths one was refused the name, since the name is
registered for one path only. -/
theorem Records.reported {a : Accumulator} {es : List Event} (h : Records a es) {o o' : Owner}
    {k k' name : String} {f f' : FieldStats} (hf : a.field? o k = some f) (hf' : a.field? o' k' = some f')
    (hname : f.nestedType? = some name) (hname' : f'.nestedType? = some name) (hne : f.path ≠ f'.path) :
    ∃ c ∈ a.collisions, c.typeName = name := by
  have hasked {o : Owner} {k : String} {f : FieldStats} (hf : a.field? o k = some f)
      (hname : f.nestedType? = some name) : ∃ c, a.head? (.nested name) = some c ∧
        (c.path = f.path ∨ ⟨name, c.path, f.path⟩ ∈ a.collisions) := by
    have htype := h.nestedType?_eq o k
    rw [stats_eq hf, hname] at htype
    split at htype
    · rename_i hin
      obtain ⟨c, hc, hpath⟩ := h.asked o k hin
      rw [← Option.some.inj htype, stats_eq hf] at hpath
      rw [← Option.some.inj htype] at hc
      exact ⟨c, hc, hpath⟩
    · cases htype
  obtain ⟨c, hc, hpath⟩ := hasked hf hname
  obtain ⟨c', hc', hpath'⟩ := hasked hf' hname'
  obtain rfl : c = c' := by rwa [hc, Option.some.injEq] at hc'
  rcases hpath with hpath | hrefused
  · rcases hpath' with hpath' | hrefused'
    · exact absurd (hpath.symm.trans hpath') hne
    · exact ⟨_, hrefused', rfl⟩
  · exact ⟨_, hrefused, rfl⟩

/-- **No nested type is shared unreported, unless the paths are the same.** Whatever converted documents
have been merged, two different fields with the same nested type that are known under different paths have
a report on that type; and when all keys that were seen are plain, so have any two different fields with
the same nested type. -/
theorem shared_type_reported (s : ExtractionSettings) (detect : Bool) (collection top : String)
    (documents : List Value) (es : List Extracted) (hproper : ∀ d ∈ documents, d.isProper = true)
    (hextract : documents.mapM (Extraction.extract s) = .ok es) :
    let a := mergeAll detect es (.fresh collection top)
    ∀ o o' k k' f f' name, a.field? o k = some f → a.field? o' k' = some f' → (o, k) ≠ (o', k') →
      f.nestedType? = some name → f'.nestedType? = some name →
      f.path ≠ f'.path ∨ (∀ e ∈ es, ∀ x ∈ e.objects, ∀ g ∈ x.fields, Path.IsPlainKey g.key) →
      ∃ c ∈ a.collisions, c.typeName = name := by
  intro a o o' k k' f f' name hf hf' hdistinct hname hname' hcase
  obtain ⟨events, run, -⟩ := @mergeAll_traced detect top es (.fresh collection top) rfl
  have hrecords : Records a events := records_of_run (.fresh collection top) run
  refine hrecords.reported hf hf' hname hname' ?_
  rcases hcase with hne | hplain
  · exact hne
  · intro heq
    have haligned : Aligned a :=
      aligned_mergeAll (plainDocuments hproper hextract hplain) (aligned_fresh collection top) rfl
    obtain ⟨rfl, rfl⟩ := haligned.field_eq hrecords run.rootPath hf hf' heq
    exact hdistinct rfl

/-- A field of the top level and one below another field have the same type and different paths, which is
reported. -/
theorem shared_type_reported_underscore :
    let documents : List Value := [.map [("a_b", .map [("x", .int 1)]),
      ("a", .sequence [.map [("b", .map [("y", .int 1)])]])]]
    ∃ es, documents.mapM (Extraction.extract {}) = .ok es ∧
      let a := mergeAll true es (.fresh "c" "C")
      (a.field? .root "a_b").bind FieldStats.nestedType? = some "CAB" ∧
        (a.field? (.nested "CA") "b").bind FieldStats.nestedType? = some "CAB" ∧
        ∃ c ∈ a.collisions, c.typeName = "CAB" := by
  intro documents
  obtain ⟨es, hes⟩ : ∃ es, documents.mapM (Extraction.extract {}) = .ok es := ⟨_, rfl⟩
  have htypes : ∀ es, documents.mapM (Extraction.extract {}) = .ok es →
      ((mergeAll true es (.fresh "c" "C")).field? .root "a_b").bind FieldStats.nestedType? = some "CAB" ∧
      ((mergeAll true es (.fresh "c" "C")).field? (.nested "CA") "b").bind FieldStats.nestedType? =
        some "CAB" ∧
      ∀ e ∈ es, ∀ x ∈ e.objects, ∀ g ∈ x.fields, Path.IsPlainKey g.key := by
    rintro - ⟨⟩
    refine ⟨by decide +kernel, by decide +kernel, by decide +kernel⟩
  obtain ⟨htype, htype', hplain⟩ := htypes es hes
  obtain ⟨f, hf, hname⟩ := Option.bind_eq_some_iff.1 htype
  obtain ⟨f', hf', hname'⟩ := Option.bind_eq_some_iff.1 htype'
  refine ⟨es, hes, htype, htype', ?_⟩
  exact shared_type_reported {} true "c" "C" documents es (by decide +kernel) hes .root (.nested "CA") "a_b"
    "b" f f' "CAB" hf hf' (by decide) hname hname' (.inr hplain)

/-- A key with a dot is known under the path of a field below another one. The two have the same type,
whose schema has the fields of both, and no report says so; and so have a key with an array marker and the
key without it. -/
theorem shared_type_unreported :
    (let documents : List Value := [.map [("a.b", .map [("x", .int 1)]),
        ("a", .map [("b", .map [("y", .int 1)])])]]
      ∃ es, documents.mapM (Extraction.extract {}) = .ok es ∧
        let a := mergeAll true es (.fresh "c" "C")
        (a.field? .root "a.b").bind FieldStats.nestedType? = some "CAB" ∧
        (a.field? (.nested "CA") "b").bind FieldStats.nestedType? = some "CAB" ∧ a.collisions = [] ∧
        (a.context? (.nested "CAB")).map (fun c => c.fields.keys) = some ["x", "y"]) ∧
    (let documents : List Value := [.map [("a[]", .map [("x", .int 1)]), ("a", .map [("y", .int 1)])]]
      ∃ es, documents.mapM (Extraction.extract {}) = .ok es ∧
        let a := mergeAll true es (.fresh "c" "C")
        (a.field? .root "a[]").bind FieldStats.nestedType? = some "CA" ∧
        (a.field? .root "a").bind FieldStats.nestedType? = some "CA" ∧ a.collisions = []) := by
  refine ⟨⟨_, rfl, ?_⟩, ⟨_, rfl, ?_⟩⟩
  · decide +kernel
  · decide +kernel

end DocSchema.Schema
