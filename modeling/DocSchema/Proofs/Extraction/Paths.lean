import DocSchema.Extraction.Walk
import DocSchema.Proofs.Extraction.Place

/-!
# The paths of a document are those of its fields

Paths and samples are gathered apart. Both walks pass over the same keys, elements and objects, so there
is one path for each field of each object.

- `paths_perm`: the paths of a document are those of the fields of its objects.
- `mem_paths_iff`: a path belongs to a field of an object that stands at a place.
-/

namespace DocSchema

/-- The paths of the fields of some objects. -/
def ObjectSample.pathsOf (placed : List (Place × ObjectSample)) : List String :=
  placed.flatMap fun q => q.2.fields.map FieldSample.path

namespace Extraction

open ObjectSample (placedFields placedObjects pathsOf)

variable {s : ExtractionSettings}

theorem pathsOf_append (xs ys : List (Place × ObjectSample)) :
    pathsOf (xs ++ ys) = pathsOf xs ++ pathsOf ys :=
  List.flatMap_append

/-- The paths of an object are those of its fields and of the objects below them. -/
theorem pathsOf_placedObjects_cons (place : Place) (path : String) (fields : List FieldSample)
    (objects : List ObjectSample) :
    pathsOf (placedObjects place (.mk path fields :: objects)) =
      (fields.map FieldSample.path ++ pathsOf (placedFields place fields)) ++
        pathsOf (placedObjects place objects) := by
  rw [placedObjects, pathsOf_append, ObjectSample.placed, pathsOf, List.flatMap_cons]
  rfl

mutual
theorem fieldSamples_paths (path : String) (depth : Nat) (place : Place) :
    ∀ entries : List (String × Value),
    ((fieldSamples s path depth entries).map FieldSample.path ++
      pathsOf (placedFields place (fieldSamples s path depth entries))).Perm
      (fieldPaths s path depth entries)
  | [] => by
    rw [fieldSamples, fieldPaths]
    exact .refl _
  | (key, value) :: entries => by
    have hrest := fieldSamples_paths path depth place entries
    rw [fieldSamples, fieldPaths]
    split
    · exact hrest
    · have hfield := fieldSample_paths key (Path.child path key) depth place value
      rw [ObjectSample.placedFields_cons, pathsOf_append, List.map_cons]
      refine .trans ?_ (hfield.append hrest)
      -- the paths below the field come before those of the later fields
      rw [List.cons_append, List.cons_append, ← List.append_assoc, ← List.append_assoc]
      exact .cons _ (List.perm_append_comm.append_right _)
theorem fieldSample_paths (key path : String) (depth : Nat) (place : Place) : ∀ v : Value,
    ((fieldSample s key path depth v).path ::
      pathsOf (if (fieldSample s key path depth v).isNull then []
        else placedObjects ((fieldSample s key path depth v).key :: place)
          (fieldSample s key path depth v).objects)).Perm (valuePaths s path depth v)
  | .sequence items => by
    rw [fieldSample, valuePaths]
    exact .cons _ (elementObjects_paths _ depth (key :: place) s.arraySampleSize items)
  | .map entries => by
    rw [fieldSample, valuePaths]
    split
    · have hfields := fieldSamples_paths path (depth + 1) (key :: place) entries
      have hone := pathsOf_placedObjects_cons (key :: place) path
        (fieldSamples s path (depth + 1) entries) []
      exact .cons _ ((hone.trans (List.append_nil _)) ▸ hfields)
    · exact .refl _
  | .null | .bool _ | .int _ | .float _ | .string _ | .identifier _ | .binary _ | .unfit _ _ => by
    simp [fieldSample, valuePaths, FieldSample.path, FieldSample.objects, placedObjects, pathsOf]
theorem elementObjects_paths (path : String) (depth : Nat) (place : Place) :
    ∀ (count : Nat) (items : List Value),
    (pathsOf (placedObjects place (elementObjects s path depth count items))).Perm
      (elementPaths s path depth count items)
  | _, [] => by
    rw [elementObjects, elementPaths]
    exact .refl _
  | 0, _ :: _ => by
    rw [elementObjects, elementPaths]
    exact .refl _
  | count + 1, item :: items => by
    have hrest := elementObjects_paths path depth place count items
    cases item with
    | map entries =>
      rw [elementObjects, elementPaths]
      split
      · rw [pathsOf_placedObjects_cons]
        exact (fieldSamples_paths path (depth + 1) place entries).append hrest
      · exact hrest
    | _ => simpa only [elementObjects, elementPaths] using hrest
end

/-- A document has one path for each field of each of its objects. -/
theorem paths_perm {d : Value} {e : Extracted} (h : extract s d = .ok e) :
    ((e.objects.flatMap ObjectSample.fields).map FieldSample.path).Perm e.paths := by
  have he : extracted s (entriesOf d) = e := (extract_ok_iff.1 h).2
  have hfields : (e.objects.flatMap ObjectSample.fields).map FieldSample.path = pathsOf e.placed := by
    rw [Extracted.objects, List.flatMap_map, List.map_flatMap]
    rfl
  rw [hfields, ← he, Extracted.placed, extracted, ObjectSample.placed, pathsOf, List.flatMap_cons]
  exact fieldSamples_paths "" 1 [] (entriesOf d)

theorem mem_paths_iff {d : Value} {e : Extracted} (h : extract s d = .ok e) {path : String} :
    path ∈ e.paths ↔ ∃ q ∈ e.placed, ∃ f ∈ q.2.fields, f.path = path := by
  rw [← (paths_perm h).mem_iff, List.mem_map, Extracted.objects]
  simp only [List.mem_flatMap, List.mem_map]
  constructor
  · rintro ⟨f, ⟨o, ⟨q, hq, rfl⟩, hf⟩, rfl⟩
    exact ⟨q, hq, f, hf, rfl⟩
  · rintro ⟨q, hq, f, hf, rfl⟩
    exact ⟨f, ⟨q.2, ⟨q, hq, rfl⟩, hf⟩, rfl⟩

end Extraction

end DocSchema
