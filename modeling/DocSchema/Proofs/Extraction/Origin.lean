import DocSchema.Proofs.Extraction.Rearrangement

/-!
# Where samples come from

Every object that a document shows is the sample of an object in the document, whose hidden entries are
left out. One that shows no field is known by its visible entries, of which there are none: as a leaf it
is opaque.

- `Value.Within`: a value is a part of another one.
- `mem_objects_fieldSample_iff`: the objects of a value that are gone into.
- `exists_entries_of_mem_objects`: the object that an object of a document is the sample of.
- `classify_shownObject`: an object without visible entries is an opaque leaf.
-/

namespace DocSchema

/-- A value is a part of another one, or that one itself. -/
inductive Value.Within (v : Value) : Value → Prop
  | refl : Within v v
  | item {items : List Value} {w : Value} : w ∈ items → Within v w → Within v (.sequence items)
  | entry {entries : List (String × Value)} {e : String × Value} : e ∈ entries → Within v e.2 →
      Within v (.map entries)

theorem Value.Within.trans {u v w : Value} (huv : Within u v) (hvw : Within v w) : Within u w := by
  induction hvw with
  | refl => exact huv
  | item hw _ ih => exact .item hw ih
  | entry he _ ih => exact .entry he ih

namespace Extraction

variable {s : ExtractionSettings} {d : Value} {e : Extracted}

theorem mem_fieldSamples_iff {path : String} {depth : Nat} {entries : List (String × Value)}
    {f : FieldSample} :
    f ∈ fieldSamples s path depth entries ↔ ∃ e ∈ entries, s.hides e.1 = false ∧
      f = fieldSample s e.1 (Path.child path e.1) depth e.2 := by
  rw [fieldSamples_eq, List.mem_flatMap]
  refine exists_congr fun e => and_congr_right fun _ => ?_
  cases s.hides e.1 <;> simp

/-- The entries of an object. -/
def objectEntries : Value → List (List (String × Value))
  | .map entries => [entries]
  | _ => []

/-- The entries of the objects in a value: those of the object that it is, or of the objects among the first
elements of an array. -/
def openedEntries (size : Nat) : Value → List (List (String × Value))
  | .sequence items => (items.take size).flatMap objectEntries
  | v => objectEntries v

/-- The sample of an object at a path, whose keys stand at a depth. -/
def objectSample (s : ExtractionSettings) (path : String) (depth : Nat) (entries : List (String × Value)) :
    ObjectSample :=
  .mk path (fieldSamples s path depth entries)

/-- The objects of a value are gone into unless they are at the greatest depth. -/
theorem mem_objects_fieldSample_iff {key path : String} {depth : Nat} {v : Value} {o : ObjectSample} :
    o ∈ (fieldSample s key path depth v).objects ↔ depth < s.maxDepth ∧
      ∃ entries ∈ openedEntries s.arraySampleSize v,
        o = objectSample s (fieldSample s key path depth v).path (depth + 1) entries := by
  cases v with
  | map entries =>
    rw [fieldSample]
    split
    · rename_i hdepth
      simp [hdepth, FieldSample.objects, FieldSample.path, openedEntries, objectEntries, objectSample]
    · rename_i hdepth
      simp [hdepth, FieldSample.objects]
  | sequence items =>
    rw [fieldSample, FieldSample.objects, FieldSample.path, elementObjects_eq, openedEntries]
    constructor
    · intro ho
      obtain ⟨item, hitem, ho⟩ := List.mem_flatMap.1 ho
      split at ho
      · rename_i hdepth
        cases item with
        | map entries => exact ⟨hdepth, entries, List.mem_flatMap_of_mem hitem List.mem_cons_self, List.mem_singleton.1 ho⟩
        | _ => cases ho
      · cases ho
    · rintro ⟨hdepth, entries, hin, rfl⟩
      obtain ⟨item, hitem, hin⟩ := List.mem_flatMap.1 hin
      refine List.mem_flatMap_of_mem hitem ?_
      rw [if_pos hdepth]
      cases item with
      | map entries' =>
        rw [List.mem_singleton.1 hin]
        exact List.mem_singleton_self _
      | _ => cases hin
  | _ => simp [fieldSample, FieldSample.objects, openedEntries, objectEntries]

theorem within_of_mem_openedEntries {size : Nat} {v : Value} {entries : List (String × Value)}
    (h : entries ∈ openedEntries size v) : Value.Within (.map entries) v := by
  have hobject {item : Value} (h : entries ∈ objectEntries item) : Value.Within (.map entries) item := by
    cases item with
    | map entries' =>
      rw [List.mem_singleton.1 h]
      exact .refl
    | _ => cases h
  rw [openedEntries.eq_def] at h
  split at h
  · obtain ⟨item, hitem, h⟩ := List.mem_flatMap.1 h
    exact .item (List.mem_of_mem_take hitem) (hobject h)
  · exact hobject h

/-- An object of a document is the sample of an object in the document. -/
theorem exists_entries_of_mem_objects (hd : d.isProper = true) (he : extract s d = .ok e) :
    ∀ o ∈ e.objects, ∃ entries depth, Value.Within (.map entries) d ∧
      o.fields = fieldSamples s o.path depth entries := by
  obtain ⟨entries, rfl, rfl, -⟩ := (extract_eq_ok_iff hd).1 he
  have hdown : ObjectSample.HandedDown fun _ (o : ObjectSample) =>
      ∃ es depth, Value.Within (.map es) (.map entries) ∧ o.fields = fieldSamples s o.path depth es := by
    rintro p o f o' ⟨es, depth, hwithin, hfields⟩ hf - ho'
    rw [hfields, mem_fieldSamples_iff] at hf
    obtain ⟨entry, hentry, -, rfl⟩ := hf
    obtain ⟨-, es', hopened, rfl⟩ := mem_objects_fieldSample_iff.1 ho'
    have hwithin' := within_of_mem_openedEntries hopened
    exact ⟨es', depth + 1, (hwithin'.trans (.entry hentry .refl)).trans hwithin, rfl⟩
  intro o ho
  obtain ⟨q, hq, rfl⟩ := List.mem_map.1 ho
  exact ObjectSample.placed_induct hdown [] _ ⟨entries, 1, .refl, rfl⟩ q hq

/-- An object without its hidden entries. -/
def shownObject (s : ExtractionSettings) (entries : List (String × Value)) : Value :=
  .map (entries.filter fun e => !s.hides e.1)

/-- An object without visible entries is an opaque leaf, and one with visible entries is no leaf. -/
theorem classify_shownObject (detect : Bool) (path : String) (depth : Nat)
    (entries : List (String × Value)) :
    classify detect (shownObject s entries) =
      if (fieldSamples s path depth entries).isEmpty then .ok (some .untyped)
      else .error .populatedLeaf := by
  have hempty : (entries.filter fun e => !s.hides e.1).isEmpty =
      (fieldSamples s path depth entries).isEmpty := by
    rw [isEmpty_fieldSamples, List.all_map]
    induction entries with
    | nil => rfl
    | cons e entries ih =>
      rw [List.filter_cons, List.all_cons, Function.comp_apply]
      cases s.hides e.1 with
      | true => exact ih
      | false => rfl
  rw [shownObject, ← hempty]
  cases entries.filter fun e => !s.hides e.1 <;> rfl

end Extraction

end DocSchema
