import DocSchema.Proofs.Extraction.Regular

/-!
# Objects without a key twice

An object that is extracted from a value tree shows each key once, if no object of the tree has a key
twice. Nothing is asked of the payloads: a tree with nodes that do not fit their kind may be extracted,
and may stop a merge.

- `ObjectSample.Keyed`: an object, and every object below it, shows each key once.
- `keyed_of_extract`: so does what is extracted from a tree whose objects have each key once.
-/

namespace DocSchema

namespace Value

mutual
/-- Whether no object in a tree has a key twice. -/
def hasDistinctKeys : Value → Bool
  | .sequence items => hasDistinctKeysList items
  | .map entries => decide (entries.map Prod.fst).Nodup && hasDistinctKeysEntries entries
  | _ => true
/-- Whether no object in some trees has a key twice. -/
def hasDistinctKeysList : List Value → Bool
  | [] => true
  | item :: items => hasDistinctKeys item && hasDistinctKeysList items
/-- Whether no object below some entries has a key twice. -/
def hasDistinctKeysEntries : List (String × Value) → Bool
  | [] => true
  | (_, value) :: entries => hasDistinctKeys value && hasDistinctKeysEntries entries
end

end Value

/-- An object, and every object below it, shows each key once. -/
inductive ObjectSample.Keyed : ObjectSample → Prop
  | mk {o : ObjectSample} (distinct : (o.fields.map FieldSample.key).Nodup)
      (objects : ∀ f ∈ o.fields, ∀ o' ∈ f.objects, Keyed o') : Keyed o

namespace Extraction

open Value (hasDistinctKeysList hasDistinctKeysEntries)

variable {s : ExtractionSettings}

mutual
theorem fieldSamples_keyed (path : String) (depth : Nat) : ∀ entries : List (String × Value),
    hasDistinctKeysEntries entries = true →
      ∀ f ∈ fieldSamples s path depth entries, ∀ o ∈ f.objects, o.Keyed
  | [], _, f, hf => by simp [fieldSamples] at hf
  | (key, value) :: entries, h, f, hf => by
    rw [hasDistinctKeysEntries, Bool.and_eq_true] at h
    rw [fieldSamples] at hf
    split at hf
    · exact fieldSamples_keyed path depth entries h.2 f hf
    · rcases List.mem_cons.1 hf with rfl | hf
      · exact fieldSample_keyed key _ depth value h.1
      · exact fieldSamples_keyed path depth entries h.2 f hf
theorem fieldSample_keyed (key path : String) (depth : Nat) : ∀ v : Value, v.hasDistinctKeys = true →
    ∀ o ∈ (fieldSample s key path depth v).objects, o.Keyed
  | .sequence items, h => by
    rw [Value.hasDistinctKeys] at h
    rw [fieldSample]
    exact elementObjects_keyed _ depth s.arraySampleSize items h
  | .map entries, h => by
    rw [Value.hasDistinctKeys, Bool.and_eq_true, decide_eq_true_eq] at h
    rw [fieldSample]
    split
    · intro o ho
      rw [List.mem_singleton.1 ho]
      exact .mk ((map_key_fieldSamples _ _ _).nodup h.1) (fieldSamples_keyed path (depth + 1) entries h.2)
    · intro o ho
      cases ho
  | .null, _ | .bool _, _ | .int _, _ | .float _, _ | .string _, _ | .identifier _, _ | .binary _, _
  | .unfit _ _, _ => by
    rw [fieldSample]
    · intro o ho
      cases ho
    all_goals intros; contradiction
theorem elementObjects_keyed (path : String) (depth count : Nat) : ∀ items : List Value,
    hasDistinctKeysList items = true → ∀ o ∈ elementObjects s path depth count items, o.Keyed
  | [], _, o, ho => by simp [elementObjects] at ho
  | item :: items, h, o, ho => by
    rw [hasDistinctKeysList, Bool.and_eq_true] at h
    cases count with
    | zero => simp [elementObjects] at ho
    | succ count =>
      have hrest := elementObjects_keyed path depth count items h.2
      cases item with
      | map entries =>
        rw [elementObjects] at ho
        split at ho
        · rcases List.mem_cons.1 ho with rfl | ho
          · have hm := h.1
            rw [Value.hasDistinctKeys, Bool.and_eq_true, decide_eq_true_eq] at hm
            exact .mk ((map_key_fieldSamples _ _ _).nodup hm.1)
              (fieldSamples_keyed path (depth + 1) entries hm.2)
          · exact hrest o ho
        · exact hrest o ho
      | _ =>
        simp only [elementObjects] at ho
        exact hrest o ho
end

/-- What is extracted from a document whose objects have each key once shows each key once. -/
theorem keyed_of_extract {document : Value} {e : Extracted} (h : extract s document = .ok e)
    (hd : document.hasDistinctKeys = true) : e.root.Keyed := by
  obtain ⟨-, rfl⟩ := extract_ok_iff.1 h
  cases document with
  | map entries =>
    rw [Value.hasDistinctKeys, Bool.and_eq_true, decide_eq_true_eq] at hd
    exact .mk ((map_key_fieldSamples _ _ _).nodup hd.1) (fieldSamples_keyed "" 1 entries hd.2)
  | _ => exact .mk .nil fun f hf => nomatch hf

end Extraction

end DocSchema
