import DocSchema.Schema.Merge

/-!
# What a merge does not look at

A merge neither reads nor writes the number of skipped documents. A state with another such number is
merged into in the same way, whether the merge comes to its end or not, so documents may be skipped
between merges and what the merges make of the others is the same.

- `Accumulator.withSkipped`: a state with another number of skipped documents.
- `mergeDocument_withSkipped`: a merge into it.
- `documentsSkipped_mergeDocument`: a merge skips nothing.
-/

namespace DocSchema

/-- A state with another number of skipped documents. -/
def Accumulator.withSkipped (n : Nat) (a : Accumulator) : Accumulator :=
  { a with documentsSkipped := n }

/-- A merge under way, with another number of skipped documents. -/
def Merging.withSkipped (n : Nat) (m : Merging) : Merging :=
  ⟨m.state.withSkipped n, m.fault?⟩

namespace Accumulator

variable (n : Nat) (a : Accumulator)

@[simp]
theorem context?_withSkipped (owner : Owner) : (a.withSkipped n).context? owner = a.context? owner := by
  cases owner <;> rfl

@[simp]
theorem ownerName_withSkipped (owner : Owner) :
    (a.withSkipped n).ownerName owner = a.ownerName owner := by
  cases owner <;> rfl

@[simp]
theorem modifyContext_withSkipped (owner : Owner) (f : TypeContext → TypeContext) :
    (a.withSkipped n).modifyContext owner f = (a.modifyContext owner f).withSkipped n := by
  cases owner <;> rfl

@[simp]
theorem claim_withSkipped (typeName path parent : String) :
    (a.withSkipped n).claim typeName path parent =
      ((a.claim typeName path parent).1.withSkipped n, (a.claim typeName path parent).2) := by
  have hnested : (a.withSkipped n).nested = a.nested := rfl
  have hreported : (a.withSkipped n).isReported typeName path = a.isReported typeName path := rfl
  rw [claim, claim, hnested, hreported]
  cases a.nested.get? typeName with
  | none => rfl
  | some c =>
    dsimp only
    split
    · rfl
    · split <;> rfl

end Accumulator

namespace Merging

variable {n : Nat}

theorem andThen_withSkipped {m : Merging} {next : Accumulator → Merging}
    (h : ∀ a, next (a.withSkipped n) = (next a).withSkipped n) :
    (m.withSkipped n).andThen next = (m.andThen next).withSkipped n := by
  obtain ⟨state, fault?⟩ := m
  cases fault? with
  | none => exact h state
  | some f => rfl

end Merging

namespace Schema

variable {detect : Bool} (n : Nat)

@[simp]
theorem knownPath_withSkipped (a : Accumulator) (owner : Owner) (key : String) :
    knownPath (a.withSkipped n) owner key = knownPath a owner key := by
  rw [knownPath, knownPath, Accumulator.context?_withSkipped]

theorem mergeEmpty_withSkipped (owner : Owner) (key : String) (a : Accumulator) :
    mergeEmpty detect owner key (a.withSkipped n) = (mergeEmpty detect owner key a).withSkipped n := by
  simp only [mergeEmpty, knownPath_withSkipped, Accumulator.modifyContext_withSkipped]
  rfl

mutual
theorem mergeObject_withSkipped (owner : Owner) : ∀ (o : ObjectSample) (a : Accumulator),
    mergeObject detect owner o (a.withSkipped n) = (mergeObject detect owner o a).withSkipped n
  | .mk path fields, a => by
    rw [mergeObject, mergeObject, Accumulator.modifyContext_withSkipped, mergeFields_withSkipped]
theorem mergeFields_withSkipped (owner : Owner) : ∀ (fields : List FieldSample) (a : Accumulator),
    mergeFields detect owner fields (a.withSkipped n) = (mergeFields detect owner fields a).withSkipped n
  | [], a => by
    rw [mergeFields, mergeFields]
    rfl
  | field :: fields, a => by
    rw [mergeFields, mergeFields, mergeField_withSkipped owner field a]
    exact Merging.andThen_withSkipped (mergeFields_withSkipped owner fields)
theorem mergeField_withSkipped (owner : Owner) : ∀ (f : FieldSample) (a : Accumulator),
    mergeField detect owner f (a.withSkipped n) = (mergeField detect owner f a).withSkipped n
  | .mk key path kind leaves objects, a => by
    simp only [mergeField, Accumulator.modifyContext_withSkipped]
    split
    · rfl
    · split
      · rfl
      · exact mergeNested_withSkipped owner key objects _
theorem mergeNested_withSkipped (owner : Owner) (key : String) :
    ∀ (objects : List ObjectSample) (a : Accumulator),
    mergeNested detect owner key objects (a.withSkipped n) =
      (mergeNested detect owner key objects a).withSkipped n
  | [], a => by
    rw [mergeNested, mergeNested]
    rfl
  | object :: objects, a => by
    rw [mergeNested, mergeNested, ← Merging.andThen_withSkipped (mergeNested_withSkipped owner key objects)]
    congr 1
    simp only [mergeEmpty_withSkipped, knownPath_withSkipped, Accumulator.ownerName_withSkipped,
      Accumulator.modifyContext_withSkipped, Accumulator.claim_withSkipped]
    split
    · rfl
    · split
      · exact mergeObject_withSkipped _ object _
      · rfl
end

/-- To a state with another number of skipped documents a merge does what it does to the state. -/
theorem mergeDocument_withSkipped (e : Extracted) (a : Accumulator) :
    mergeDocument detect e (a.withSkipped n) = (mergeDocument detect e a).withSkipped n := by
  rw [mergeDocument, mergeDocument, mergeObject_withSkipped]
  exact Merging.andThen_withSkipped fun a => rfl

/-- A merge skips nothing. -/
theorem documentsSkipped_mergeDocument (e : Extracted) (a : Accumulator) :
    (mergeDocument detect e a).state.documentsSkipped = a.documentsSkipped := by
  have h : mergeDocument detect e a = (mergeDocument detect e a).withSkipped a.documentsSkipped :=
    mergeDocument_withSkipped a.documentsSkipped e a
  rw [h]
  rfl

end Schema

end DocSchema
