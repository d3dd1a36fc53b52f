import DocSchema.Source.Fault

/-!
# Stores

What a run needs of the collection it samples: to count its documents, and to draw some at random. A
store has a state, may fail, and may hand back anything; a draw may also be the moment at which the
run is cancelled.

- `documents_list`: a list is handed back as its items.
-/

namespace DocSchema

/-- What a draw hands back, and whether the run was cancelled meanwhile. -/
structure Draw where
  answer : Except SourceFault Raw
  cancels : Bool := false

namespace Draw

/-- The documents of a draw: the elements of what was handed back. -/
def documents (d : Draw) : Except SourceFault (List Raw) :=
  match d.answer with
  | .error f => .error f
  | .ok r =>
    match r.elements? with
    | some items => .ok items
    | none => .error (.misuse (.notIterable r.typeName))

theorem documents_list (items : List Raw) (cancels : Bool) :
    (Draw.mk (.ok (.list items)) cancels).documents = .ok items := rfl

end Draw

/-- A collection that can be counted and drawn from. -/
structure Store (σ : Type) where
  count : σ → Except SourceFault Raw × σ
  draw : Nat → σ → Draw × σ

end DocSchema
