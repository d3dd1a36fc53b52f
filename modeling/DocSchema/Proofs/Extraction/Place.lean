import DocSchema.Extraction.Sample
import DocSchema.Naming
import DocSchema.Path
import DocSchema.Schema.Accumulator

/-!
# Places of objects

The objects of a document each stand at a place, the keys that lead to them. The place of an object
tells the type that its fields are counted in, and the logical path that it has.

- `Extracted.placed`: the objects of a document with their places.
- `ObjectSample.placed_induct`: what holds of an object and is handed down to the objects in its
  fields holds of all objects below it.
- `Extracted.placedIn_parent`: an object that is no document is in a field of another object.
-/

namespace DocSchema

/-- The keys that lead to an object, the last one first. -/
abbrev Place := List String

namespace Place

/-- The name of the type of the objects at a place, below a top-level type. -/
def typeName (top : String) : Place → String
  | [] => top
  | key :: up => Naming.nestedTypeName (typeName top up) key

/-- The owner of the fields of the objects at a place. -/
def owner (top : String) : Place → Owner
  | [] => .root
  | key :: up => .nested (typeName top (key :: up))

/-- The logical path of a place: its keys, joined by dots. -/
def path : Place → String
  | [] => ""
  | key :: up => Path.child (path up) key

theorem owner_cons (top key : String) (up : Place) :
    owner top (key :: up) = .nested (Naming.nestedTypeName (typeName top up) key) := rfl

/-- The top-level type owns the fields of documents and no others. -/
theorem owner_eq_root_iff {top : String} {place : Place} : owner top place = .root ↔ place = [] := by
  cases place <;> simp [owner]

end Place

namespace ObjectSample

mutual
/-- An object that stands at a place, and the objects below it with theirs. -/
def placed (place : Place) : ObjectSample → List (Place × ObjectSample)
  | .mk path fields => (place, .mk path fields) :: placedFields place fields
/-- The objects below the fields of an object that stands at a place; a null has none. -/
def placedFields (place : Place) : List FieldSample → List (Place × ObjectSample)
  | [] => []
  | .mk key _ kind _ objects :: fields =>
    (if kind == .null then [] else placedObjects (key :: place) objects) ++ placedFields place fields
/-- Objects that stand at a place, and the objects below them. -/
def placedObjects (place : Place) : List ObjectSample → List (Place × ObjectSample)
  | [] => []
  | object :: objects => placed place object ++ placedObjects place objects
end

theorem placed_eq (place : Place) (o : ObjectSample) :
    o.placed place = (place, o) :: placedFields place o.fields := by
  cases o
  rw [placed, fields]

theorem mem_placed_self (place : Place) (o : ObjectSample) : (place, o) ∈ o.placed place := by
  rw [placed_eq]
  exact List.mem_cons_self

theorem placedObjects_eq (place : Place) (objects : List ObjectSample) :
    placedObjects place objects = objects.flatMap (placed place) := by
  induction objects with
  | nil => rfl
  | cons o objects ih => rw [placedObjects, ih, List.flatMap_cons]

theorem placedFields_cons (place : Place) (f : FieldSample) (fields : List FieldSample) :
    placedFields place (f :: fields) =
      (if f.isNull then [] else placedObjects (f.key :: place) f.objects) ++ placedFields place fields := by
  obtain ⟨key, path, kind, leaves, objects⟩ := f
  rw [placedFields]
  rfl

theorem placedFields_eq (place : Place) (fields : List FieldSample) :
    placedFields place fields = fields.flatMap fun f =>
      if f.isNull then [] else f.objects.flatMap (placed (f.key :: place)) := by
  induction fields with
  | nil => rfl
  | cons f fields ih => rw [placedFields_cons, ih, List.flatMap_cons, placedObjects_eq]

/-- Whether what holds of an object at its place holds of the objects in its fields at theirs. -/
def HandedDown (P : Place → ObjectSample → Prop) : Prop :=
  ∀ p o (f : FieldSample) o', P p o → f ∈ o.fields → f.isNull = false → o' ∈ f.objects →
    P (f.key :: p) o'

section Induct

variable {P : Place → ObjectSample → Prop}

mutual
theorem placed_induct (hstep : HandedDown P) (place : Place) :
    ∀ o, P place o → ∀ q ∈ placed place o, P q.1 q.2
  | .mk path fields, ho, q, hq => by
    rw [placed, List.mem_cons] at hq
    rcases hq with rfl | hq
    · exact ho
    · exact placedFields_induct hstep place fields
        (fun f hf hn o' ho' => hstep place _ f o' ho hf hn ho') q hq
theorem placedFields_induct (hstep : HandedDown P) (place : Place) : ∀ fields : List FieldSample,
    (∀ f ∈ fields, f.isNull = false → ∀ o' ∈ f.objects, P (f.key :: place) o') →
    ∀ q ∈ placedFields place fields, P q.1 q.2
  | [], _, q, hq => by simp [placedFields] at hq
  | .mk key path kind leaves objects :: fields, hf, q, hq => by
    rw [placedFields, List.mem_append] at hq
    rcases hq with hq | hq
    · split at hq
      · simp at hq
      · rename_i hn
        exact placedObjects_induct hstep (key :: place) objects
          (fun o' ho' => hf _ List.mem_cons_self (Bool.eq_false_iff.2 hn) o' ho') q hq
    · exact placedFields_induct hstep place fields (fun f h => hf f (List.mem_cons_of_mem _ h)) q hq
theorem placedObjects_induct (hstep : HandedDown P) (place : Place) : ∀ objects : List ObjectSample,
    (∀ o ∈ objects, P place o) → ∀ q ∈ placedObjects place objects, P q.1 q.2
  | [], _, q, hq => by simp [placedObjects] at hq
  | o :: objects, ho, q, hq => by
    rw [placedObjects, List.mem_append] at hq
    rcases hq with hq | hq
    · exact placed_induct hstep place o (ho o List.mem_cons_self) q hq
    · exact placedObjects_induct hstep place objects (fun o' h => ho o' (List.mem_cons_of_mem _ h)) q hq
end

end Induct

mutual
theorem handedDown_placed (place : Place) :
    ∀ o, HandedDown fun p x => (p, x) ∈ placed place o
  | .mk path fields, p, x, f, o', hx, hf, hn, ho' => by
    rw [placed, List.mem_cons] at hx ⊢
    refine .inr ?_
    rcases hx with hx | hx
    · obtain ⟨rfl, rfl⟩ := Prod.mk.inj hx
      rw [placedFields_eq, List.mem_flatMap]
      refine ⟨f, hf, ?_⟩
      rw [hn]
      exact List.mem_flatMap.2 ⟨o', ho', mem_placed_self _ o'⟩
    · exact handedDown_placedFields place fields p x f o' hx hf hn ho'
theorem handedDown_placedFields (place : Place) :
    ∀ fields, HandedDown fun p x => (p, x) ∈ placedFields place fields
  | [], p, x, f, o', hx, _, _, _ => by simp [placedFields] at hx
  | .mk key path kind leaves objects :: fields, p, x, f, o', hx, hf, hn, ho' => by
    rw [placedFields, List.mem_append] at hx ⊢
    refine hx.imp (fun hx => ?_) fun hx =>
      handedDown_placedFields place fields p x f o' hx hf hn ho'
    split at hx
    · simp at hx
    · rename_i hk
      rw [if_neg hk]
      exact handedDown_placedObjects (key :: place) objects p x f o' hx hf hn ho'
theorem handedDown_placedObjects (place : Place) :
    ∀ objects, HandedDown fun p x => (p, x) ∈ placedObjects place objects
  | [], p, x, f, o', hx, _, _, _ => by simp [placedObjects] at hx
  | o :: objects, p, x, f, o', hx, hf, hn, ho' => by
    rw [placedObjects, List.mem_append] at hx ⊢
    exact hx.imp (fun hx => handedDown_placed place o p x f o' hx hf hn ho') fun hx =>
      handedDown_placedObjects place objects p x f o' hx hf hn ho'
end

/-- Every object below another one is in a field of an object that is there too. -/
theorem placed_parent (place : Place) (o : ObjectSample) : ∀ q ∈ placed place o,
    q = (place, o) ∨ ∃ r ∈ placed place o, ∃ f ∈ r.2.fields, f.isNull = false ∧
      q.2 ∈ f.objects ∧ q.1 = f.key :: r.1 := by
  have hdown : HandedDown fun p x => (p, x) ∈ placed place o ∧
      ((p, x) = (place, o) ∨ ∃ r ∈ placed place o, ∃ f ∈ r.2.fields, f.isNull = false ∧
        x ∈ f.objects ∧ p = f.key :: r.1) := fun p x f o' hx hf hn ho' =>
    ⟨handedDown_placed place o p x f o' hx.1 hf hn ho', .inr ⟨(p, x), hx.1, f, hf, hn, ho', rfl⟩⟩
  intro q hq
  exact (placed_induct hdown place o ⟨mem_placed_self place o, .inl rfl⟩ q hq).2

end ObjectSample

namespace Extracted

/-- The objects of a document with their places. -/
def placed (e : Extracted) : List (Place × ObjectSample) :=
  e.root.placed []

/-- The objects of a document: the document itself, and each object in a field of an object. -/
def objects (e : Extracted) : List ObjectSample :=
  e.placed.map Prod.snd

/-- The objects of documents with their places. -/
def placedIn (es : List Extracted) : List (Place × ObjectSample) :=
  es.flatMap placed

theorem mem_placedIn {es : List Extracted} {q : Place × ObjectSample} :
    q ∈ placedIn es ↔ ∃ e ∈ es, q ∈ e.placed :=
  List.mem_flatMap

theorem handedDown_placedIn (es : List Extracted) :
    ObjectSample.HandedDown fun p x => (p, x) ∈ placedIn es := by
  intro p x f o' hx hf hn ho'
  obtain ⟨e, he, hx⟩ := mem_placedIn.1 hx
  exact mem_placedIn.2 ⟨e, he, ObjectSample.handedDown_placed [] e.root p x f o' hx hf hn ho'⟩

/-- An object at the top level is a document, and any other is in a field of an object. -/
theorem placedIn_parent {es : List Extracted} {q : Place × ObjectSample} (hq : q ∈ placedIn es) :
    q.1 = [] ∨ ∃ r ∈ placedIn es, ∃ f ∈ r.2.fields, f.isNull = false ∧
      q.2 ∈ f.objects ∧ q.1 = f.key :: r.1 := by
  obtain ⟨e, he, hq⟩ := mem_placedIn.1 hq
  rcases ObjectSample.placed_parent [] e.root q hq with rfl | ⟨r, hr, f, hf⟩
  · exact .inl rfl
  · exact .inr ⟨r, mem_placedIn.2 ⟨e, he, hr⟩, f, hf⟩

end Extracted

end DocSchema
