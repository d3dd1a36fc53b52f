import DocSchema.Table
import DocSchema.Value.Basic

/-!
# Samples of objects and fields

What one document shows: a tree of objects, each with its visible fields, each with the leaves and
objects found in it. The fields of the whole tree can be gone through, and their values grouped by
path.

- `walk`: the fields of an object before those of its nested objects, of which the ones of the last
  field come first.
- `weightObjects_nested`: the nested objects of some fields weigh as much as the fields.
-/

namespace DocSchema

mutual
/-- One object: a document, an object in a field, or an element of an array. -/
inductive ObjectSample
  | mk (path : String) (fields : List FieldSample)
/-- One key of one object, with the leaves and objects that were looked at. -/
inductive FieldSample
  | mk (key path : String) (kind : ValueKind) (leaves : List Value) (objects : List ObjectSample)
end

namespace FieldSample

/-- The key of a field. -/
def key : FieldSample → String
  | .mk key _ _ _ _ => key

/-- The canonical path of a field. -/
def path : FieldSample → String
  | .mk _ path _ _ _ => path

/-- The kind of the value of a field. -/
def kind : FieldSample → ValueKind
  | .mk _ _ kind _ _ => kind

/-- The leaves in a field. -/
def leaves : FieldSample → List Value
  | .mk _ _ _ leaves _ => leaves

/-- The objects in a field. -/
def objects : FieldSample → List ObjectSample
  | .mk _ _ _ _ objects => objects

/-- Whether a field holds an array. -/
def isArray (f : FieldSample) : Bool :=
  f.kind == .sequence

/-- Whether a field holds a null. -/
def isNull (f : FieldSample) : Bool :=
  f.kind == .null

/-- Whether a field holds an array without an element to learn from (`unknown_elements`). -/
def hasUnknownElements (f : FieldSample) : Bool :=
  f.isArray && f.leaves.isEmpty && f.objects.isEmpty

/-- The values of a field: its null, or its leaves. -/
def values (f : FieldSample) : List Value :=
  if f.isNull then [.null] else f.leaves

end FieldSample

namespace ObjectSample

/-- The canonical path of an object. -/
def path : ObjectSample → String
  | .mk path _ => path

/-- The visible fields of an object. -/
def fields : ObjectSample → List FieldSample
  | .mk _ fields => fields

/-- Whether an object has no visible field. -/
def isEmpty (o : ObjectSample) : Bool :=
  o.fields.isEmpty

mutual
/-- The number of objects in a tree. -/
def weight : ObjectSample → Nat
  | .mk _ fields => 1 + weightFields fields
/-- The number of objects below some fields. -/
def weightFields : List FieldSample → Nat
  | [] => 0
  | .mk _ _ _ _ objects :: fields => weightObjects objects + weightFields fields
/-- The number of objects in some trees. -/
def weightObjects : List ObjectSample → Nat
  | [] => 0
  | object :: objects => weight object + weightObjects objects
end

theorem weightObjects_append (xs ys : List ObjectSample) :
    weightObjects (xs ++ ys) = weightObjects xs + weightObjects ys := by
  induction xs with
  | nil => simp [weightObjects]
  | cons x xs ih => simp [weightObjects, ih, Nat.add_assoc]

/-- The objects nested in some fields, those of the last field first. -/
def nested (fields : List FieldSample) : List ObjectSample :=
  fields.reverse.flatMap FieldSample.objects

theorem weightObjects_nested (fields : List FieldSample) :
    weightObjects (nested fields) = weightFields fields := by
  induction fields with
  | nil => rfl
  | cons f fields ih =>
    obtain ⟨key, path, kind, leaves, objects⟩ := f
    simp only [nested] at ih
    simp [nested, weightFields, weightObjects_append, ih, FieldSample.objects, Nat.add_comm]

/-- The fields of some trees, from the first tree on; the objects nested in a tree follow it at
once, those of its last field first. -/
def walk : List ObjectSample → List FieldSample
  | [] => []
  | .mk _ fields :: rest =>
    fields ++ walk (nested fields ++ rest)
termination_by objects => weightObjects objects
decreasing_by
  simp only [weightObjects_append, weightObjects_nested, weightObjects, weight]
  omega

end ObjectSample

/-- What one document shows: its tree of samples and the canonical paths of its fields. -/
structure Extracted where
  root : ObjectSample
  paths : List String

namespace Extracted

/-- The fields of a document, in the order of the walk (`iter_fields`). -/
def walk (e : Extracted) : List FieldSample :=
  ObjectSample.walk [e.root]

/-- The values of a document by canonical path, in the order of the walk (`values_by_path`). -/
def valuesByPath (e : Extracted) : Table (List Value) :=
  e.walk.foldl (fun t f => t.upsert f.path fun held => held.getD [] ++ f.values) .empty

end Extracted

end DocSchema
