import DocSchema.Classification
import DocSchema.Extraction.Sample
import DocSchema.Naming
import DocSchema.Path
import DocSchema.Schema.Accumulator

/-!
# Merging documents

The samples of a document are merged into the state of a run, field by field. A merge stops at the
first leaf that cannot be classified, and what was merged before stays; a document without such a
leaf is merged as a whole.

- `Merging.fault_andThen`: a merge that has stopped does not go on.
-/

namespace DocSchema

/-- A merge under way: the state, and the fault that stopped the merge. -/
structure Merging where
  state : Accumulator
  fault? : Option DocumentFault := none

namespace Merging

/-- Goes on with a merge, unless it has stopped. -/
def andThen (m : Merging) (next : Accumulator → Merging) : Merging :=
  match m.fault? with
  | none => next m.state
  | some _ => m

theorem fault_andThen {m : Merging} {f : DocumentFault} (h : m.fault? = some f)
    (next : Accumulator → Merging) : m.andThen next = m := by
  simp [andThen, h]

end Merging

namespace Schema

variable (detect : Bool)

/-- The kinds of leaves up to the first that cannot be classified, with its fault. -/
def leafKinds : List Value → KindSet × Option DocumentFault
  | [] => (.empty, none)
  | leaf :: leaves =>
    match classify detect leaf with
    | .error fault => (.empty, some fault)
    | .ok kind? =>
      let (kinds, fault?) := leafKinds leaves
      (kind?.elim kinds kinds.insert, fault?)

/-- The path under which a field of an owner is known. -/
def knownPath (a : Accumulator) (owner : Owner) (key : String) : String :=
  match a.context? owner with
  | some c => ((c.fields.get? key).map FieldStats.path).getD ""
  | none => ""

/-- Merges an object without fields into a field of an owner, as a leaf that is a mapping without entries. -/
def mergeEmpty (owner : Owner) (key : String) (a : Accumulator) : Merging :=
  match classify detect (.map []) with
  | .error fault => ⟨a, some fault⟩
  | .ok kind? =>
    let path := knownPath a owner key
    ⟨(a.modifyContext owner fun c => c.updateField key path (·.seeEmpty kind?)).recordEmptyInstance path, none⟩

mutual
/-- Merges an object into the context of its owner (`_merge_object`). -/
def mergeObject (owner : Owner) : ObjectSample → Accumulator → Merging
  | .mk _ fields, a =>
    mergeFields owner fields (a.modifyContext owner fun c => c.observe (!fields.isEmpty))
/-- Merges fields into the context of their owner. -/
def mergeFields (owner : Owner) : List FieldSample → Accumulator → Merging
  | [], a => ⟨a, none⟩
  | field :: fields, a => (mergeField owner field a).andThen (mergeFields owner fields)
/-- Merges a field into the context of its owner (`_merge_field`). -/
def mergeField (owner : Owner) : FieldSample → Accumulator → Merging
  | .mk key path kind leaves objects, a =>
    let (kinds, fault?) := leafKinds detect leaves
    let seen := a.modifyContext owner fun c =>
      c.updateField key (Path.logical path) fun s => s.see (kind == .null) (kind == .sequence) kinds
    if kind == .null then ⟨seen, none⟩
    else
      match fault? with
      | some fault => ⟨seen, some fault⟩
      | none => mergeNested owner key objects seen
/-- Merges the objects in a field of an owner (`_merge_nested`). -/
def mergeNested (owner : Owner) (key : String) : List ObjectSample → Accumulator → Merging
  | [], a => ⟨a, none⟩
  | object :: objects, a =>
    (if object.isEmpty then mergeEmpty detect owner key a
      else
        let path := knownPath a owner key
        let typeName := Naming.nestedTypeName (a.ownerName owner) key
        let noted := a.modifyContext owner fun c => c.updateField key path (·.seeNested typeName)
        let (claimed, granted) := noted.claim typeName path (a.ownerName owner)
        if granted then mergeObject (.nested typeName) object claimed
        else ⟨claimed, none⟩ : Merging).andThen (mergeNested owner key objects)
end

/-- Merges what a document shows (`merge_document`). -/
def mergeDocument (e : Extracted) (a : Accumulator) : Merging :=
  (mergeObject detect .root e.root a).andThen fun merged =>
    ⟨{ merged with documentsMerged := merged.documentsMerged + 1 }.recordPaths e.paths, none⟩

end Schema

end DocSchema
