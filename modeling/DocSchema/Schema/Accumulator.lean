import DocSchema.SemanticType
import DocSchema.Table
import DocSchema.Text.Search

/-!
# What the documents of a collection have shown

The state of a run: for each type the fields that its objects had, with counts and the types of
their values; the nested types by name; and what was refused because a name was taken.

- `CollisionLog.contains_iff`: what is kept beside the list of what was refused is what the list says.
- `claim_granted_iff`: a name is granted to the path that came first, and to it alone.
- `context_modifyContext_self`: changing the context of an owner changes that context.
-/

namespace DocSchema

/-- What the objects of one type have shown of one field. -/
structure FieldStats where
  path : String
  kinds : KindSet := .empty
  present : Nat := 0
  nonNull : Nat := 0
  arrays : Nat := 0
  scalars : Nat := 0
  nestedType? : Option String := none

namespace FieldStats

/-- Whether the field ever held an array. -/
def isArray (s : FieldStats) : Bool :=
  decide (0 < s.arrays)

/-- Whether the field held both an array and something else. -/
def hasArrayConflict (s : FieldStats) : Bool :=
  decide (0 < s.arrays) && decide (0 < s.scalars)

/-- The type that the values of the field widen to, if there were any. -/
def resolvedType? (s : FieldStats) : Option SemanticType :=
  s.kinds.resolve

/-- Counts one object with the field. -/
def see (s : FieldStats) (isNull isArray : Bool) (kinds : KindSet) : FieldStats :=
  if isNull then { s with present := s.present + 1 }
  else
    { s with
      present := s.present + 1
      nonNull := s.nonNull + 1
      arrays := s.arrays + isArray.toNat
      scalars := s.scalars + (!isArray).toNat
      kinds := s.kinds.union kinds }

/-- Notes that the field held an object without fields, which shows a type or none. -/
def seeEmpty (s : FieldStats) (kind? : Option SemanticType) : FieldStats :=
  { s with kinds := kind?.elim s.kinds s.kinds.insert }

/-- Notes that the field held an object with fields, which has a type of its own. -/
def seeNested (s : FieldStats) (typeName : String) : FieldStats :=
  { s with kinds := s.kinds.insert .nested, nestedType? := some typeName }

end FieldStats

/-- What the objects of one type have shown. -/
structure TypeContext where
  name : String
  path : String
  parent? : Option String := none
  fields : Table FieldStats := .empty
  observations : Nat := 0
  populated : Bool := false

namespace TypeContext

/-- Counts one object of the type. -/
def observe (c : TypeContext) (populated : Bool) : TypeContext :=
  { c with observations := c.observations + 1, populated := c.populated || populated }

/-- Changes what is known of a field, which may be new (`field_stats`). -/
def updateField (c : TypeContext) (key path : String) (f : FieldStats → FieldStats) : TypeContext :=
  { c with fields := c.fields.upsert key fun held => f (held.getD { path }) }

end TypeContext

/-- A path that was refused the name of a nested type. -/
structure Collision where
  typeName : String
  firstPath : String
  collidingPath : String
  deriving DecidableEq, Repr

/-- What was refused, in the order in which it was refused first. The names and paths that are listed are
kept beside the list. -/
structure CollisionLog where
  entries : List Collision := []
  reported : List (String × String) := []
  mem_reported : ∀ typeName path, (typeName, path) ∈ reported ↔
    ∃ c ∈ entries, c.typeName = typeName ∧ c.collidingPath = path := by simp

namespace CollisionLog

/-- Whether a path has been refused a name before. -/
def contains (l : CollisionLog) (typeName path : String) : Bool :=
  l.reported.contains (typeName, path)

/-- Lists a path that is refused a name. -/
def add (l : CollisionLog) (c : Collision) : CollisionLog where
  entries := l.entries ++ [c]
  reported := (c.typeName, c.collidingPath) :: l.reported
  mem_reported typeName path := by
    rw [List.mem_cons, l.mem_reported, Prod.mk.injEq]
    simp only [List.mem_append, List.mem_singleton, or_and_right, exists_or, exists_eq_left]
    rw [or_comm, eq_comm, @eq_comm _ path]

theorem contains_iff {l : CollisionLog} {typeName path : String} :
    l.contains typeName path = true ↔
      ∃ c ∈ l.entries, c.typeName = typeName ∧ c.collidingPath = path := by
  rw [contains, List.contains_iff_mem, l.mem_reported]

end CollisionLog

/-- The owner of a context: the top-level type, or a nested type by name. -/
inductive Owner
  | root
  | nested (name : String)
  deriving DecidableEq, Repr

/-- The state of a run. -/
structure Accumulator where
  collection : String
  root : TypeContext
  nested : Table TypeContext := .empty
  seenPaths : List String := []
  documentsMerged : Nat := 0
  documentsSkipped : Nat := 0
  log : CollisionLog := {}
  emptyInstances : Table Nat := .empty

namespace Accumulator

/-- The state before the first document. -/
def fresh (collection typeName : String) : Accumulator where
  collection
  root := { name := typeName, path := "" }

/-- The context of an owner. -/
def context? (a : Accumulator) : Owner → Option TypeContext
  | .root => some a.root
  | .nested name => a.nested.get? name

/-- Changes the context of an owner. -/
def modifyContext (a : Accumulator) (owner : Owner) (f : TypeContext → TypeContext) : Accumulator :=
  match owner with
  | .root => { a with root := f a.root }
  | .nested name => { a with nested := a.nested.modify name f }

/-- The name of the type of an owner. -/
def ownerName (a : Accumulator) : Owner → String
  | .root => a.root.name
  | .nested name => name

/-- The number of paths seen. -/
def uniquePathCount (a : Accumulator) : Nat :=
  a.seenPaths.length

/-- Paths with one more, unless it is there. -/
def addPath (seen : List String) (path : String) : List String :=
  if path ∈ seen then seen else path :: seen

/-- Adds paths to those seen (`record_paths`). -/
def recordPaths (a : Accumulator) (paths : List String) : Accumulator :=
  { a with seenPaths := paths.foldl addPath a.seenPaths }

/-- Counts an object without fields at a path (`record_empty_instance`). -/
def recordEmptyInstance (a : Accumulator) (path : String) : Accumulator :=
  { a with emptyInstances := a.emptyInstances.upsert path fun held => held.getD 0 + 1 }

/-- The number of objects without fields at a path. -/
def emptyCount (a : Accumulator) (path : String) : Nat :=
  (a.emptyInstances.get? path).getD 0

/-- The number of objects seen for an owner, those without fields included (`observations_of`). -/
def observationsOf (a : Accumulator) (owner : Owner) : Nat :=
  match owner with
  | .root => a.root.observations
  | .nested name =>
    match a.nested.get? name with
    | some c => c.observations + a.emptyCount c.path
    | none => 0

/-- What was refused, in the order in which it was refused first. -/
def collisions (a : Accumulator) : List Collision :=
  a.log.entries

/-- Whether a path has been refused a name before. -/
def isReported (a : Accumulator) (typeName path : String) : Bool :=
  a.log.contains typeName path

/-- Asks for the name of a nested type on behalf of a path (`claim_nested`). The first path to ask has the name; any
other is refused, which is noted once for each path. -/
def claim (a : Accumulator) (typeName path parent : String) : Accumulator × Bool :=
  match a.nested.get? typeName with
  | none =>
    ({ a with nested := a.nested.insert typeName { name := typeName, path, parent? := some parent } },
      true)
  | some c =>
    if c.path = path then (a, true)
    else if a.isReported typeName path then (a, false)
    else ({ a with log := a.log.add ⟨typeName, c.path, path⟩ }, false)

/-- The nested types that had an object with fields, by name (`populated_nested`). -/
def populatedNested (a : Accumulator) : List TypeContext :=
  (a.nested.sortedKeys.filterMap a.nested.get?).filter TypeContext.populated

theorem claim_granted_iff {a : Accumulator} {typeName path parent : String} :
    (a.claim typeName path parent).2 = true ↔
      ∀ c, a.nested.get? typeName = some c → c.path = path := by
  rw [claim]
  cases h : a.nested.get? typeName with
  | none => simp
  | some c =>
    by_cases hp : c.path = path
    · simp [hp]
    · by_cases hr : a.isReported typeName path <;> simp [hp, hr]

theorem context_modifyContext_self (a : Accumulator) (owner : Owner)
    (f : TypeContext → TypeContext) :
    (a.modifyContext owner f).context? owner = (a.context? owner).map f := by
  cases owner with
  | root => rfl
  | nested name => simp [modifyContext, context?, Table.get?_modify]

end Accumulator

end DocSchema
