import DocSchema.Nesting
import DocSchema.Raw.Basic

/-!
# Room for nested values

A value is shown, converted or compared by calls inside of calls, one for each container that is gone into, and the
calls that are open at the same time share one stack. How many containers there is room for thus differs from place
to place: whoever calls, and each container that was gone into before, has taken some of it. Nothing is said here of
how much, which is a matter of the machine. `Stack` says how much room is left wherever it counts.

- `Stack.usual`: the room of a program that has been called by nobody else.
-/

namespace DocSchema

/-- The room that is left, wherever it counts. -/
class Stack where
  /-- How many containers, one inside of the other, a value of the settings may have to be shown. -/
  shown : Raw → Nat
  /-- How many containers, one inside of the other, are gone into when the names at two places of a list are
  compared. -/
  compared : Nat → Nat → Nat
  /-- Whether a container of a document is gone into which stands at a depth, inside of other containers, the
  outermost of them first. -/
  opens : List Raw → Int → Raw → Bool
  /-- How many containers, one inside of the other, a part of a document may have to be told, which stands at a
  depth, inside of other containers. -/
  told : List Raw → Int → Raw → Nat

namespace Stack

/-- The room that is left inside of a container of a document. -/
@[reducible]
def inside (stack : Stack) (container : Raw) : Stack :=
  { stack with
    opens := fun containers => stack.opens (container :: containers)
    told := fun containers => stack.told (container :: containers) }

/-- The room of a program that has been called by nobody else. A document is converted by two calls for each depth,
for which there is always enough. -/
instance usual : Stack where
  shown _ := maxNesting
  compared _ _ := maxNesting
  opens _ _ _ := true
  told _ depth _ := maxNesting - 2 * depth.toNat

end Stack

end DocSchema
