/-!
# Random choices

Orders and positions that are chosen at random. Each choice has a number, its turn; choices of
different turns have nothing to do with each other.

- `order_perm`, `pick_lt`: an order has every position once, and a position is one of those given.
-/

namespace DocSchema

/-- Random choices among positions, by their turn. -/
structure Randomness where
  order : (turn size : Nat) → List Nat
  pick : (turn size : Nat) → Nat
  order_perm (turn size : Nat) : (order turn size).Perm (List.range size)
  pick_lt (turn : Nat) {size : Nat} : 0 < size → pick turn size < size

namespace Randomness

/-- A word that depends on every bit of another. -/
def scramble (x : UInt64) : UInt64 :=
  let x := (x ^^^ (x >>> 30)) * 0xBF58476D1CE4E5B9
  let x := (x ^^^ (x >>> 27)) * 0x94D049BB133111EB
  x ^^^ (x >>> 31)

/-- The word of a position at some turn. -/
def word (seed turn position : Nat) : UInt64 :=
  scramble (scramble (scramble seed.toUInt64 + turn.toUInt64) + position.toUInt64 + 1)

/-- Choices that are all determined by a seed: positions are ordered by the words at their turn. -/
def seeded (seed : Nat) : Randomness where
  order turn size :=
    (List.range size).mergeSort fun i j => word seed turn i ≤ word seed turn j
  pick turn size := (word seed turn 0).toNat % size
  order_perm _ _ := List.mergeSort_perm _ _
  pick_lt _ _ h := Nat.mod_lt _ h

/-- Choices without chance: positions in their order. -/
def inOrder : Randomness where
  order _ size := List.range size
  pick turn size := turn % size
  order_perm _ _ := .refl _
  pick_lt _ _ h := Nat.mod_lt _ h

/-- The number that a text stands for as a seed. -/
def seedOfText (s : String) : Nat :=
  s.toList.foldl (fun n c => (scramble (n.toUInt64 + c.val.toUInt64 + 1)).toNat) 0

theorem length_order (r : Randomness) (turn size : Nat) : (r.order turn size).length = size := by
  simpa using (r.order_perm turn size).length_eq

theorem mem_order (r : Randomness) {turn size i : Nat} : i ∈ r.order turn size ↔ i < size := by
  simpa using (r.order_perm turn size).mem_iff

theorem nodup_order (r : Randomness) (turn size : Nat) : (r.order turn size).Nodup :=
  (r.order_perm turn size).nodup_iff.2 List.nodup_range

end Randomness

end DocSchema
