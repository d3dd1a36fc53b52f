import DocSchema.Source.Basic

/-!
# Draws from memory are passes over the documents

Without replacement, what has been drawn from a collection in memory, followed by what the order under
way has left, is a sequence of whole orders of its documents. This is kept by every draw, at whatever
turn the next order is taken, so nothing has to be known of the draws from other collections in between.
As many draws as there are documents have therefore drawn each document.

- `Passes`: positions that were visited, in whole orders and a part of another.
- `Passes.walk`: a walk goes on with the passes.
- `Passes.mem_iff`: after a whole pass all positions have been visited.
- `MemorySource.Drawn.draw`: a draw from a source.
-/

namespace DocSchema

/-- Positions that were visited and those that the order under way has left make up whole orders. -/
def Passes (size : Nat) (visited left : List Nat) : Prop :=
  ∃ orders : List (List Nat), (∀ o ∈ orders, o.Perm (List.range size)) ∧
    visited ++ left = orders.flatten ∧ left.length < size

namespace Passes

variable {size : Nat} {visited left : List Nat}

theorem nil (hpos : 0 < size) : Passes size [] [] :=
  ⟨[], List.forall_mem_nil _, rfl, hpos⟩

/-- One more position of the order under way. -/
theorem next {i : Nat} (h : Passes size visited (i :: left)) : Passes size (visited ++ [i]) left := by
  obtain ⟨orders, hperm, hflatten, hlength⟩ := h
  refine ⟨orders, hperm, ?_, Nat.lt_of_succ_lt hlength⟩
  rw [List.append_assoc]
  exact hflatten

/-- The first position of a new order. -/
theorem begin {i : Nat} (h : Passes size visited []) (hperm : (i :: left).Perm (List.range size)) :
    Passes size (visited ++ [i]) left := by
  obtain ⟨orders, hperms, hflatten, -⟩ := h
  refine ⟨orders ++ [i :: left], ?_, ?_, ?_⟩
  · rw [List.forall_mem_append, List.forall_mem_singleton]
    exact ⟨hperms, hperm⟩
  · rw [List.flatten_append, ← hflatten, List.append_nil, List.flatten_singleton, List.append_assoc,
      List.singleton_append]
  · have hlength := hperm.length_eq
    rw [List.length_range, List.length_cons] at hlength
    omega

/-- A walk goes on with the passes, from whatever turn it takes new orders. -/
theorem walk (h : Passes size visited left) (choices : Randomness) (steps turn : Nat) :
    Passes size (visited ++ (MemorySource.walk choices size steps turn left).visited)
      (MemorySource.walk choices size steps turn left).left := by
  induction steps generalizing visited turn left with
  | zero =>
    rw [MemorySource.walk, List.append_nil]
    exact h
  | succ steps ih =>
    cases left with
    | cons i left =>
      rw [MemorySource.walk, List.append_cons]
      exact ih h.next turn
    | nil =>
      have hperm := choices.order_perm turn size
      rw [MemorySource.walk]
      split
      · rename_i hnone
        obtain ⟨-, -, -, hpos⟩ := h
        have hlength := choices.length_order turn size
        rw [hnone] at hlength
        exact absurd hlength (Nat.ne_of_lt hpos)
      · rename_i i left hsome
        rw [List.append_cons]
        exact ih (h.begin (hsome ▸ hperm)) (turn + 1)

/-- Every position that is visited is one of the collection. -/
theorem lt (h : Passes size visited left) {i : Nat} (hi : i ∈ visited) : i < size := by
  obtain ⟨orders, hperm, hflatten, -⟩ := h
  have hin : i ∈ orders.flatten := hflatten ▸ List.mem_append_left left hi
  obtain ⟨o, ho, hio⟩ := List.mem_flatten.1 hin
  exact List.mem_range.1 ((hperm o ho).mem_iff.1 hio)

/-- After as many visits as there are positions, each of them has been visited. -/
theorem mem_iff (h : Passes size visited left) (hle : size ≤ visited.length) {i : Nat} :
    i ∈ visited ↔ i < size := by
  refine ⟨h.lt, fun hi => ?_⟩
  obtain ⟨orders, hperm, hflatten, hlength⟩ := h
  cases orders with
  | nil =>
    have hnil := List.append_eq_nil_iff.1 hflatten
    rw [hnil.1] at hle
    exact absurd hi (Nat.not_lt.2 (Nat.le_trans hle (Nat.zero_le i)))
  | cons o orders =>
    have ho := hperm o List.mem_cons_self
    -- the first order is as long as the collection, so all of it has been visited
    have hprefix : o <+: visited := by
      refine List.prefix_of_prefix_length_le ⟨orders.flatten, ?_⟩ (List.prefix_append visited left) ?_
      · rw [hflatten, List.flatten_cons]
      · rw [ho.length_eq, List.length_range]
        exact hle
    exact hprefix.subset (ho.mem_iff.2 (List.mem_range.2 hi))

end Passes

namespace Raw

/-- What is inserted under a key that equals itself is held under it. -/
theorem lookup?_insertEntry {α : Type} {key : Raw} (hkey : same key key = true) (value : α)
    (entries : List (Raw × α)) : lookup? key (insertEntry key value entries) = some value := by
  induction entries with
  | nil => simp [insertEntry, lookup?, hkey]
  | cons e entries ih =>
    obtain ⟨other, held⟩ := e
    rw [insertEntry]
    split
    · rename_i hsame
      simp [lookup?, hsame]
    · rename_i hsame
      rw [lookup?, List.find?_cons_of_neg (by exact hsame)]
      exact ih

end Raw

namespace MemorySource

variable {m : MemorySource} {name : Raw} {documents : Array Raw} {visited : List Nat}

theorem documentsAt_append (xs ys : List Nat) :
    documentsAt documents (xs ++ ys) = documentsAt documents xs ++ documentsAt documents ys :=
  List.filterMap_append

theorem length_documentsAt {positions : List Nat} (h : ∀ i ∈ positions, i < documents.size) :
    (documentsAt documents positions).length = positions.length := by
  induction positions with
  | nil => rfl
  | cons i positions ih =>
    rw [List.forall_mem_cons] at h
    rw [documentsAt, List.filterMap_cons_some (Array.getElem?_eq_getElem h.1), List.length_cons,
      List.length_cons]
    exact congrArg (· + 1) (ih h.2)

/-- The positions that were visited in a collection that a source draws from without replacement. -/
structure Drawn (m : MemorySource) (name : Raw) (documents : Array Raw) (visited : List Nat) : Prop where
  documents_eq : m.documents name = .ok documents
  replaces_eq : m.replaces = false
  passes : Passes documents.size visited ((Raw.lookup? name m.remaining).getD [])

/-- A draw visits as many positions as are wanted and there are, and goes on with the passes. -/
theorem Drawn.positions (h : Drawn m name documents visited) (hname : Raw.same name name = true)
    (wanted : Int) :
    ∃ positions, (m.drawPositions name wanted).1 = .ok positions ∧
      positions.length = min wanted.toNat documents.size ∧
      Drawn (m.drawPositions name wanted).2 name documents (visited ++ positions) := by
  rw [drawPositions, h.documents_eq]
  dsimp only
  split
  · rename_i hnone
    refine ⟨[], rfl, ?_, ?_⟩
    · rw [Array.isEmpty_iff_size_eq_zero] at hnone
      rw [List.length_nil]
      omega
    · rw [List.append_nil]
      exact h
  · rename_i hsome
    rw [Array.isEmpty_iff_size_eq_zero] at hsome
    rw [h.replaces_eq, if_neg fun hlarge => Bool.false_ne_true hlarge.1]
    refine ⟨_, rfl, ?_⟩
    rw [visit, h.replaces_eq, if_neg Bool.false_ne_true]
    refine ⟨length_walk m.choices (by omega) _ _ _, h.documents_eq, rfl, ?_⟩
    rw [Raw.lookup?_insertEntry hname, Option.getD_some]
    exact h.passes.walk m.choices _ m.turn

theorem draw_of_positions {positions : List Nat} {wanted : Int} (hknown : m.documents name = .ok documents)
    (h : (m.drawPositions name wanted).1 = .ok positions) :
    (m.draw name wanted).1 = .ok (documentsAt documents positions) := by
  rw [MemorySource.draw]
  dsimp only
  rw [h, hknown]
  rfl

/-- A draw hands out the documents at positions that go on with the passes. -/
theorem Drawn.draw (h : Drawn m name documents visited) (hname : Raw.same name name = true)
    (wanted : Int) :
    ∃ positions, (m.draw name wanted).1 = .ok (documentsAt documents positions) ∧
      Drawn (m.draw name wanted).2 name documents (visited ++ positions) := by
  obtain ⟨positions, hpositions, -, hafter⟩ := h.positions hname wanted
  exact ⟨positions, draw_of_positions h.documents_eq hpositions, hafter⟩

end MemorySource

end DocSchema
