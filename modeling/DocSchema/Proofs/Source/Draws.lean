import DocSchema.Proofs.Raw.Keys
import DocSchema.Proofs.Source.Passes

/-!
# Histories of draws

Draws of any sizes from any collections of a source in memory, one after the other. Without replacement,
what has been drawn from one collection is in whole passes over it, whatever was drawn from the others in
between: a draw goes on with the passes of its own collection and leaves what the orders of the others
have left.

- `Passes.block`: passes, cut into blocks of the size of the collection.
- `Drawn.step`: a draw from any collection goes on with the passes of each.
- `draws_in_passes`: every draw is as large as it can be, and all draws together are passes.
-/

namespace DocSchema

namespace Passes

variable {size : Nat} {visited left : List Nat}

theorem block_flatten {orders : List (List Nat)} (h : ∀ o ∈ orders, o.length = size) (j : Nat) :
    (orders.flatten.drop (j * size)).take size = orders[j]?.getD [] := by
  induction orders generalizing j with
  | nil => simp
  | cons o orders ih =>
    rw [List.forall_mem_cons] at h
    cases j with
    | zero => simp [← h.1]
    | succ j =>
      rw [List.flatten_cons, Nat.succ_mul, Nat.add_comm, ← List.drop_drop, List.drop_left' h.1]
      exact ih h.2 j

/-- No block of visits has a position twice, and a full block has all positions. -/
theorem block (h : Passes size visited left) (j : Nat) :
    ((visited.drop (j * size)).take size).Nodup ∧
      ((j + 1) * size ≤ visited.length →
        ((visited.drop (j * size)).take size).Perm (List.range size)) := by
  obtain ⟨orders, hperm, hflatten, hleft⟩ := h
  have hlength : ∀ o ∈ orders, o.length = size := fun o ho => by
    rw [(hperm o ho).length_eq, List.length_range]
  have hpart : (visited.drop (j * size)).take size <+: orders[j]?.getD [] := by
    rw [← block_flatten hlength, ← hflatten, List.drop_append, List.take_append]
    exact List.prefix_append _ _
  have hfull (hle : (j + 1) * size ≤ visited.length) :
      ((visited.drop (j * size)).take size).length = size := by
    rw [Nat.succ_mul] at hle
    rw [List.length_take, List.length_drop]
    omega
  cases ho : orders[j]? with
  | none =>
    rw [ho, Option.getD_none, List.prefix_nil] at hpart
    rw [hpart] at hfull ⊢
    exact ⟨List.nodup_nil, fun hle => absurd (hfull hle) (by rw [List.length_nil]; omega)⟩
  | some o =>
    have hmem := List.mem_of_getElem? ho
    rw [ho, Option.getD_some] at hpart
    refine ⟨hpart.sublist.nodup ((hperm o hmem).nodup_iff.2 List.nodup_range), fun hle => ?_⟩
    rw [hpart.eq_of_length ((hfull hle).trans (hlength o hmem).symm)]
    exact hperm o hmem

end Passes

namespace MemorySource

/-- The source after some draws, each from a collection and of a size. -/
def after (m : MemorySource) : List (Raw × Int) → MemorySource
  | [] => m
  | (name, wanted) :: calls => (m.draw name wanted).2.after calls

/-- The positions that a draw from a collection that may be another one visits in this one. -/
def drawnBy (m : MemorySource) (name other : Raw) (wanted : Int) : List Nat :=
  match (m.drawPositions other wanted).1 with
  | .ok positions => if Raw.same other name then positions else []
  | .error _ => []

/-- The positions that some draws visit in one collection, in order. -/
def drawnFrom (m : MemorySource) (name : Raw) : List (Raw × Int) → List Nat
  | [] => []
  | (other, wanted) :: calls =>
    m.drawnBy name other wanted ++ (m.draw other wanted).2.drawnFrom name calls

variable {m : MemorySource} {name other : Raw} {documents : Array Raw} {visited : List Nat}

theorem documents_eq_ok_iff :
    m.documents name = .ok documents ↔
      name.isKey = true ∧ Raw.lookup? name m.collections = some documents := by
  rw [MemorySource.documents]
  cases name.isKey with
  | false => simp
  | true =>
    cases Raw.lookup? name m.collections with
    | none => cases name.showFault? <;> simp
    | some held => simp

theorem size_lt_of_documents {bound : Nat} (h : ∀ held ∈ m.collections, held.2.size < bound)
    (hknown : m.documents name = .ok documents) : documents.size < bound := by
  obtain ⟨-, hlookup⟩ := documents_eq_ok_iff.1 hknown
  obtain ⟨held, hfind, rfl⟩ := Option.map_eq_some_iff.1 hlookup
  exact h held (List.mem_of_find?_eq_some hfind)

/-- A draw from a collection that is there succeeds, unless too many positions are to be chosen at once. -/
theorem exists_draw (h : m.documents name = .ok documents) {wanted : Int}
    (hwanted : m.replaces = true → wanted < pickBound) : ∃ items, (m.draw name wanted).1 = .ok items := by
  have hpositions : ∃ positions, (m.drawPositions name wanted).1 = .ok positions := by
    rw [drawPositions, h]
    dsimp only
    split
    · exact ⟨_, rfl⟩
    · rw [if_neg fun hlarge => Int.not_le.2 (hwanted hlarge.1) hlarge.2]
      exact ⟨_, rfl⟩
  obtain ⟨positions, hpositions⟩ := hpositions
  exact ⟨_, draw_of_positions h hpositions⟩

/-- The name of a collection that is there equals itself. -/
theorem same_self_of_documents (h : m.documents name = .ok documents) :
    Raw.same name name = true := by
  obtain ⟨hkey, hlookup⟩ := documents_eq_ok_iff.1 h
  obtain ⟨⟨held, _⟩, hfind, -⟩ := Option.map_eq_some_iff.1 hlookup
  have hsame : Raw.same held name = true := by simpa using List.find?_some hfind
  exact Raw.same_trans hkey (Raw.same_symm (.inr hkey) hsame) hsame

/-- What a draw does to a source without replacement: nothing, or it takes turns in the orders of its
collection and leaves a part of one. -/
theorem draw_cases (hreplaces : m.replaces = false) (other : Raw) (wanted : Int) :
    (m.draw other wanted).2 = m ∨ other.isKey = true ∧ ∃ turn left, (m.draw other wanted).2 =
      { m with turn := turn, remaining := Raw.insertEntry other left m.remaining } := by
  rw [MemorySource.draw]
  dsimp only
  rw [drawPositions]
  split
  · exact .inl rfl
  · rename_i hknown
    split
    · exact .inl rfl
    · refine .inr ⟨(documents_eq_ok_iff.1 hknown).1, ?_⟩
      have hpicks : ¬m.replaces = true := Bool.not_eq_true _ ▸ hreplaces
      rw [if_neg fun hlarge => hpicks hlarge.1, visit, if_neg hpicks]
      exact ⟨_, _, rfl⟩

theorem documents_of_collections {m' : MemorySource} (h : m'.collections = m.collections) (name : Raw) :
    m'.documents name = m.documents name := by
  rw [MemorySource.documents, MemorySource.documents, h]

theorem visit_kept (m : MemorySource) (other : Raw) (size wanted : Nat) :
    (m.visit other size wanted).2.collections = m.collections ∧
      (m.visit other size wanted).2.replaces = m.replaces := by
  rw [visit]
  split
  · exact ⟨rfl, rfl⟩
  · exact ⟨rfl, rfl⟩

theorem collections_draw (m : MemorySource) (other : Raw) (wanted : Int) :
    (m.draw other wanted).2.collections = m.collections := by
  rw [MemorySource.draw]
  dsimp only
  rw [drawPositions]
  split
  · rfl
  · split
    · rfl
    · split
      · rfl
      · exact (visit_kept m other _ _).1

theorem documents_draw (other : Raw) (wanted : Int) :
    (m.draw other wanted).2.documents name = m.documents name :=
  documents_of_collections (collections_draw m other wanted) name

theorem replaces_draw (m : MemorySource) (other : Raw) (wanted : Int) :
    (m.draw other wanted).2.replaces = m.replaces := by
  rw [MemorySource.draw]
  dsimp only
  rw [drawPositions]
  split
  · rfl
  · split
    · rfl
    · split
      · rfl
      · exact (visit_kept m other _ _).2

theorem drawnBy_of_foreign (hne : ¬(other.isKey = true ∧ Raw.same other name = true)) {wanted : Int} :
    m.drawnBy name other wanted = [] := by
  rw [drawnBy]
  split
  · rename_i hpositions
    refine if_neg fun hsame => hne ⟨?_, hsame⟩
    rw [drawPositions] at hpositions
    split at hpositions
    · cases hpositions
    · rename_i hknown
      exact (documents_eq_ok_iff.1 hknown).1
  · rfl

namespace Drawn

/-- What has been drawn from a collection has been drawn from it under every name that equals its own. -/
theorem congr (h : Drawn m name documents visited) (hother : other.isKey = true)
    (hsame : Raw.same other name = true) : Drawn m other documents visited := by
  obtain ⟨hkey, hlookup⟩ := documents_eq_ok_iff.1 h.documents_eq
  refine ⟨documents_eq_ok_iff.2 ⟨hother, ?_⟩, h.replaces_eq, ?_⟩
  · rw [Raw.lookup?_congr hother hkey hsame, hlookup]
  · rw [Raw.lookup?_congr hother hkey hsame]
    exact h.passes

/-- A draw from a collection goes on with its passes, under whatever name it is drawn from. -/
theorem own (h : Drawn m name documents visited) (hother : other.isKey = true)
    (hsame : Raw.same other name = true) (wanted : Int) :
    Drawn (m.draw other wanted).2 name documents (visited ++ m.drawnBy name other wanted) := by
  have hkey := (documents_eq_ok_iff.1 h.documents_eq).1
  have hdrawn := h.congr hother hsame
  obtain ⟨positions, hpositions, -, hafter⟩ :=
    hdrawn.positions (same_self_of_documents hdrawn.documents_eq) wanted
  rw [drawnBy, hpositions]
  dsimp only
  rw [if_pos hsame]
  exact hafter.congr hkey (Raw.same_symm (.inl hother) hsame)

/-- A draw under another name, or under a value that is no name, leaves the passes where they are. -/
theorem foreign (h : Drawn m name documents visited)
    (hne : ¬(other.isKey = true ∧ Raw.same other name = true)) (wanted : Int) :
    Drawn (m.draw other wanted).2 name documents (visited ++ m.drawnBy name other wanted) := by
  rw [drawnBy_of_foreign hne, List.append_nil]
  refine ⟨?_, (replaces_draw m other wanted).trans h.replaces_eq, ?_⟩
  · rw [documents_draw, h.documents_eq]
  · obtain hafter | ⟨hkey, turn, left, hafter⟩ := draw_cases h.replaces_eq other wanted
    · rw [hafter]
      exact h.passes
    · rw [hafter, Raw.lookup?_insertEntry_of_ne hkey fun hsame => hne ⟨hkey, hsame⟩]
      exact h.passes

/-- A draw from any collection goes on with the passes of each. -/
theorem step (h : Drawn m name documents visited) (other : Raw) (wanted : Int) :
    Drawn (m.draw other wanted).2 name documents (visited ++ m.drawnBy name other wanted) := by
  by_cases hown : other.isKey = true ∧ Raw.same other name = true
  · exact h.own hown.1 hown.2 wanted
  · exact h.foreign hown wanted

/-- Draws from any collections go on with the passes of each. -/
theorem run (h : Drawn m name documents visited) (calls : List (Raw × Int)) :
    Drawn (m.after calls) name documents (visited ++ m.drawnFrom name calls) := by
  induction calls generalizing m visited with
  | nil =>
    rw [after, drawnFrom, List.append_nil]
    exact h
  | cons call calls ih =>
    obtain ⟨other, wanted⟩ := call
    rw [after, drawnFrom, ← List.append_assoc]
    exact ih (h.step other wanted)

end Drawn

section Empty

/-! ### Collections without documents

Their one order has no positions, so it is used up from the start and no pass is ever begun. -/

variable (hempty : documents.size = 0)
include hempty

theorem drawPositions_of_empty (h : m.documents name = .ok documents) (wanted : Int) :
    m.drawPositions name wanted = (.ok [], m) := by
  rw [drawPositions, h]
  exact if_pos (.inl (Array.isEmpty_iff_size_eq_zero.2 hempty))

theorem drawnBy_of_empty (h : m.documents name = .ok documents) (other : Raw) (wanted : Int) :
    m.drawnBy name other wanted = [] := by
  by_cases hown : other.isKey = true ∧ Raw.same other name = true
  · obtain ⟨hkey, hlookup⟩ := documents_eq_ok_iff.1 h
    have hother : m.documents other = .ok documents := by
      rw [documents_eq_ok_iff, Raw.lookup?_congr hown.1 hkey hown.2]
      exact ⟨hown.1, hlookup⟩
    rw [drawnBy, drawPositions_of_empty hempty hother]
    exact ite_self _
  · exact drawnBy_of_foreign hown

theorem run_of_empty (hreplaces : m.replaces = false) (h : m.documents name = .ok documents)
    (calls : List (Raw × Int)) :
    (m.after calls).documents name = .ok documents ∧ m.drawnFrom name calls = [] := by
  induction calls generalizing m with
  | nil => exact ⟨h, rfl⟩
  | cons call calls ih =>
    obtain ⟨other, wanted⟩ := call
    rw [after, drawnFrom, drawnBy_of_empty hempty h, List.nil_append]
    exact ih ((replaces_draw m other wanted).trans hreplaces) ((documents_draw other wanted).trans h)

end Empty

/-- Draws of any sizes from any collections of a source without replacement. After any of them, a draw
from a collection hands out as many documents as are wanted and there are. What all of them have drawn
from a collection, cut into blocks of its size, has every position once in each full block and none
twice in the last one. -/
theorem draws_in_passes (collections : List (Raw × Array Raw)) (choices : Randomness)
    (calls : List (Raw × Int)) {name : Raw} {documents : Array Raw}
    (h : MemorySource.documents { collections, choices } name = .ok documents) :
    let start : MemorySource := { collections, choices }
    let drawn := start.drawnFrom name calls
    (∀ wanted : Int, ∃ positions,
      ((start.after calls).drawPositions name wanted).1 = .ok positions ∧
      ((start.after calls).draw name wanted).1 = .ok (documentsAt documents positions) ∧
      (documentsAt documents positions).length = min wanted.toNat documents.size) ∧
    (∀ i ∈ drawn, i < documents.size) ∧
    ∀ j, ((drawn.drop (j * documents.size)).take documents.size).Nodup ∧
      ((j + 1) * documents.size ≤ drawn.length →
        ((drawn.drop (j * documents.size)).take documents.size).Perm
          (List.range documents.size)) := by
  intro start drawn
  obtain hempty | hpos := Nat.eq_zero_or_pos documents.size
  · obtain ⟨hknown, hdrawn⟩ := run_of_empty (m := start) hempty rfl h calls
    refine ⟨fun wanted => ⟨[], ?_, ?_, ?_⟩, ?_, fun j => ?_⟩
    · rw [drawPositions_of_empty hempty hknown]
    · exact draw_of_positions hknown (congrArg Prod.fst (drawPositions_of_empty hempty hknown wanted))
    · rw [hempty, Nat.min_zero]
      rfl
    · simp [drawn, hdrawn]
    · simp [drawn, hdrawn, hempty]
  · have hstart : Drawn start name documents [] := ⟨h, rfl, Passes.nil hpos⟩
    have hrun := hstart.run calls
    rw [List.nil_append] at hrun
    refine ⟨fun wanted => ?_, fun i hi => hrun.passes.lt hi, fun j => hrun.passes.block j⟩
    obtain ⟨positions, hpositions, hlength, hafter⟩ :=
      hrun.positions (same_self_of_documents h) wanted
    refine ⟨positions, hpositions, draw_of_positions hrun.documents_eq hpositions, ?_⟩
    rw [length_documentsAt fun i hi => hafter.passes.lt (List.mem_append_right _ hi), hlength]

/-- Two collections, of two documents and of one. -/
def twoCollections : List (Raw × Array Raw) :=
  [(.text "users", #[.text "first", .text "second"]), (.text "posts", #[.text "only"])]

/-- Draws from one collection with others in between: the third draw begins a pass in its middle. -/
theorem draws_in_passes_interleaved :
    let start : MemorySource := { collections := twoCollections, choices := .inOrder }
    let drawn := start.drawnFrom (.text "users")
      [(.text "users", 1), (.text "posts", 3), (.text "users", 2), (.text "users", 0), (.text "none", 1)]
    start.documents (.text "users") = .ok #[.text "first", .text "second"] ∧ drawn = [0, 1, 0] ∧
      ∀ j, ((drawn.drop (j * 2)).take 2).Nodup ∧
        ((j + 1) * 2 ≤ drawn.length → ((drawn.drop (j * 2)).take 2).Perm (List.range 2)) := by
  intro start drawn
  have hknown : start.documents (.text "users") = .ok #[.text "first", .text "second"] := by
    rfl
  exact ⟨hknown, by rfl, (draws_in_passes twoCollections .inOrder _ hknown).2.2⟩

end MemorySource

end DocSchema
