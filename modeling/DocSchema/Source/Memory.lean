import DocSchema.Raw.Order
import DocSchema.Raw.Show
import DocSchema.Source.Fault
import DocSchema.Source.Randomness

/-!
# Collections in memory

A source that holds its collections itself. Without replacement, draws from a collection walk through
an order of its documents, and begin a new order when the former is used up. With replacement, every
draw is independent of the others.

- `length_walk`: a walk visits as many documents as are wanted.
-/

namespace DocSchema

/-- A source that holds its collections. For each collection, the positions that the order under way
has left. -/
structure MemorySource where
  collections : List (Raw × Array Raw) := []
  replaces : Bool := false
  choices : Randomness
  turn : Nat := 0
  remaining : List (Raw × List Nat) := []

namespace MemorySource

/-- Whether a value may be the seed of random choices. -/
def isSeed : Raw → Bool
  | .null | .bool _ | .int _ | .long _ | .float _ | .text _ | .code _ => true
  | .bytes .view _ => false
  | .bytes _ _ => true
  | _ => false

/-- Reads the documents of some collections. -/
def readCollections : List (Raw × Raw) → Except SourceFault (List (Raw × Array Raw))
  | [] => .ok []
  | (name, documents) :: entries =>
    match documents.elements? with
    | none => .error (.misuse (.notIterable documents.typeName))
    | some items => (readCollections entries).map ((name, items.toArray) :: ·)

/-- A source from its settings. -/
def create (choices : Randomness) (settings : Raw) : Except SourceFault MemorySource :=
  match settings with
  | .map fields => do
    let held := (Raw.field? "collections" fields).getD .null
    let collections ← match held with
      | .map entries => readCollections entries
      | held =>
        if held.isTrue then .error (.misuse (.noPart held.typeName "items")) else .ok []
    let replaces := ((Raw.field? "replacement" fields).getD .null).isTrue
    if isSeed ((Raw.field? "seed" fields).getD .null) then .ok { collections, replaces, choices }
    else .error (.misuse .notSeed)
  | settings => .error (.misuse (.noPart settings.typeName "get"))

/-- The names of the collections, in order (`list_collections`). -/
def names (s : MemorySource) : Except SourceFault (List Raw) :=
  match Raw.inOrder? (s.collections.map Prod.fst) with
  | some names => .ok names
  | none => .error (.misuse (Raw.orderMisuse (s.collections.map Prod.fst)))

/-- The documents of a collection (`_documents`). -/
def documents (s : MemorySource) (name : Raw) : Except SourceFault (Array Raw) :=
  if name.isKey then
    match Raw.lookup? name s.collections with
    | some documents => .ok documents
    | none =>
      match name.showFault? with
      | some fault => .error (.nameNotShown fault)
      | none => .error (.unknownCollection name.plainText)
  else .error (.misuse name.keyMisuse)

/-- The number of documents in a collection. -/
def count (s : MemorySource) (name : Raw) : Except SourceFault Nat :=
  (s.documents name).map Array.size

/-- A walk through orders: the positions visited, the turn of the next order, and what the order
under way has left. -/
structure Walk where
  visited : List Nat := []
  turn : Nat
  left : List Nat

/-- Visits some positions, in the order under way and in new orders after it. -/
def walk (choices : Randomness) (size : Nat) : (steps turn : Nat) → (left : List Nat) → Walk
  | 0, turn, left => { turn, left }
  | steps + 1, turn, i :: left =>
    let rest := walk choices size steps turn left
    { rest with visited := i :: rest.visited }
  | steps + 1, turn, [] =>
    match choices.order turn size with
    | [] => { turn := turn + 1, left := [] }
    | i :: left =>
      let rest := walk choices size steps (turn + 1) left
      { rest with visited := i :: rest.visited }

/-- Fewer positions than this are chosen at once: how many is a machine word with a sign. -/
def pickBound : Int := Number.twoTo 63

/-- Positions that are chosen one independently of the other. -/
def picks (choices : Randomness) (size turn : Nat) (wanted : Nat) : List Nat :=
  (List.range wanted).map fun i => choices.pick (turn + i) size

/-- The documents at some positions. -/
def documentsAt (documents : Array Raw) (positions : List Nat) : List Raw :=
  positions.filterMap (documents[·]?)

/-- The positions that a draw from a collection of some size visits, and the source after it (`_next_index`). -/
def visit (s : MemorySource) (name : Raw) (size wanted : Nat) : List Nat × MemorySource :=
  if s.replaces then (picks s.choices size s.turn wanted, { s with turn := s.turn + wanted })
  else
    let left := (Raw.lookup? name s.remaining).getD []
    let w := walk s.choices size (min wanted size) s.turn left
    (w.visited, { s with turn := w.turn, remaining := Raw.insertEntry name w.left s.remaining })

/-- Draws from a collection: the positions of the documents that are drawn. -/
def drawPositions (s : MemorySource) (name : Raw) (wanted : Int) :
    Except SourceFault (List Nat) × MemorySource :=
  match s.documents name with
  | .error f => (.error f, s)
  | .ok documents =>
    if documents.isEmpty ∨ wanted ≤ 0 then (.ok [], s)
    else if s.replaces ∧ pickBound ≤ wanted then
      (.error (.range "Python int too large to convert to C ssize_t"), s)
    else
      let (positions, after) := s.visit name documents.size wanted.toNat
      (.ok positions, after)

/-- Draws documents from a collection (`sample_random`). -/
def draw (s : MemorySource) (name : Raw) (wanted : Int) :
    Except SourceFault (List Raw) × MemorySource :=
  let (positions, after) := s.drawPositions name wanted
  (do .ok (documentsAt (← s.documents name) (← positions)), after)

theorem length_walk (choices : Randomness) {size : Nat} (h : 0 < size) (steps turn : Nat)
    (left : List Nat) : (walk choices size steps turn left).visited.length = steps := by
  induction steps generalizing turn left with
  | zero => rfl
  | succ steps ih =>
    cases left with
    | cons i left => simp [walk, ih]
    | nil =>
      have hlength := choices.length_order turn size
      rw [walk]
      split
      · simp_all
      · simp [ih]

end MemorySource

end DocSchema
