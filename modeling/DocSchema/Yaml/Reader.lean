import DocSchema.Raw.Equality
import DocSchema.Text.Lines
import DocSchema.Yaml.Node
import DocSchema.Yaml.Scalar

/-!
# Reading YAML

A document is read into a raw value. Nodes are read level by level: of several faults the one on the
uppermost level is told, and on one level the first.

- `read_nil`: a text without a document is null.
-/

namespace DocSchema.Yaml

/-- A part of a value, or a fault with the level on which it is met. -/
abbrev Ranked (α : Type) := Except (Nat × Fault) α

namespace Ranked

/-- A fault on a level. -/
def wrong {α : Type} (level : Nat) (fault : Fault) : Ranked α :=
  .error (level, fault)

/-- Puts two parts together; of two faults the one on the upper level counts, or else the first. -/
def both {α β γ : Type} (f : α → β → γ) : Ranked α → Ranked β → Ranked γ
  | .ok a, .ok b => .ok (f a b)
  | .ok _, .error e => .error e
  | .error e, .ok _ => .error e
  | .error d, .error e => .error (if e.1 < d.1 then e else d)

end Ranked

namespace Node

/-- The level of faults that are only met when the whole value is there. -/
def lastLevel : Nat := Number.twoTo 64

mutual
/-- The text of a node that stands for a scalar: its own, or that of the value under the mark for
it. -/
def text? : Node → Option String
  | .scalar _ text => some text
  | .mapping _ entries => valueText? entries
  | _ => none
/-- The text of the value under the mark for it. -/
def valueText? : List (Node × Node) → Option String
  | [] => none
  | (.scalar .value _, value) :: _ => text? value
  | _ :: entries => valueText? entries
end

/-- A key, if a mapping can hold one like it. A collection cannot be held, whatever is wrong in it. -/
def checkedKey (level : Nat) (key : Ranked Raw) : Ranked Raw :=
  match key with
  | .ok r => if r.isKey then .ok r else .wrong level .malformed
  | .error e => if e.1 ≤ level then .error e else .wrong level .malformed

/-- Entries of a mapping: whether its merges are sound, the entries that are merged into it, and its
own. -/
structure Entries where
  sound : Ranked Unit := .ok ()
  merged : Ranked (List (Raw × Raw)) := .ok []
  own : Ranked (List (Raw × Raw)) := .ok []

namespace Entries

/-- All entries, with those that are merged in front. -/
def all (e : Entries) : Ranked (List (Raw × Raw)) :=
  .both (fun _ entries => entries) e.sound (.both (· ++ ·) e.merged e.own)

/-- The entries with one more in front. -/
def withOwn (e : Entries) (key value : Ranked Raw) : Entries :=
  { e with own := .both (· :: ·) (.both (·, ·) key value) e.own }

/-- The entries with others that are merged into the mapping. -/
def withMerged (e merged : Entries) : Entries :=
  { e with
    sound := .both (fun _ _ => ()) merged.sound e.sound
    merged := .both (· ++ ·) (.both (· ++ ·) merged.merged merged.own) e.merged }

/-- Entries that cannot be merged. -/
def unsound (level : Nat) : Entries :=
  { sound := .wrong level .malformed }

end Entries

mutual
/-- Reads a node that is met on a level; what it holds is met on the next. -/
def read (level : Nat) : Node → Ranked Raw
  | .cycle => .wrong lastLevel .tooDeep
  | .scalar tag text =>
    match tag with
    | .sequence | .mapping | .set | .omap | .pairs => .wrong (level + 1) .malformed
    | tag => (Scalar.readText tag text).mapError (level, ·)
  | .sequence tag items =>
    match tag with
    | .sequence => (readItems (level + 1) items).map .list
    | .omap | .pairs => (readPairs (level + 1) items).map .list
    | .mapping | .set => .wrong (level + 1) .malformed
    | _ => .wrong level .malformed
  | .mapping tag entries =>
    match tag with
    | .mapping => (readEntries (level + 1) entries).all.map Raw.ofEntries
    | .set => (readEntries (level + 1) entries).all.map fun held => Raw.ofKeys (held.map Prod.fst)
    | .sequence | .omap | .pairs => .wrong (level + 1) .malformed
    | tag =>
      match valueText? entries with
      | some text => (Scalar.readText tag text).mapError (level, ·)
      | none => .wrong level .malformed
/-- Reads the items of a sequence. -/
def readItems (level : Nat) : List Node → Ranked (List Raw)
  | [] => .ok []
  | item :: items => .both (· :: ·) (read level item) (readItems level items)
/-- Reads the items of a sequence of pairs, each a mapping of one entry. -/
def readPairs (level : Nat) : List Node → Ranked (List Raw)
  | [] => .ok []
  | .mapping _ [(key, value)] :: items =>
    .both (· :: ·) (.both (fun k v => .tuple [k, v]) (read level key) (read level value))
      (readPairs level items)
  | _ :: _ => .wrong level .malformed
/-- Reads the entries of a mapping. -/
def readEntries (level : Nat) : List (Node × Node) → Entries
  | [] => {}
  | (.scalar .merge _, value) :: entries =>
    (readEntries level entries).withMerged (readMerged level value)
  | (.scalar .value text, value) :: entries =>
    (readEntries level entries).withOwn (.ok (.text text)) (read level value)
  | (key, value) :: entries =>
    (readEntries level entries).withOwn (checkedKey level (read level key)) (read level value)
/-- Reads the entries that a node adds to the mapping it is merged into. -/
def readMerged (level : Nat) : Node → Entries
  | .mapping _ entries => readEntries level entries
  | .sequence _ items => readMergedItems level items
  | .cycle => {}
  | .scalar _ _ => .unsound level
/-- Reads the entries that some mappings add to the one they are merged into; those of the last
mapping come first. -/
def readMergedItems (level : Nat) : List Node → Entries
  | [] => {}
  | .mapping _ entries :: items =>
    let rest := readMergedItems level items
    let first := readEntries level entries
    { sound := .both (fun _ _ => ()) first.sound rest.sound
      merged := .both (· ++ ·) rest.merged (.both (· ++ ·) first.merged first.own) }
  | _ :: _ => .unsound level
end

end Node

/-- Whether a character may stand in a text. -/
def isPrintable (c : Char) : Bool :=
  let n := c.toNat
  c == '\t' || c == '\n' || c == '\r' || (0x20 ≤ n && n ≤ 0x7e) || n == 0x85 ||
    (0xa0 ≤ n && n ≤ 0xd7ff) || (0xe000 ≤ n && n ≤ 0xfffd) || 0x10000 ≤ n

/-- Reads the one document of a text; without a document it is null. -/
def read (text : List Char) : Except Fault Raw := do
  if text.all isPrintable then
    match ← Node.document (tokens (Text.plainLines text)) with
    | none => .ok .null
    | some node => (node.read 0).mapError Prod.snd
  else .error .malformed

theorem read_nil : (read []).toOption.map Raw.isTrue = some false := by decide +kernel

end DocSchema.Yaml
