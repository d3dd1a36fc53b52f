import DocSchema.Yaml.Tag
import DocSchema.Yaml.Token

/-!
# Nodes

The tokens of a text make up one tree of nodes, in which an alias stands for the node with the anchor of
its name. A node that would hold itself is marked. How deeply nodes are nested is limited.
-/

namespace DocSchema.Yaml

/-- A node of a document. -/
inductive Node
  | scalar (tag : Tag) (text : String)
  | sequence (tag : Tag) (items : List Node)
  | mapping (tag : Tag) (entries : List (Node × Node))
  /-- A node inside of itself. -/
  | cycle
  deriving Repr, Inhabited

namespace Node

/-- The node that stands where nothing is written. -/
def empty : Node := .scalar .null ""

/-- The greatest number of nodes, one inside of the other. -/
def maxDepth : Nat := 488

/-- How far the tokens have been read, and how many nodes were begun and not ended. A node without its
anchor's end is not known yet. -/
structure Reading where
  tokens : List Token
  depth : Nat := 0
  anchors : List (String × Option Node) := []
  handles : List (String × String) := []

namespace Reading

/-- The next token. -/
def peek (r : Reading) : Token :=
  r.tokens.head?.getD .textEnd

/-- The reading behind the next token. -/
def next (r : Reading) : Reading :=
  { r with tokens := r.tokens.tail }

/-- Fails at the next token: for a reason of its own, if the text could not be cut there. -/
def fail {α : Type} (r : Reading) : Except Fault α :=
  match r.peek with
  | .broken fault => .error fault
  | _ => .error .malformed

/-- Names a node, which may not be known yet. -/
def name (r : Reading) (anchor? : Option String) (node? : Option Node) : Reading :=
  match anchor? with
  | none => r
  | some anchor => { r with anchors := (anchor, node?) :: r.anchors }

end Reading

/-- The anchor and the tag of a node, as they are written. -/
structure Properties where
  anchor? : Option String := none
  tag? : Option WrittenTag := none

/-- Reads the anchor and the tag of a node, in either order. -/
def takeProperties (r : Reading) : Properties × Reading :=
  match r.peek with
  | .anchor anchor =>
    match r.next.peek with
    | .tag t => ({ anchor? := some anchor, tag? := some t }, r.next.next)
    | _ => ({ anchor? := some anchor }, r.next)
  | .tag t =>
    match r.next.peek with
    | .anchor anchor => ({ anchor? := some anchor, tag? := some t }, r.next.next)
    | _ => ({ tag? := some t }, r.next)
  | _ => ({}, r)

/-- The full name of a tag; the mark alone is its own name. -/
def fullTag (handles : List (String × String)) (t : WrittenTag) : Except Fault String :=
  match t.handle? with
  | none => .ok t.text
  | some handle =>
    match handles.lookup handle with
    | some start => .ok (start ++ t.text)
    | none => .error .malformed

/-- The tag of a scalar. The mark alone asks for the form of the text, as does a plain text without
a tag. -/
def scalarTag (name? : Option String) (plain : Bool) (text : String) : Tag :=
  match name? with
  | some "!" => .ofPlain text
  | some name => .ofName name
  | none => if plain then .ofPlain text else .text

/-- The tag of a collection. -/
def collectionTag (name? : Option String) (otherwise : Tag) : Tag :=
  match name? with
  | none | some "!" => otherwise
  | some name => .ofName name

/-- Where a node may stand: whether it may be a block collection, and whether a sequence may begin
without indentation. -/
structure Position where
  inBlock : Bool
  allowsItems : Bool := false

mutual
/-- Reads a node. -/
def take (fuel : Nat) (position : Position) (r : Reading) : Except Fault (Node × Reading) :=
  match fuel with
  | 0 => r.fail
  | fuel + 1 =>
    match r.peek with
    | .alias name =>
      match r.anchors.lookup name with
      | some (some node) => .ok (node, r.next)
      | some none => .ok (.cycle, r.next)
      | none => .error .malformed
    | _ => do
      let depth := r.depth
      let (properties, r) := takeProperties r
      let name? ← match properties.tag? with
        | some t => (fullTag r.handles t).map some
        | none => .ok none
      if properties.anchor?.any fun anchor => (r.anchors.lookup anchor).isSome then
        .error .malformed
      else if maxDepth ≤ depth then .error .tooDeep
      else
        let opened := { r.name properties.anchor? none with depth := depth + 1 }
        let (node, r) ← takeContent fuel position properties name? opened
        .ok (node, { r.name properties.anchor? (some node) with depth })
/-- Reads the content of a node with some properties. -/
def takeContent (fuel : Nat) (position : Position) (properties : Properties)
    (name? : Option String) (r : Reading) : Except Fault (Node × Reading) :=
  match fuel with
  | 0 => r.fail
  | fuel + 1 =>
    let asSequence := collectionTag name? .sequence
    let asMapping := collectionTag name? .mapping
    match r.peek, position.inBlock, position.allowsItems with
    | .item, _, true => (takeLooseItems fuel r).map fun (items, r) => (.sequence asSequence items, r)
    | .scalar text plain, _, _ => .ok (.scalar (scalarTag name? plain text) text, r.next)
    | .flowSequenceStart, _, _ =>
      (takeFlowItems fuel true r.next).map fun (items, r) => (.sequence asSequence items, r)
    | .flowMappingStart, _, _ =>
      (takeFlowEntries fuel true r.next).map fun (entries, r) => (.mapping asMapping entries, r)
    | .sequenceStart, true, _ =>
      (takeItems fuel r.next).map fun (items, r) => (.sequence asSequence items, r)
    | .mappingStart, true, _ =>
      (takeEntries fuel r.next).map fun (entries, r) => (.mapping asMapping entries, r)
    | _, _, _ =>
      if properties.anchor?.isSome || properties.tag?.isSome then
        .ok (.scalar (scalarTag name? true "") "", r)
      else r.fail
/-- Reads the items of a block sequence up to its end. -/
def takeItems (fuel : Nat) (r : Reading) : Except Fault (List Node × Reading) :=
  match fuel with
  | 0 => r.fail
  | fuel + 1 =>
    match r.peek with
    | .item => do
      let (node, r) ← match r.next.peek with
        | .item | .blockEnd => .ok (.empty, r.next)
        | _ => take fuel { inBlock := true } r.next
      let (nodes, r) ← takeItems fuel r
      .ok (node :: nodes, r)
    | .blockEnd => .ok ([], r.next)
    | _ => r.fail
/-- Reads the items of a sequence without indentation of its own. -/
def takeLooseItems (fuel : Nat) (r : Reading) : Except Fault (List Node × Reading) :=
  match fuel with
  | 0 => r.fail
  | fuel + 1 =>
    match r.peek with
    | .item => do
      let (node, r) ← match r.next.peek with
        | .item | .key | .value | .blockEnd => .ok (.empty, r.next)
        | _ => take fuel { inBlock := true } r.next
      let (nodes, r) ← takeLooseItems fuel r
      .ok (node :: nodes, r)
    | _ => .ok ([], r)
/-- Reads what stands behind the mark of a key or value in a block mapping. -/
def takeBlockPart (fuel : Nat) (r : Reading) : Except Fault (Node × Reading) :=
  match fuel with
  | 0 => r.fail
  | fuel + 1 =>
    match r.peek with
    | .key | .value | .blockEnd => .ok (.empty, r)
    | _ => take fuel { inBlock := true, allowsItems := true } r
/-- Reads the entries of a block mapping up to its end. -/
def takeEntries (fuel : Nat) (r : Reading) : Except Fault (List (Node × Node) × Reading) :=
  match fuel with
  | 0 => r.fail
  | fuel + 1 =>
    match r.peek with
    | .key => do
      let (key, r) ← takeBlockPart fuel r.next
      let (value, r) ← match r.peek with
        | .value => takeBlockPart fuel r.next
        | _ => .ok (.empty, r)
      let (entries, r) ← takeEntries fuel r
      .ok ((key, value) :: entries, r)
    | .blockEnd => .ok ([], r.next)
    | _ => r.fail
/-- Reads the value behind the key of an entry of a flow collection. -/
def takeFlowValue (fuel : Nat) (close : Token) (r : Reading) : Except Fault (Node × Reading) :=
  match fuel with
  | 0 => r.fail
  | fuel + 1 =>
    match r.peek with
    | .value =>
      if r.next.peek = .comma ∨ r.next.peek = close then .ok (.empty, r.next)
      else take fuel { inBlock := false } r.next
    | _ => .ok (.empty, r)
/-- Reads a key behind its mark, and its value, in a flow collection. -/
def takeFlowPair (fuel : Nat) (close : Token) (r : Reading) :
    Except Fault ((Node × Node) × Reading) :=
  match fuel with
  | 0 => r.fail
  | fuel + 1 => do
    let (key, r) ←
      if r.peek = .value ∨ r.peek = .comma ∨ r.peek = close then .ok (.empty, r)
      else take fuel { inBlock := false } r
    let (value, r) ← takeFlowValue fuel close r
    .ok ((key, value), r)
/-- Reads the items of a flow sequence up to its end. -/
def takeFlowItems (fuel : Nat) (first : Bool) (r : Reading) : Except Fault (List Node × Reading) :=
  match fuel with
  | 0 => r.fail
  | fuel + 1 =>
    if r.peek = .flowSequenceEnd then .ok ([], r.next)
    else if !first && r.peek != .comma then r.fail
    else
      let r := if first then r else r.next
      match r.peek with
      | .flowSequenceEnd => .ok ([], r.next)
      | .key => do
        let (entry, r) ← takeFlowPair fuel .flowSequenceEnd r.next
        let (nodes, r) ← takeFlowItems fuel false r
        .ok (.mapping .mapping [entry] :: nodes, r)
      | _ => do
        let (node, r) ← take fuel { inBlock := false } r
        let (nodes, r) ← takeFlowItems fuel false r
        .ok (node :: nodes, r)
/-- Reads the entries of a flow mapping up to its end. -/
def takeFlowEntries (fuel : Nat) (first : Bool) (r : Reading) :
    Except Fault (List (Node × Node) × Reading) :=
  match fuel with
  | 0 => r.fail
  | fuel + 1 =>
    if r.peek = .flowMappingEnd then .ok ([], r.next)
    else if !first && r.peek != .comma then r.fail
    else
      let r := if first then r else r.next
      match r.peek with
      | .flowMappingEnd => .ok ([], r.next)
      | .key => do
        let (entry, r) ← takeFlowPair fuel .flowMappingEnd r.next
        let (entries, r) ← takeFlowEntries fuel false r
        .ok (entry :: entries, r)
      | _ => do
        let (key, r) ← take fuel { inBlock := false } r
        let (entries, r) ← takeFlowEntries fuel false r
        .ok ((key, .empty) :: entries, r)
end

/-- What handles of tags stand for unless a directive says otherwise. -/
def standardHandles : List (String × String) :=
  [("!", "!"), ("!!", Tag.ownStart)]

/-- What the directives before a document have said. -/
structure Directives where
  hasVersion : Bool := false
  handles : List (String × String) := []

/-- Reads the directives before a document. -/
def takeDirectives (fuel : Nat) (d : Directives) (r : Reading) :
    Except Fault (Directives × Reading) :=
  match fuel with
  | 0 => r.fail
  | fuel + 1 =>
    match r.peek with
    | .directive (.version major) =>
      if d.hasVersion ∨ major ≠ 1 then .error .malformed
      else takeDirectives fuel { d with hasVersion := true } r.next
    | .directive (.tagStart handle start) =>
      if (d.handles.lookup handle).isSome then .error .malformed
      else takeDirectives fuel { d with handles := (handle, start) :: d.handles } r.next
    | .directive .other => takeDirectives fuel d r.next
    | _ => .ok (d, r)

/-- The reading behind the marks of ended documents. -/
def dropEnds (r : Reading) : Reading :=
  { r with tokens := r.tokens.dropWhile (· == .documentEnd) }

/-- Reads a document that begins with a mark. -/
def takeMarked (fuel : Nat) (r : Reading) : Except Fault (Node × Reading) := do
  let (d, r) ← takeDirectives fuel {} r
  if r.peek ≠ .documentStart then r.fail
  else
    let r := { r.next with handles := d.handles ++ standardHandles }
    match r.peek with
    | .directive _ | .documentStart | .documentEnd | .textEnd => .ok (.empty, r)
    | _ => take fuel { inBlock := true } r

/-- Reads the first document, if there is one. -/
def takeFirst (fuel : Nat) (r : Reading) : Except Fault (Option Node × Reading) :=
  match r.peek with
  | .textEnd => .ok (none, r)
  | .directive _ | .documentStart => (takeMarked fuel r).map fun (node, r) => (some node, r)
  | _ =>
    (take fuel { inBlock := true } { r with handles := standardHandles }).map fun (node, r) =>
      (some node, r)

/-- The one document of a text, if there is one. -/
def document (ts : List Token) : Except Fault (Option Node) := do
  let (node?, r) ← takeFirst (4 * ts.length + 4) { tokens := ts }
  if (dropEnds r).peek = .textEnd then .ok node? else (dropEnds r).fail

end Node

end DocSchema.Yaml
