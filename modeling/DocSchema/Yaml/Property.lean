import DocSchema.Number.Numeral
import DocSchema.Text.Utf8
import DocSchema.Yaml.Cursor
import DocSchema.Yaml.Fault

/-!
# Anchors, tags and directives

The names that a node may carry, and the lines before a document that say how tags are to be read.
-/

namespace DocSchema.Yaml

/-- A line before a document. -/
inductive Directive
  | version (major : Nat)
  | tagStart (handle start : String)
  | other
  deriving DecidableEq, Repr

/-- Whether a character may stand in a name. -/
def isNameChar (c : Char) : Bool :=
  c.isAlphanum || c == '-' || c == '_'

/-- Reads a name, which has at least one character. -/
def takeName (c : Cursor) : Except Fault (String × Cursor) :=
  match c.take isNameChar with
  | ([], _) => .error .malformed
  | (name, c) => .ok (String.ofList name, c)

/-- Reads the name of an anchor, or of an alias, behind its mark. -/
def anchorName (c : Cursor) : Except Fault (String × Cursor) := do
  let (name, c) ← takeName c.next
  let ends := isGap c.peek || c.peek.any ("?:,]\x7d%@\x60".toList.contains ·)
  if ends then .ok (name, c) else .error .malformed

/-- Whether a character may stand in the text of a tag. -/
def isTagChar (c : Char) : Bool :=
  isNameChar c || ";/?:@&=+$,.!~*'()[]%".toList.contains c

/-- Reads a byte written as two hexadecimal digits. -/
def takeByte (c : Cursor) : Except Fault (UInt8 × Cursor) :=
  match (c.rest.take 2).mapM Number.digitValue? with
  | some [a, b] =>
    if a < 16 ∧ b < 16 then .ok (UInt8.ofNat (a * 16 + b), c.skip 2) else .error .malformed
  | _ => .error .malformed

/-- Reads bytes that are each written behind a percent sign. -/
def takeBytes : (fuel : Nat) → Cursor → Except Fault (List UInt8 × Cursor)
  | 0, c => .ok ([], c)
  | fuel + 1, c =>
    if c.peek = some '%' then do
      let (b, c) ← takeByte c.next
      let (more, c) ← takeBytes fuel c
      .ok (b :: more, c)
    else .ok ([], c)

/-- Reads the characters of a tag; those written as bytes are decoded. -/
def takeTagChars : (fuel : Nat) → Cursor → Except Fault (List Char × Cursor)
  | 0, c => .ok ([], c)
  | fuel + 1, c =>
    match c.peek with
    | some ch =>
      if ch = '%' then do
        let (bytes, c) ← takeBytes fuel c
        match Text.decode bytes with
        | .error _ => .error .malformed
        | .ok decoded =>
          let (more, c) ← takeTagChars fuel c
          .ok (decoded ++ more, c)
      else if isTagChar ch then do
        let (more, c) ← takeTagChars fuel c.next
        .ok (ch :: more, c)
      else .ok ([], c)
    | none => .ok ([], c)

/-- Reads the text of a tag, which has at least one character. -/
def tagText (c : Cursor) : Except Fault (String × Cursor) :=
  if c.peek.any isTagChar then
    (takeTagChars (c.rest.length + 1) c).map fun (cs, c) => (String.ofList cs, c)
  else .error .malformed

/-- Reads the handle of a tag: an exclamation mark, or a name between two of them. -/
def tagHandle (c : Cursor) : Except Fault (String × Cursor) :=
  if c.peek ≠ some '!' then .error .malformed
  else if c.next.peek = some ' ' then .ok ("!", c.next)
  else
    let (name, after) := c.next.take isNameChar
    if after.peek = some '!' then .ok ("!" ++ String.ofList name ++ "!", after.next)
    else .error .malformed

/-- A tag as it is written: with a handle, or in full. -/
structure WrittenTag where
  handle? : Option String
  text : String
  deriving DecidableEq, Repr

/-- Whether a second exclamation mark follows before the next space or break. -/
def hasHandle (cs : List Char) : Bool :=
  match cs.dropWhile fun c => !(c == ' ' || isBreak c || c == '!') with
  | '!' :: _ => true
  | _ => false

/-- Reads a tag up to what must separate it from the next token. -/
def takeTag (c : Cursor) : Except Fault (WrittenTag × Cursor) :=
  match c.peekAt 1 with
  | some '<' => do
    let (text, c) ← tagText (c.skip 2)
    if c.peek = some '>' then .ok ({ handle? := none, text }, c.next) else .error .malformed
  | after =>
    if isGap after then .ok ({ handle? := none, text := "!" }, c.next)
    else if hasHandle c.rest.tail then do
      let (handle, c) ← tagHandle c
      let (text, c) ← tagText c
      .ok ({ handle? := some handle, text }, c)
    else do
      let (text, c) ← tagText c.next
      .ok ({ handle? := some "!", text }, c)

/-- Whether a space, a break or the end of the text comes next. -/
def atSpaceOrEnd (c : Cursor) : Bool :=
  c.peek == some ' ' || endsLine c.peek

/-- Reads a tag. -/
def writtenTag (c : Cursor) : Except Fault (WrittenTag × Cursor) := do
  let (tag, c) ← takeTag c
  if atSpaceOrEnd c then .ok (tag, c) else .error .malformed

/-- Reads a number of a version. -/
def versionNumber (c : Cursor) : Except Fault (Nat × Cursor) :=
  match c.take Char.isDigit with
  | ([], _) => .error .malformed
  | (digits, c) => .ok (Number.ofDigitChars digits, c)

/-- Reads a version. -/
def versionDirective (c : Cursor) : Except Fault (Directive × Cursor) := do
  let (major, c) ← versionNumber c.dropSpaces
  if c.peek ≠ some '.' then .error .malformed
  else
    let (_, c) ← versionNumber c.next
    if atSpaceOrEnd c then .ok (.version major, c) else .error .malformed

/-- Reads what a handle of tags stands for. -/
def tagDirective (c : Cursor) : Except Fault (Directive × Cursor) := do
  let (handle, c) ← tagHandle c.dropSpaces
  if c.peek ≠ some ' ' then .error .malformed
  else
    let (start, c) ← tagText c.dropSpaces
    if atSpaceOrEnd c then .ok (.tagStart handle start, c) else .error .malformed

/-- Reads the line of a directive; one of an unknown name has no meaning. -/
def directive (c : Cursor) : Except Fault (Directive × Cursor) := do
  let (name, c) ← takeName c.next
  if !atSpaceOrEnd c then .error .malformed
  else
    let (d, c) ←
      if name = "YAML" then versionDirective c
      else if name = "TAG" then tagDirective c
      else .ok (.other, c.drop (!isBreak ·))
    let c := c.dropSpaces.dropComment
    if endsLine c.peek then .ok (d, c.next) else .error .malformed

end DocSchema.Yaml
