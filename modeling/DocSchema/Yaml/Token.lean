import DocSchema.Yaml.BlockText
import DocSchema.Yaml.PlainText
import DocSchema.Yaml.Property
import DocSchema.Yaml.QuotedText

/-!
# Tokens

A text is cut into tokens. Collections in blocks are known by their indentation; a key is known only when
the colon behind it is met, so the token for the key is put in front of it then.
-/

namespace DocSchema.Yaml

/-- A part of a text. -/
inductive Token
  | directive (d : Directive)
  | documentStart
  | documentEnd
  | sequenceStart
  | mappingStart
  | blockEnd
  | flowSequenceStart
  | flowMappingStart
  | flowSequenceEnd
  | flowMappingEnd
  | item
  | comma
  | key
  | value
  | alias (name : String)
  | anchor (name : String)
  | tag (t : WrittenTag)
  | scalar (text : String) (plain : Bool)
  | textEnd
  /-- What follows cannot be cut into tokens. -/
  | broken (fault : Fault)
  deriving DecidableEq, Repr

/-- A place at which a key may have begun: the number of its first token, and where that token
stands. -/
structure KeyPlace where
  number : Nat
  required : Bool
  line : Nat
  column : Nat
  index : Nat
  deriving Repr

/-- How far a text has been cut. Tokens and indentations are kept with the newest first. -/
structure Cutting where
  cursor : Cursor
  tokens : List Token := []
  count : Nat := 0
  flowLevel : Nat := 0
  /-- The columns of the block collections that are open. -/
  columns : List Nat := []
  /-- Whether a key may begin here. -/
  allowsKey : Bool := true
  /-- Where a key may have begun, by the level of flow collections. -/
  keys : List (Nat × KeyPlace) := []
  deriving Repr

namespace Cutting

/-- Whether a flow collection is open. -/
def inFlow (s : Cutting) : Bool :=
  s.flowLevel != 0

/-- The least column of what belongs to the innermost block collection. -/
def innerColumn (s : Cutting) : Nat :=
  match s.columns with
  | [] => 0
  | column :: _ => column + 1

/-- The cutting with one more token. -/
def add (s : Cutting) (t : Token) : Cutting :=
  { s with tokens := t :: s.tokens, count := s.count + 1 }

/-- Puts a token at a place among those that are kept with the newest first. -/
def insertAt (t : Token) (fromEnd : Nat) (tokens : List Token) : List Token :=
  tokens.take fromEnd ++ t :: tokens.drop fromEnd

/-- The cutting with a token in front of the one with a number. -/
def insert (s : Cutting) (number : Nat) (t : Token) : Cutting :=
  { s with tokens := insertAt t (s.count - number) s.tokens, count := s.count + 1 }

/-- The place at which a key may have begun on the current level. -/
def keyPlace? (s : Cutting) : Option KeyPlace :=
  s.keys.lookup s.flowLevel

/-- The cutting without a place for a key on the current level. -/
def withoutKey (s : Cutting) : Cutting :=
  { s with keys := s.keys.filter fun (level, _) => level != s.flowLevel }

/-- Gives up the place for a key on the current level, unless a key must be there. -/
def dropKey (s : Cutting) : Except Fault Cutting :=
  match s.keyPlace? with
  | some place => if place.required then .error .malformed else .ok s.withoutKey
  | none => .ok s

/-- Notes that a key may begin here. -/
def noteKey (s : Cutting) : Except Fault Cutting :=
  if s.allowsKey then do
    let required := !s.inFlow && s.columns.head? == some s.cursor.column
    let s ← s.dropKey
    let place : KeyPlace :=
      { number := s.count, required, line := s.cursor.line, column := s.cursor.column
        index := s.cursor.index }
    .ok { s with keys := (s.flowLevel, place) :: s.keys }
  else .ok s

/-- Whether a place for a key is too far behind: on another line, or many characters back. -/
def isStale (s : Cutting) (place : KeyPlace) : Bool :=
  place.line != s.cursor.line || decide (1024 < s.cursor.index - place.index)

/-- Gives up the places for keys that are too far behind. -/
def dropStaleKeys (s : Cutting) : Except Fault Cutting :=
  if s.keys.any fun (_, place) => s.isStale place && place.required then .error .malformed
  else .ok { s with keys := s.keys.filter fun (_, place) => !s.isStale place }

/-- Closes the block collections that begin to the right of a column. -/
def closeBlocks (column : Nat) (s : Cutting) : Cutting :=
  if s.inFlow then s
  else
    let closed := s.columns.takeWhile fun opened => decide (column < opened)
    { s with
      tokens := List.replicate closed.length .blockEnd ++ s.tokens
      count := s.count + closed.length
      columns := s.columns.drop closed.length }

/-- Closes all block collections. -/
def closeAllBlocks (s : Cutting) : Cutting :=
  if s.inFlow then s
  else
    { s with
      tokens := List.replicate s.columns.length .blockEnd ++ s.tokens
      count := s.count + s.columns.length
      columns := [] }

/-- Whether a block collection would begin at a column. -/
def opensAt (s : Cutting) (column : Nat) : Bool :=
  match s.columns with
  | [] => true
  | innermost :: _ => innermost < column

/-- Opens a block collection at a column, if none is open there; its token goes in front of the one
with a number. -/
def openBlock (s : Cutting) (column number : Nat) (t : Token) : Cutting :=
  if !s.inFlow && s.opensAt column then
    { s.insert number t with columns := column :: s.columns }
  else s

/-- The cutting with a token of some characters. -/
def mark (s : Cutting) (characters : Nat) (t : Token) : Cutting :=
  { s.add t with cursor := s.cursor.skip characters }

/-- Goes to the next token, past spaces, comments and breaks. -/
def toToken (inFlow : Bool) : (fuel : Nat) → (allowsKey : Bool) → Cursor → Bool × Cursor
  | 0, allowsKey, c => (allowsKey, c)
  | fuel + 1, allowsKey, c =>
    let c := c.dropSpaces.dropComment
    if c.peek.any isBreak then toToken inFlow fuel (allowsKey || !inFlow) c.next
    else (allowsKey, c)

/-- Goes to the next token, and closes the block collections that end before it. -/
def advance (s : Cutting) : Except Fault Cutting := do
  let start := if s.cursor.index = 0 ∧ s.cursor.peek = some '\ufeff' then s.cursor.next else s.cursor
  let (allowsKey, cursor) := toToken s.inFlow (s.cursor.rest.length + 1) s.allowsKey start
  let s ← { s with allowsKey, cursor }.dropStaleKeys
  .ok (s.closeBlocks s.cursor.column)

/-- Cuts a mark at the start of a line that begins or ends a document. -/
def documentMark (s : Cutting) (t : Token) : Except Fault Cutting := do
  let s ← s.closeAllBlocks.dropKey
  .ok { s.mark 3 t with allowsKey := false }

/-- Cuts a directive. -/
def directiveLine (s : Cutting) : Except Fault Cutting := do
  let s ← s.closeAllBlocks.dropKey
  let (d, cursor) ← directive s.cursor
  .ok { s.add (.directive d) with cursor, allowsKey := false }

/-- Cuts the start of a flow collection. -/
def flowStart (s : Cutting) (t : Token) : Except Fault Cutting := do
  let s ← s.noteKey
  .ok { s.mark 1 t with flowLevel := s.flowLevel + 1, allowsKey := true }

/-- Cuts the end of a flow collection, which must be open. -/
def flowEnd (s : Cutting) (t : Token) : Except Fault Cutting := do
  let s ← s.dropKey
  if s.inFlow then .ok { s.mark 1 t with flowLevel := s.flowLevel - 1, allowsKey := false }
  else .error .malformed

/-- Cuts the comma of a flow collection. -/
def commaMark (s : Cutting) : Except Fault Cutting := do
  let s ← s.dropKey
  .ok { s.mark 1 .comma with allowsKey := true }

/-- Cuts the mark of an item of a sequence. -/
def itemMark (s : Cutting) : Except Fault Cutting := do
  if !s.inFlow && !s.allowsKey then .error .malformed
  else
    let s ← (s.openBlock s.cursor.column s.count .sequenceStart).dropKey
    .ok { s.mark 1 .item with allowsKey := true }

/-- Cuts the mark of a key. -/
def keyMark (s : Cutting) : Except Fault Cutting := do
  if !s.inFlow && !s.allowsKey then .error .malformed
  else
    let s ← (s.openBlock s.cursor.column s.count .mappingStart).dropKey
    .ok { s.mark 1 .key with allowsKey := !s.inFlow }

/-- Cuts the mark of a value. What stands before it on its line may turn out to be a key. -/
def valueMark (s : Cutting) : Except Fault Cutting := do
  match s.keyPlace? with
  | some place =>
    let s := s.withoutKey.insert place.number .key
    let s := s.openBlock place.column place.number .mappingStart
    .ok { s.mark 1 .value with allowsKey := false }
  | none =>
    if !s.inFlow && !s.allowsKey then .error .malformed
    else
      let s ← (s.openBlock s.cursor.column s.count .mappingStart).dropKey
      .ok { s.mark 1 .value with allowsKey := !s.inFlow }

/-- Cuts a part that may begin a key, by its reader. -/
def part {α : Type} (s : Cutting) (read : Cursor → Except Fault (α × Cursor)) (token : α → Token) :
    Except Fault Cutting := do
  let s ← s.noteKey
  let (a, cursor) ← read s.cursor
  .ok { s.add (token a) with cursor, allowsKey := false }

/-- Cuts a text in a block. -/
def blockScalar (s : Cutting) (folded : Bool) : Except Fault Cutting := do
  let s ← s.dropKey
  let (text, cursor) ← blockText folded s.innerColumn s.cursor
  .ok { s.add (.scalar text false) with cursor, allowsKey := true }

/-- Cuts a plain text. -/
def plainScalar (s : Cutting) : Except Fault Cutting := do
  let s ← s.noteKey
  let p := plainText s.inFlow s.innerColumn s.cursor
  .ok { s.add (.scalar p.text true) with cursor := p.cursor, allowsKey := p.newLine }

/-- The characters that begin no plain text, unless something else makes them. -/
def marks : List Char :=
  "-?:,[]\x7b\x7d#&*!|>'\"%@\x60".toList

/-- Whether a plain text begins with a character. -/
def beginsPlain (s : Cutting) (c : Char) : Bool :=
  let after := s.cursor.peekAt 1
  !(isBlank c || isBreak c || marks.contains c) ||
    (!isGap after && (c == '-' || (!s.inFlow && (c == '?' || c == ':'))))

/-- Cuts the next token, which begins with a character. -/
def cut (s : Cutting) (c : Char) : Except Fault Cutting :=
  let atStart := s.cursor.column == 0
  let parted := isGap (s.cursor.peekAt 1)
  if c = '%' ∧ atStart then s.directiveLine
  else if atStart && s.cursor.atDocumentMark then
    s.documentMark (if c = '-' then .documentStart else .documentEnd)
  else if c = '[' then s.flowStart .flowSequenceStart
  else if c = '{' then s.flowStart .flowMappingStart
  else if c = ']' then s.flowEnd .flowSequenceEnd
  else if c = '}' then s.flowEnd .flowMappingEnd
  else if c = ',' then s.commaMark
  else if c = '-' ∧ parted then s.itemMark
  else if c = '?' ∧ (s.inFlow || parted) then s.keyMark
  else if c = ':' ∧ (s.inFlow || parted) then s.valueMark
  else if c = '*' then s.part anchorName .alias
  else if c = '&' then s.part anchorName .anchor
  else if c = '!' then s.part writtenTag .tag
  else if c = '|' ∧ !s.inFlow then s.blockScalar false
  else if c = '>' ∧ !s.inFlow then s.blockScalar true
  else if c = '\'' then s.part (quotedText false) (.scalar · false)
  else if c = '"' then s.part (quotedText true) (.scalar · false)
  else if s.beginsPlain c then s.plainScalar
  else .error .malformed

/-- Cuts the end of the text. -/
def finish (s : Cutting) : Except Fault Cutting := do
  let s ← s.closeAllBlocks.dropKey
  .ok (s.add .textEnd)

/-- Cuts the rest of the text; where that is impossible, the last token says why. -/
def run : (fuel : Nat) → Cutting → Cutting
  | 0, s => s.add (.broken .malformed)
  | fuel + 1, s =>
    match s.advance with
    | .error f => s.add (.broken f)
    | .ok ahead =>
      match ahead.cursor.peek with
      | none =>
        match ahead.finish with
        | .error f => ahead.add (.broken f)
        | .ok s => s
      | some c =>
        match ahead.cut c with
        | .error f => ahead.add (.broken f)
        | .ok s => run fuel s

end Cutting

/-- The tokens of a text. -/
def tokens (text : List Char) : List Token :=
  (Cutting.run (text.length + 1) { cursor := { rest := text } }).tokens.reverse

end DocSchema.Yaml
