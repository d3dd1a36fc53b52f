import DocSchema.Yaml.Cursor
import DocSchema.Yaml.Fault

/-!
# Text in blocks

A literal block keeps its breaks; in a folded block a break between lines that begin without a blank is
a space. A block ends with one break, with none, or with all that are there, as its header says.
-/

namespace DocSchema.Yaml

/-- Which breaks a block keeps at its end. -/
inductive Chomping
  | clip
  | strip
  | keep
  deriving DecidableEq, Repr

/-- The header of a block: its chomping, and its indentation if that is given. -/
structure BlockHeader where
  chomping : Chomping := .clip
  indent? : Option Nat := none
  deriving DecidableEq, Repr

/-- The chomping that a character stands for. -/
def chomping? : Option Char → Option Chomping
  | some '+' => some .keep
  | some '-' => some .strip
  | _ => none

/-- The indentation that a digit stands for. -/
def indentDigit? : Option Char → Option Nat
  | some c => if c.isDigit then some (c.toNat - 48) else none
  | none => none

/-- Reads the chomping and the indentation of a header, in either order. -/
def takeHeader (c : Cursor) : BlockHeader × Cursor :=
  match chomping? c.peek with
  | some chomping =>
    match indentDigit? c.next.peek with
    | some n => ({ chomping, indent? := some n }, c.skip 2)
    | none => ({ chomping }, c.next)
  | none =>
    match indentDigit? c.peek with
    | some n =>
      match chomping? c.next.peek with
      | some chomping => ({ chomping, indent? := some n }, c.skip 2)
      | none => ({ indent? := some n }, c.next)
    | none => ({}, c)

/-- Reads the header of a block and the rest of its line. -/
def blockHeader (c : Cursor) : Except Fault (BlockHeader × Cursor) :=
  let (header, c) := takeHeader c
  if header.indent? = some 0 then .error .malformed
  else if !(c.peek == some ' ' || endsLine c.peek) then .error .malformed
  else
    let c := c.dropSpaces.dropComment
    if endsLine c.peek then .ok (header, c.next) else .error .malformed

/-- The place behind spaces up to a column. -/
def dropIndent (indent : Nat) (c : Cursor) : Cursor :=
  c.skip (min (indent - c.column) (c.rest.takeWhile (· == ' ')).length)

/-- The breaks of empty lines, up to the next line with text. -/
def takeBlockBreaks (indent : Nat) : (fuel : Nat) → Cursor → List Char × Cursor
  | 0, c => ([], c)
  | fuel + 1, c =>
    let c := dropIndent indent c
    match c.peek with
    | some ch =>
      if isBreak ch then
        let (more, c) := takeBlockBreaks indent fuel c.next
        (breakText ch :: more, c)
      else ([], c)
    | none => ([], c)

/-- The breaks before the first line with text, and the greatest column up to there. -/
def takeFirstBreaks : (fuel : Nat) → (greatest : Nat) → Cursor → List Char × Nat × Cursor
  | 0, greatest, c => ([], greatest, c)
  | fuel + 1, greatest, c =>
    match c.peek with
    | some ch =>
      if ch = ' ' then takeFirstBreaks fuel (max greatest c.next.column) c.next
      else if isBreak ch then
        let (more, greatest, c) := takeFirstBreaks fuel greatest c.next
        (breakText ch :: more, greatest, c)
      else ([], greatest, c)
    | none => ([], greatest, c)

/-- The lines of a block: its text, last character first, the break behind its last line, and the
breaks of the empty lines behind that. -/
structure BlockLines where
  before : List Char
  lastBreak : List Char
  breaks : List Char
  cursor : Cursor

/-- Whether a place is at the start of a line of a block. -/
def atBlockLine (indent : Nat) (c : Cursor) : Bool :=
  c.column == indent && c.peek.isSome

/-- Whether a place is before a blank. -/
def beforeBlank (c : Cursor) : Bool :=
  c.peek.any isBlank

/-- Reads the lines of a block. -/
def takeBlockLines (folded : Bool) (indent : Nat) :
    (fuel : Nat) → (before breaks : List Char) → Cursor → BlockLines
  | 0, before, breaks, c => { before, lastBreak := [], breaks, cursor := c }
  | fuel + 1, before, breaks, c =>
    if !atBlockLine indent c then { before, lastBreak := [], breaks, cursor := c }
    else
      let (line, after) := c.take (!isBreak ·)
      let before := line.reverse ++ (breaks.reverse ++ before)
      let lastBreak := (after.peek.map breakText).toList
      let (more, next) := takeBlockBreaks indent (after.rest.length + 1) after.next
      if atBlockLine indent next then
        let joined :=
          if folded && lastBreak == ['\n'] && !beforeBlank c && !beforeBlank next then
            if more.isEmpty then [' '] else []
          else lastBreak
        takeBlockLines folded indent fuel (joined ++ before) more next
      else { before, lastBreak, breaks := more, cursor := next }

/-- The breaks that a block keeps at its end. -/
def keptBreaks (chomping : Chomping) (lines : BlockLines) : List Char :=
  match chomping with
  | .strip => []
  | .clip => lines.lastBreak
  | .keep => lines.lastBreak ++ lines.breaks

/-- Reads a block inside of a collection of some indentation. -/
def blockText (folded : Bool) (outer : Nat) (c : Cursor) : Except Fault (String × Cursor) := do
  let (header, c) ← blockHeader c.next
  let least := max outer 1
  let (breaks, indent, c) := match header.indent? with
    | some n =>
      let indent := least + n - 1
      let (breaks, c) := takeBlockBreaks indent (c.rest.length + 1) c
      (breaks, indent, c)
    | none =>
      let (breaks, greatest, c) := takeFirstBreaks (c.rest.length + 1) 0 c
      (breaks, max least greatest, c)
  let lines := takeBlockLines folded indent (c.rest.length + 1) [] breaks c
  .ok (String.ofList (lines.before.reverse ++ keptBreaks header.chomping lines), lines.cursor)

end DocSchema.Yaml
