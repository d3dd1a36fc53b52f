import DocSchema.Yaml.Cursor

/-!
# Plain text

Text without quotes ends at a colon or number sign that stands by itself, and inside of a flow
collection at the marks of the collection. It may go on over several lines.
-/

namespace DocSchema.Yaml

/-- Whether a colon before some character ends a plain text. -/
def colonEnds (inFlow : Bool) (after : Option Char) : Bool :=
  isGap after || inFlow && match after with
    | some c => c == ',' || c == '[' || c == ']' || c == '{' || c == '}'
    | none => false

/-- Whether a character ends a plain text inside of a flow collection. -/
def isFlowMark (c : Char) : Bool :=
  c == ',' || c == '?' || c == '[' || c == ']' || c == '{' || c == '}'

/-- The characters of a plain text up to the next blank or break. -/
def plainRun (inFlow : Bool) : List Char → List Char
  | [] => []
  | c :: rest =>
    if isGap (some c) || (c == ':' && colonEnds inFlow rest.head?) || (inFlow && isFlowMark c) then
      []
    else c :: plainRun inFlow rest

/-- The blanks behind a run of characters: what they stand for, and whether a line has ended. -/
structure PlainBlanks where
  text : List Char
  newLine : Bool
  cursor : Cursor

/-- The breaks of empty lines; none when a document ends. -/
def takePlainBreaks : (fuel : Nat) → Cursor → Option (List Char) × Cursor
  | 0, c => (none, c)
  | fuel + 1, c =>
    match c.peek with
    | some ch =>
      if ch = ' ' then takePlainBreaks fuel c.next
      else if isBreak ch then
        if c.next.atDocumentMark then (none, c.next)
        else
          let (more, c) := takePlainBreaks fuel c.next
          (more.map (breakText ch :: ·), c)
      else (some [], c)
    | none => (some [], c)

/-- Reads the blanks behind a run of characters. -/
def takePlainBlanks (c : Cursor) : PlainBlanks :=
  let (blanks, c) := c.take (· == ' ')
  match c.peek with
  | some ch =>
    if isBreak ch then
      let first := breakText ch
      if c.next.atDocumentMark then { text := [], newLine := true, cursor := c.next }
      else
        match takePlainBreaks (c.rest.length + 1) c.next with
        | (none, c) => { text := [], newLine := true, cursor := c }
        | (some more, c) =>
          let text :=
            if first ≠ '\n' then first :: more else if more.isEmpty then [' '] else more
          { text, newLine := true, cursor := c }
    else { text := blanks, newLine := false, cursor := c }
  | none => { text := blanks, newLine := false, cursor := c }

/-- A plain text, whether a line ended behind it, and the place behind it. -/
structure PlainText where
  text : String
  newLine : Bool
  cursor : Cursor

/-- Reads a plain text; `before` holds what was read, last character first, and `blanks` what stands
between it and the next run. -/
def takePlain (inFlow : Bool) (indent : Nat) :
    (fuel : Nat) → (newLine : Bool) → (before blanks : List Char) → Cursor → PlainText
  | 0, newLine, before, _, c => { text := String.ofList before.reverse, newLine, cursor := c }
  | fuel + 1, newLine, before, blanks, c =>
    let done : PlainText := { text := String.ofList before.reverse, newLine, cursor := c }
    if c.peek = some '#' then done
    else
      match plainRun inFlow c.rest with
      | [] => done
      | run =>
        let before := run.reverse ++ (blanks.reverse ++ before)
        let b := takePlainBlanks (c.skip run.length)
        if b.text.isEmpty || b.cursor.peek == some '#' ||
            (!inFlow && b.cursor.column < indent) then
          { text := String.ofList before.reverse, newLine := b.newLine, cursor := b.cursor }
        else takePlain inFlow indent fuel b.newLine before b.text b.cursor

/-- Reads a plain text, whose lines have at least some indentation outside of flow collections. -/
def plainText (inFlow : Bool) (indent : Nat) (c : Cursor) : PlainText :=
  takePlain inFlow indent (c.rest.length + 1) false [] [] c

end DocSchema.Yaml
