/-!
# Places in a text

A cursor stands before the rest of a text and knows its line, its column, and how many characters lie
behind it. Lines end at line feeds and at the other breaks; a byte-order mark takes up no column.

- `rest_next`: a step leaves the text behind the first character.
- `take_rest`: what is taken and what is left make up the text.
-/

namespace DocSchema.Yaml

/-- Whether a character ends a line. -/
def isBreak (c : Char) : Bool :=
  c == '\n' || c == '\x85' || c == '\u2028' || c == '\u2029'

/-- Whether a character is a space or a tab. -/
def isBlank (c : Char) : Bool :=
  c == ' ' || c == '\t'

/-- Whether a character, or the end of the text, separates tokens. -/
def isGap : Option Char → Bool
  | none => true
  | some c => isBlank c || isBreak c

/-- Whether a character, or the end of the text, ends a line. -/
def endsLine : Option Char → Bool
  | none => true
  | some c => isBreak c

/-- What a break stands for in a text. -/
def breakText (c : Char) : Char :=
  if c = '\n' ∨ c = '\x85' then '\n' else c

/-- A place in a text. -/
structure Cursor where
  rest : List Char
  line : Nat := 0
  column : Nat := 0
  index : Nat := 0
  deriving Repr

namespace Cursor

/-- The next character. -/
def peek (c : Cursor) : Option Char :=
  c.rest.head?

/-- The character some places further on. -/
def peekAt (c : Cursor) (n : Nat) : Option Char :=
  c.rest[n]?

/-- The place behind the next character. -/
def next (c : Cursor) : Cursor :=
  match c.rest with
  | [] => c
  | ch :: rest =>
    if isBreak ch then { rest, line := c.line + 1, column := 0, index := c.index + 1 }
    else if ch = '\ufeff' then { c with rest, index := c.index + 1 }
    else { c with rest, column := c.column + 1, index := c.index + 1 }

/-- The place behind some characters. -/
def skip : Nat → Cursor → Cursor
  | 0, c => c
  | n + 1, c => skip n c.next

/-- The characters in front that are of a kind, and the place behind them. -/
def take (p : Char → Bool) (c : Cursor) : List Char × Cursor :=
  let taken := c.rest.takeWhile p
  (taken, c.skip taken.length)

/-- The place behind the characters in front that are of a kind. -/
def drop (p : Char → Bool) (c : Cursor) : Cursor :=
  (c.take p).2

/-- The place behind the spaces in front. -/
def dropSpaces (c : Cursor) : Cursor :=
  c.drop (· == ' ')

/-- The end of the line, if nothing or a comment stands before it. -/
def dropComment (c : Cursor) : Cursor :=
  if c.peek = some '#' then c.drop (!isBreak ·) else c

/-- Whether a document begins or ends here: three marks that stand by themselves. -/
def atDocumentMark (c : Cursor) : Bool :=
  match c.rest with
  | '-' :: '-' :: '-' :: rest | '.' :: '.' :: '.' :: rest => isGap rest.head?
  | _ => false

theorem rest_next {c : Cursor} {ch : Char} {rest : List Char} (h : c.rest = ch :: rest) :
    c.next.rest = rest := by
  rw [next, h]
  simp only
  split
  · rfl
  · split <;> rfl

theorem rest_skip (n : Nat) (c : Cursor) : (c.skip n).rest = c.rest.drop n := by
  induction n generalizing c with
  | zero => rfl
  | succ n ih =>
    rw [skip, ih]
    cases h : c.rest with
    | nil => simp [next, h]
    | cons ch rest => simp [rest_next h]

theorem take_rest (p : Char → Bool) (c : Cursor) : (c.take p).1 ++ (c.take p).2.rest = c.rest := by
  simp only [take, rest_skip]
  generalize c.rest = cs
  induction cs with
  | nil => rfl
  | cons ch cs ih =>
    by_cases h : p ch
    · simp [List.takeWhile, h, ih]
    · simp [List.takeWhile, h]

end Cursor

end DocSchema.Yaml
