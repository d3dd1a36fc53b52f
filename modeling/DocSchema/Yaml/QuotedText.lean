import DocSchema.Number.Numeral
import DocSchema.Text.Half
import DocSchema.Yaml.Cursor
import DocSchema.Yaml.Fault

/-!
# Text between quotes

Between single quotes, a quote is written twice; between double quotes, a backslash begins an escape. A
break between words is a space, and each further break stands for itself.
-/

namespace DocSchema.Yaml

/-- The characters that one character after a backslash stands for. -/
def escapes : List (Char × Char) :=
  [('0', '\x00'), ('a', '\x07'), ('b', '\x08'), ('t', '\t'), ('\t', '\t'), ('n', '\n'),
    ('v', '\x0b'), ('f', '\x0c'), ('r', '\r'), ('e', '\x1b'), (' ', ' '), ('"', '"'),
    ('\\', '\\'), ('/', '/'), ('N', '\x85'), ('_', '\xa0'), ('L', '\u2028'), ('P', '\u2029')]

/-- The number of hexadecimal digits behind a character after a backslash. -/
def escapeDigits? : Char → Option Nat
  | 'x' => some 2
  | 'u' => some 4
  | 'U' => some 8
  | _ => none

/-- The character with a code point. -/
def pointChar (point : Nat) : Except Fault Char :=
  if point > 0x10ffff then .error (.badPoint point) else .ok (Text.charOf point)

/-- Reads the character with a code point of some hexadecimal digits. -/
def takePoint (digits : Nat) (c : Cursor) : Except Fault (Char × Cursor) :=
  match (c.rest.take digits).mapM Number.digitValue? with
  | none => .error .malformed
  | some values =>
    if values.length = digits ∧ values.all (· < 16) then
      (pointChar (Number.ofDigits 16 values)).map (·, c.skip digits)
    else .error .malformed

/-- The breaks of empty lines, up to the next line with a character other than a blank. -/
def takeEmptyLines : (fuel : Nat) → Cursor → Except Fault (List Char × Cursor)
  | 0, _ => .error .malformed
  | fuel + 1, c =>
    if c.atDocumentMark then .error .malformed
    else
      let c := c.drop isBlank
      match c.peek with
      | some ch =>
        if isBreak ch then
          (takeEmptyLines fuel c.next).map fun (more, c) => (breakText ch :: more, c)
        else .ok ([], c)
      | none => .ok ([], c)

/-- What a break and the empty lines behind it stand for. -/
def foldBreaks (first : Char) (more : List Char) : List Char :=
  if first ≠ '\n' then first :: more else if more.isEmpty then [' '] else more

/-- Reads what follows a backslash. -/
def takeEscape (c : Cursor) : Except Fault (List Char × Cursor) :=
  match c.peek with
  | none => .error .malformed
  | some ch =>
    match escapes.lookup ch, escapeDigits? ch with
    | some e, _ => .ok ([e], c.next)
    | none, some digits => (takePoint digits c.next).map fun (e, c) => ([e], c)
    | none, none =>
      if isBreak ch then takeEmptyLines (c.rest.length + 1) c.next else .error .malformed

/-- Reads blanks and breaks inside of a quoted text. -/
def takeQuotedBlanks (c : Cursor) : Except Fault (List Char × Cursor) :=
  let (blanks, c) := c.take isBlank
  match c.peek with
  | none => .error .malformed
  | some ch =>
    if isBreak ch then
      (takeEmptyLines (c.rest.length + 1) c.next).map fun (more, c) =>
        (foldBreaks (breakText ch) more, c)
    else .ok (blanks, c)

/-- Reads a quoted text behind its first quote; `before` holds what was read, last character first. -/
def takeQuoted (double : Bool) :
    (fuel : Nat) → (before : List Char) → Cursor → Except Fault (String × Cursor)
  | 0, _, _ => .error .malformed
  | fuel + 1, before, c =>
    match c.peek with
    | none => .error .malformed
    | some ch =>
      if ch = '\'' ∧ !double then
        if c.peekAt 1 = some '\'' then takeQuoted double fuel ('\'' :: before) (c.skip 2)
        else .ok (String.ofList before.reverse, c.next)
      else if ch = '"' ∧ double then .ok (String.ofList before.reverse, c.next)
      else if ch = '\\' ∧ double then do
        let (more, c) ← takeEscape c.next
        takeQuoted double fuel (more.reverse ++ before) c
      else if isBlank ch || isBreak ch then do
        let (more, c) ← takeQuotedBlanks c
        takeQuoted double fuel (more.reverse ++ before) c
      else takeQuoted double fuel (ch :: before) c.next

/-- Reads a text between quotes. -/
def quotedText (double : Bool) (c : Cursor) : Except Fault (String × Cursor) :=
  takeQuoted double (c.rest.length + 1) [] c.next

end DocSchema.Yaml
