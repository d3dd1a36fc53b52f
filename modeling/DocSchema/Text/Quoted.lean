import DocSchema.Number.Integer
import DocSchema.Text.Half
import DocSchema.Text.Printable

/-!
# Quoted text

Text and bytes as messages show them: between single quotes, or between double quotes when the text
holds a single quote and no double one. The quote in use and the backslash are escaped, and so is
every character that does not print.

- `escape_plain`: a printable ASCII character other than the quote and the backslash stands for
  itself.
-/

namespace DocSchema.Text

open Number (padded)

/-- The quote that surrounds a text with these characters. -/
def quoteFor (hasSingle hasDouble : Bool) : Char :=
  if hasSingle && !hasDouble then '"' else '\''

/-- The escape of a character that may be a letter of an escape, or a code below 256. -/
def escapeCode (point : Nat) : String :=
  if point = 9 then "\\t"
  else if point = 10 then "\\n"
  else if point = 13 then "\\r"
  else if point < 0x100 then "\\x" ++ padded 16 2 point
  else if point < 0x10000 then "\\u" ++ padded 16 4 point
  else "\\U" ++ padded 16 8 point

/-- One character of a quoted text. -/
def escape (quote c : Char) : String :=
  if c = quote ∨ c = '\\' then String.ofList ['\\', c]
  else if printable.contains c then String.singleton c
  else escapeCode (pointOf c)

/-- Text between quotes. -/
def quoted (s : String) : String :=
  let quote := quoteFor (s.contains '\'') (s.contains '"')
  String.singleton quote ++ String.join (s.toList.map (escape quote)) ++ String.singleton quote

/-- One byte of quoted bytes. -/
def escapeByte (quote : Char) (b : UInt8) : String :=
  let point := b.toNat
  if point = quote.toNat ∨ point = 92 then String.ofList ['\\', Char.ofNat point]
  else if 32 ≤ point ∧ point < 127 then String.singleton (Char.ofNat point)
  else escapeCode point

/-- Bytes between quotes, after the letter that marks them. -/
def quotedBytes (bytes : List UInt8) : String :=
  let quote := quoteFor (bytes.contains 39) (bytes.contains 34)
  "b" ++ String.singleton quote ++ String.join (bytes.map (escapeByte quote)) ++
    String.singleton quote

theorem escape_plain {quote c : Char} (hquote : c ≠ quote) (hslash : c ≠ '\\')
    (h : printable.contains c = true) : escape quote c = String.singleton c := by
  simp [escape, hquote, hslash, h]

end DocSchema.Text
