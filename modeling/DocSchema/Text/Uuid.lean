import DocSchema.Number.Numeral
import DocSchema.Text.Hex
import DocSchema.Text.Search

/-!
# Universally unique identifiers

Sixteen bytes, which are written as groups of hexadecimal digits with hyphens between them. When they
are read, hyphens count for nothing, nor do braces around the digits or the words in front of a name.

- `hyphen_not_mem`: no hyphen is among the digits.
-/

namespace DocSchema.Text.Uuid

/-- The digits of a written identifier. -/
def digitsOf (s : String) : List Char :=
  let text := replace "uuid:" "" (replace "urn:" "" s)
  let brace (c : Char) : Bool := c == '{' || c == '}'
  let inner := ((text.toList.dropWhile brace).reverse.dropWhile brace).reverse
  inner.filter (· ≠ '-')

/-- Reads an identifier. -/
def read (s : String) : Option (List UInt8) :=
  if (digitsOf s).length = 32 then do
    let n ← (Number.readIntIn 16 (digitsOf s)).toOption
    readHex (Number.padded 16 32 n.toNat).toList
  else none

/-- The text of an identifier. -/
def text (bytes : List UInt8) : String :=
  let group (first count : Nat) : String := hexText ((bytes.drop first).take count)
  "-".intercalate [group 0 4, group 4 2, group 6 2, group 8 2, group 10 6]

/-- The number that an identifier shows. -/
def number (s : String) : Nat :=
  Number.ofDigits 16 ((digitsOf s).filterMap Number.digitValue?)

theorem hyphen_not_mem (s : String) : '-' ∉ digitsOf s := by
  simp [digitsOf]

end DocSchema.Text.Uuid
