import DocSchema.Number.Numeral

/-!
# Bytes as hexadecimal digits
-/

namespace DocSchema.Text

/-- The text of bytes, two hexadecimal digits each. -/
def hexText (data : List UInt8) : String :=
  String.join (data.map fun b => Number.padded 16 2 b.toNat)

/-- Reads bytes of two hexadecimal digits each. -/
def readHex : List Char → Option (List UInt8)
  | [] => some []
  | [_] => none
  | a :: b :: rest => do
    let high ← Number.digitValue? a
    let low ← Number.digitValue? b
    if high < 16 ∧ low < 16 then
      let bytes ← readHex rest
      some (UInt8.ofNat (16 * high + low) :: bytes)
    else none

end DocSchema.Text
