import DocSchema.Number.Decimal

/-!
# Decimal numbers of 128 bits

They have at most thirty-four digits, and a limited power of ten. A number is brought into this form
without loss, or not at all: zeros are added behind its digits where its power of ten is too great,
and taken away where its digits are too many or its power of ten is too small.

- `toWide_small`: a number that fits stays as it is.
-/

namespace DocSchema.Decimal

open Number

/-- Why a decimal number does not fit into 128 bits. -/
inductive WideFault
  | malformed
  | tooLarge
  | inexact
  | payload
  deriving DecidableEq, Repr

/-- The message about a fault. -/
def WideFault.message : WideFault → String
  | .malformed => "[<class 'decimal.ConversionSyntax'>]"
  | .tooLarge => "[<class 'decimal.Overflow'>, <class 'decimal.Inexact'>]"
  | .inexact => "[<class 'decimal.Inexact'>]"
  | .payload => "NaN with debug payload is not supported"

/-- The greatest number of digits. -/
def wideDigits : Nat := 34

/-- The least and the greatest power of ten behind the digits. -/
def widePowers : Int × Int := (-6176, 6111)

/-- Takes zeros away from the end of digits, if there are enough of them. -/
def dropEndZeros? (count : Nat) (ds : List Char) : Option (List Char) :=
  let kept := ds.take (ds.length - count)
  if count < ds.length ∧ (ds.drop (ds.length - count)).all (· == '0') then some kept else none

/-- The form in 128 bits of a finite number other than zero. -/
def fitDigits (negative : Bool) (coefficient : Nat) (exponent : Int) : Except WideFault Decimal :=
  let ds := digits coefficient
  let least := max widePowers.1 (exponent + ds.length - wideDigits)
  if widePowers.2 < least then .error .tooLarge
  else if exponent < least then
    match dropEndZeros? (least - exponent).toNat ds with
    | some kept => .ok (.finite negative (ofDigitChars kept) least)
    | none => .error .inexact
  else if widePowers.2 < exponent then
    .ok (.finite negative (coefficient * tenTo (exponent - widePowers.2).toNat) widePowers.2)
  else .ok (.finite negative coefficient exponent)

/-- The form of a number in 128 bits. -/
def toWide : Decimal → Except WideFault Decimal
  | .finite negative 0 exponent =>
    .ok (.finite negative 0 (max widePowers.1 (min exponent widePowers.2)))
  | .finite negative coefficient exponent => fitDigits negative coefficient exponent
  | .infinity negative => .ok (.infinity negative)
  | .nan negative signal payload =>
    if payload = 0 then .ok (.nan negative signal 0)
    else if wideDigits ≤ (digits payload).length then .error .malformed
    else .error .payload

/-- Reads a decimal number of 128 bits. -/
def readWide (cs : List Char) : Except WideFault Decimal :=
  match readPlain cs with
  | some d => d.toWide
  | none => .error .malformed

theorem toWide_small {negative : Bool} {coefficient : Nat} {exponent : Int}
    (hdigits : (digits (coefficient + 1)).length ≤ wideDigits)
    (hlow : widePowers.1 ≤ exponent) (hhigh : exponent ≤ widePowers.2) :
    toWide (.finite negative (coefficient + 1) exponent) =
      .ok (.finite negative (coefficient + 1) exponent) := by
  have hle : max widePowers.1 (exponent + (digits (coefficient + 1)).length - wideDigits) ≤
      exponent := by
    simp only [wideDigits, widePowers] at *
    omega
  have h1 : ¬widePowers.2 <
      max widePowers.1 (exponent + (digits (coefficient + 1)).length - wideDigits) :=
    Int.not_lt.2 (Int.le_trans hle hhigh)
  simp only [toWide, fitDigits, h1, Int.not_lt.2 hle, Int.not_lt.2 hhigh, if_false]

end DocSchema.Decimal
