import DocSchema.Number.Numeral

/-!
# Decimal numbers

Decimal numbers of any precision, with their trailing zeros, signed zeros, infinities and NaNs, of
which a NaN may be a signal and carry a number.

- `text`: positional unless the number would need zeros beyond its digits, with `E` otherwise.
- `toBinary64?_nan`: a signal and a NaN that carries a number have no binary counterpart.
-/

namespace DocSchema

/-- A decimal number. -/
inductive Decimal
  | finite (negative : Bool) (coefficient : Nat) (exponent : Int)
  | infinity (negative : Bool)
  | nan (negative : Bool) (signal : Bool) (payload : Nat)
  deriving DecidableEq, Repr

namespace Decimal

open Number

/-- The text of a decimal number. -/
def text : Decimal → String
  | .finite negative coefficient exponent =>
    let ds := digits coefficient
    let left : Int := exponent + ds.length
    let point : Int := if exponent ≤ 0 ∧ left > -6 then left else 1
    let body :=
      if point ≤ 0 then '0' :: '.' :: (List.replicate (-point).toNat '0' ++ ds)
      else if ds.length ≤ point.toNat then ds ++ List.replicate (point.toNat - ds.length) '0'
      else ds.take point.toNat ++ '.' :: ds.drop point.toNat
    let power : Int := left - point
    let tail :=
      if power = 0 then []
      else 'E' :: (if power < 0 then '-' else '+') :: digits power.natAbs
    String.ofList ((if negative then ['-'] else []) ++ body ++ tail)
  | .infinity negative => if negative then "-Infinity" else "Infinity"
  | .nan negative signal payload =>
    (if negative then "-" else "") ++ (if signal then "sNaN" else "NaN") ++
      (if payload = 0 then "" else natText payload)

/-- The text of a decimal number of 128 bits, which tells no NaN from another. -/
def wideText : Decimal → String
  | .nan _ _ _ => "NaN"
  | d => d.text

/-- The binary number nearest to a decimal one. -/
def toBinary64? : Decimal → Option Binary64
  | .finite negative coefficient exponent => some (ofDecimal negative coefficient exponent)
  | .infinity negative => some (.infinity negative)
  | .nan _ signal payload => if signal || payload != 0 then none else some .nan

theorem toBinary64?_nan {negative signal : Bool} {payload : Nat} :
    (nan negative signal payload).toBinary64? = none ↔ signal = true ∨ payload ≠ 0 := by
  cases signal <;> simp [toBinary64?]

/-- The whole part of a finite decimal number. -/
def truncate? : Decimal → Option Int
  | .finite negative coefficient exponent =>
    let magnitude : Int :=
      if 0 ≤ exponent then (coefficient * tenTo exponent.toNat : Nat)
      else (coefficient / tenTo (-exponent).toNat : Nat)
    some (if negative then -magnitude else magnitude)
  | _ => none

/-- The value of a finite decimal number. -/
def toRat? : Decimal → Option Rat
  | .finite negative coefficient exponent =>
    let magnitude : Rat := (coefficient : Rat) * (10 : Rat) ^ exponent
    some (if negative then -magnitude else magnitude)
  | _ => none

/-- Whether the number is a zero of either sign. -/
def isZero : Decimal → Bool
  | .finite _ coefficient _ => coefficient == 0
  | _ => false

/-- Reads a decimal number that has neither blanks around it nor underscores in it. -/
def readPlain (cs : List Char) : Option Decimal := do
  let (negative, body) := signOf (cs.map fun c => if c.toNat < 128 then c else plainChar c)
  let lower := body.map Char.toLower
  let word := String.ofList lower
  if word = "inf" || word = "infinity" then some (.infinity negative)
  else
    match lower with
    | 's' :: 'n' :: 'a' :: 'n' :: rest =>
      if rest.all Char.isDigit then some (.nan negative true (ofDigitChars rest)) else none
    | 'n' :: 'a' :: 'n' :: rest =>
      if rest.all Char.isDigit then some (.nan negative false (ofDigitChars rest)) else none
    | _ =>
      let (coefficient, exponent) ← readScientific body
      some (.finite negative coefficient exponent)

/-- Reads a decimal number. -/
def read (text : List Char) : Option Decimal :=
  readPlain ((Text.stripBlanks text).filter (· ≠ '_'))

end Decimal

end DocSchema
