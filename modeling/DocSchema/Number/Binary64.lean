import DocSchema.Number.Power

/-!
# Binary floating-point numbers of 64 bits

A number of this format is kept by its value: a finite one is `significand · 2 ^ exponent` with a
sign, so zero has two signs. Arithmetic is exact rational arithmetic followed by one rounding to
the nearest number, a half going to the even significand.

- `roundHalfEven_mul`: a whole number is its own rounding.
- `le_refl_of_finite`: every finite number is at most itself.
-/

namespace DocSchema

open Number (twoTo)

/-- A binary floating-point number of 64 bits. -/
inductive Binary64
  | nan
  | infinity (negative : Bool)
  | finite (negative : Bool) (significand : Nat) (exponent : Int)
  deriving DecidableEq, Repr, Inhabited

/-- A quotient rounded to the nearest whole number, a half going to the even neighbour. -/
def roundHalfEven (num den : Nat) : Nat :=
  let quotient := num / den
  let rest := num % den
  if 2 * rest < den || (2 * rest == den && quotient % 2 == 0) then quotient else quotient + 1

theorem roundHalfEven_mul (n : Nat) {den : Nat} (h : 0 < den) : roundHalfEven (n * den) den = n := by
  simp [roundHalfEven, Nat.mul_div_cancel _ h, h]

namespace Binary64

/-- The least exponent, that of the numbers next to zero. -/
def minExponent : Int := -1074

/-- The greatest exponent. -/
def maxExponent : Int := 971

/-- The quotient `num / den` divided by `2 ^ exponent`, as a quotient again. -/
def shifted (num den : Nat) (exponent : Int) : Nat × Nat :=
  if 0 ≤ exponent then (num, den * twoTo exponent.toNat) else (num * twoTo (-exponent).toNat, den)

/-- The number nearest to `num / den`, with the given sign. -/
def ofRatio (negative : Bool) (num den : Nat) : Binary64 :=
  if num = 0 then .finite negative 0 minExponent
  else
    let guess : Int := (num.log2 : Int) - den.log2 - 52
    let atGuess := shifted num den guess
    let exponent := max minExponent (if atGuess.1 < atGuess.2 * twoTo 52 then guess - 1 else guess)
    let scaled := shifted num den exponent
    let significand := roundHalfEven scaled.1 scaled.2
    let (significand, exponent) :=
      if significand = twoTo 53 then (twoTo 52, exponent + 1) else (significand, exponent)
    if exponent > maxExponent then .infinity negative
    else .finite negative significand exponent

/-- The number nearest to a whole number, which may lie beyond the greatest one. -/
def ofInt (n : Int) : Binary64 :=
  ofRatio (n < 0) n.natAbs 1

/-- The number nearest to a whole number, unless that is infinite. -/
def ofInt? (n : Int) : Option Binary64 :=
  match ofInt n with
  | .finite negative significand exponent => some (.finite negative significand exponent)
  | _ => none

/-- The value of a finite number. -/
def toRat? : Binary64 → Option Rat
  | .finite negative significand exponent =>
    let magnitude : Rat := (significand : Rat) * (2 : Rat) ^ exponent
    some (if negative then -magnitude else magnitude)
  | _ => none

/-- Whether the number is neither infinite nor a NaN. -/
def isFinite : Binary64 → Bool
  | .finite .. => true
  | _ => false

/-- Whether the number carries a minus sign. -/
def isNegative : Binary64 → Bool
  | .nan => false
  | .infinity negative => negative
  | .finite negative _ _ => negative

/-- Whether the number is a zero of either sign. -/
def isZero : Binary64 → Bool
  | .finite _ significand _ => significand == 0
  | _ => false

/-- The product, rounded once. -/
def mul (x y : Binary64) : Binary64 :=
  match x, y with
  | .nan, _ | _, .nan => .nan
  | .finite s m e, .finite t n f =>
    let scaled := (m * n, e + f)
    if 0 ≤ scaled.2 then ofRatio (s != t) (scaled.1 * twoTo scaled.2.toNat) 1
    else ofRatio (s != t) scaled.1 (twoTo (-scaled.2).toNat)
  | x, y => if x.isZero || y.isZero then .nan else .infinity (x.isNegative != y.isNegative)

/-- The sum, rounded once; a sum of zero is negative only if both terms are. -/
def add (x y : Binary64) : Binary64 :=
  match x, y with
  | .nan, _ | _, .nan => .nan
  | .infinity s, .infinity t => if s == t then .infinity s else .nan
  | .infinity s, _ | _, .infinity s => .infinity s
  | .finite s m e, .finite t n f =>
    let least := min e f
    let signed (negative : Bool) (significand : Nat) (exponent : Int) : Int :=
      let magnitude : Int := (significand * twoTo (exponent - least).toNat : Nat)
      if negative then -magnitude else magnitude
    let total := signed s m e + signed t n f
    let negative := if total = 0 then s && t else decide (total < 0)
    if 0 ≤ least then ofRatio negative (total.natAbs * twoTo least.toNat) 1
    else ofRatio negative total.natAbs (twoTo (-least).toNat)

/-- The whole part of a finite number. -/
def truncate? : Binary64 → Option Int
  | .finite negative significand exponent =>
    let (num, den) := shifted significand 1 (-exponent)
    let magnitude : Int := (num / den : Nat)
    some (if negative then -magnitude else magnitude)
  | _ => none

/-- A number on the line of the rational numbers with its two ends. -/
inductive Extended
  | low
  | at (q : Rat)
  | high

/-- Order on the line with its two ends. -/
def Extended.le : Extended → Extended → Bool
  | .low, _ | _, .high => true
  | .at p, .at q => p ≤ q
  | _, _ => false

/-- The place of a number on the line; a NaN has none. -/
def extended? : Binary64 → Option Extended
  | .nan => none
  | .infinity negative => some (if negative then .low else .high)
  | .finite negative significand exponent =>
    (Binary64.finite negative significand exponent).toRat?.map .at

/-- The order of numbers; a NaN is not comparable. -/
protected def le (x y : Binary64) : Bool :=
  match x.extended?, y.extended? with
  | some p, some q => p.le q
  | _, _ => false

/-- The order of numbers; a NaN is not comparable. -/
protected def lt (x y : Binary64) : Bool :=
  match x.extended?, y.extended? with
  | some p, some q => !q.le p
  | _, _ => false

/-- Whether a number is at most a whole number, compared exactly. -/
def leInt (x : Binary64) (n : Int) : Bool :=
  match x.extended? with
  | some p => p.le (.at n)
  | none => false

/-- The 64 bits of the interchange format; all NaNs share one pattern. -/
def toBits : Binary64 → Nat
  | .nan => 0x7ff8000000000000
  | .infinity negative => (if negative then twoTo 63 else 0) + 0x7ff0000000000000
  | .finite negative significand exponent =>
    (if negative then twoTo 63 else 0) +
      if significand < twoTo 52 then significand
      else (exponent + 1075).toNat * twoTo 52 + (significand - twoTo 52)

/-- Zero. -/
protected def zero : Binary64 := .finite false 0 minExponent

/-- One. -/
protected def one : Binary64 := .finite false (twoTo 52) (-52)

theorem le_refl_of_finite {x : Binary64} (h : x.isFinite = true) : x.le x = true := by
  cases x with
  | finite s m e => simp [Binary64.le, extended?, toRat?, Extended.le]
  | _ => simp [isFinite] at h

end Binary64

end DocSchema
