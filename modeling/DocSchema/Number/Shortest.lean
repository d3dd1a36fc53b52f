import DocSchema.Number.Binary64
import DocSchema.Number.Integer

/-!
# The shortest decimal that reads back

Every finite number is the nearest one to a whole interval of decimals. Of the decimals in that
interval the one with the fewest digits is written, of several the nearest to the number, and of
two equally near the one whose last digit is even.

- `text`: positional for decimal points from the fourth zero after the point to the sixteenth digit,
  with a power of ten outside of that.
-/

namespace DocSchema.Number

/-- The decimals that a number is nearest to: those from `low` to `high`, all over `den`. -/
structure Interval where
  low : Nat
  value : Nat
  high : Nat
  den : Nat
  closed : Bool

namespace Interval

/-- The interval of a positive number `significand · 2 ^ exponent`. -/
def around (significand : Nat) (exponent : Int) : Interval :=
  let up := (exponent - 2).toNat
  let down := (2 - exponent).toNat
  let below := if significand = twoTo 52 ∧ exponent > Binary64.minExponent then 1 else 2
  { low := (4 * significand - below) * twoTo up
    value := 4 * significand * twoTo up
    high := (4 * significand + 2) * twoTo up
    den := twoTo down
    closed := significand % 2 == 0 }

/-- Whether `point / scale` lies in the interval. -/
def contains (i : Interval) (point scale : Nat) : Bool :=
  let scaled := point * i.den
  if i.closed then decide (i.low * scale ≤ scaled) && decide (scaled ≤ i.high * scale)
  else decide (i.low * scale < scaled) && decide (scaled < i.high * scale)

/-- The neighbours of the number on the grid of step `step / scale`, nearest first. -/
def neighbours (i : Interval) (step scale : Nat) : List Nat :=
  let num := i.value * scale
  let den := i.den * step
  let nearest := roundHalfEven num den
  let other := if nearest * den ≤ num then nearest + 1 else nearest - 1
  [nearest, other]

/-- The first neighbour on a grid that lies in the interval. -/
def select? (i : Interval) (step scale : Nat) : Option Nat :=
  (i.neighbours step scale).find? fun n => i.contains (n * step) scale

end Interval

/-- The number of places before the decimal point of `num / den`; it is negative for zeros after the
point. -/
def pointPlace (num den : Nat) : Int :=
  if den ≤ num then (digits (num / den)).length
  else 1 - (digits ((den + num - 1) / num - 1)).length

/-- The decimal digits and the place of the decimal point of the shortest decimal, tried with `count`
digits and then with more, up to `count + fuel`. -/
def shortestFrom (i : Interval) (point : Int) (count : Nat) : (fuel : Nat) → List Char × Int
  | 0 => (digits 0, 1)
  | fuel + 1 =>
    let place := point - count
    match i.select? (tenTo place.toNat) (tenTo (-place).toNat) with
    | some n =>
      let ds := digits n
      let kept := (ds.reverse.dropWhile (· == '0')).reverse
      (kept, place + ds.length)
    | none => shortestFrom i point (count + 1) fuel

/-- The digits of a positive number and the place of its decimal point among them. -/
def shortest (significand : Nat) (exponent : Int) : List Char × Int :=
  let i := Interval.around significand exponent
  shortestFrom i (pointPlace i.value i.den) 1 17

/-- Digits laid out with a decimal point, or with a power of ten of at least two digits. -/
def layOut (ds : List Char) (point : Int) : List Char :=
  if -4 < point ∧ point ≤ 16 then
    if point ≤ 0 then '0' :: '.' :: (List.replicate (-point).toNat '0' ++ ds)
    else
      let whole := ds.take point.toNat
      let rest := ds.drop point.toNat
      whole ++ List.replicate (point.toNat - whole.length) '0' ++ '.' ::
        (if rest.isEmpty then ['0'] else rest)
  else
    let power := point - 1
    let mantissa := match ds with
      | d :: more => if more.isEmpty then [d] else d :: '.' :: more
      | [] => []
    let exponentDigits := digits power.natAbs
    mantissa ++ ['e', if power < 0 then '-' else '+'] ++
      List.replicate (2 - exponentDigits.length) '0' ++ exponentDigits

end DocSchema.Number

namespace DocSchema.Binary64

open Number in
/-- The text of a number: its shortest decimal, with `inf` and `nan` for what has none. -/
def text : Binary64 → String
  | .nan => "nan"
  | .infinity negative => if negative then "-inf" else "inf"
  | .finite negative significand exponent =>
    let body :=
      if significand = 0 then ['0', '.', '0']
      else
        let (ds, point) := shortest significand exponent
        layOut ds point
    String.ofList (if negative then '-' :: body else body)

end DocSchema.Binary64
