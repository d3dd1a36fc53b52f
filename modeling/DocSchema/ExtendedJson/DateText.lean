import DocSchema.Calendar.Moment
import DocSchema.ExtendedJson.Fault
import DocSchema.Number.Numeral
import DocSchema.Raw.Number
import DocSchema.Text.Search

/-!
# Dates of extended JSON

A date is a text with an optional fraction of a second and an optional offset, or a number of
milliseconds since 1970. It is read as a moment of universal time.
-/

namespace DocSchema.ExtendedJson

/-- The text of a date without its offset, and the offset. -/
def splitOffset (cs : List Char) : Option (List Char × List Char) :=
  let back := cs.reverse
  let sign (c : Char) : Bool := c == '+' || c == '-'
  let cut (n : Nat) : List Char × List Char := (cs.take (cs.length - n), cs.drop (cs.length - n))
  match back with
  | [] => none
  | 'Z' :: _ => some (cs.dropLast, ['Z'])
  | _ =>
    if cs.length < 6 then none
    else if (back[5]?.any sign) && back[2]? == some ':' then some (cut 6)
    else if back[4]?.any sign then some (cut 5)
    else if back[2]?.any sign then some (cut 3)
    else some (cs, [])

/-- A digit behind a number of tens. A digit of another script stands only where any digit may. -/
def digitAfter (low high tens : Nat) (c : Char) : Option Nat := do
  let d ← Text.digit? c
  let free := low ≤ 10 * tens ∧ 10 * tens + 9 ≤ high
  let n := 10 * tens + d
  if (c.isDigit ∨ free) ∧ low ≤ n ∧ n ≤ high then some n else none

/-- The number of one or two digits of a field, between two limits. -/
def fieldNumber (low high : Nat) (cs : List Char) : Option Nat :=
  match cs with
  | [c] => digitAfter low high 0 c
  | [a, b] => if a.isDigit then digitAfter low high (a.toNat - 48) b else none
  | _ => none

/-- The number of the day, whose first digit may be a blank. -/
def dayNumber (cs : List Char) : Option Nat :=
  match cs with
  | ' ' :: d :: [] => fieldNumber 1 9 [d]
  | cs => fieldNumber 1 31 cs

/-- Reads the date and the time of day of a text without fraction and offset. -/
def readDateTime (cs : List Char) : Option Moment := do
  let (day, time) ← match Text.splitOn 'T' (cs.map fun c => if c = 't' then 'T' else c) with
    | [day, time] => some (day, time)
    | _ => none
  match Text.splitOn '-' day, Text.splitOn ':' time with
  | [year, month, day], [hour, minute, second] =>
    let yearDigits ← year.mapM Text.digit?
    if yearDigits.length = 4 then
      let month ← fieldNumber 1 12 month
      let day ← dayNumber day
      let hour ← fieldNumber 0 23 hour
      let minute ← fieldNumber 0 59 minute
      let second ← fieldNumber 0 61 second
      let date ← (Date.ofNumbers (Number.ofDigits 10 yearDigits) month day).toOption
      (Moment.ofNumbers date hour minute second 0).toOption
    else none
  | _, _ => none

/-- The microseconds of a fraction of a second. -/
def fractionMicros (cs : List Char) : Except Fault Int := do
  let x ← orPassOver (Number.readFloat cs)
  let scaled := x.mul (Binary64.ofInt 1000000)
  match scaled.truncate? with
  | some n => .ok n
  | none =>
    if scaled = .nan then passOver
    else .error (.grave (.range (NumberFault.infinite "float infinity").message))

/-- The microseconds of an offset. -/
def offsetMicros (cs : List Char) : Except Fault Int :=
  let number (ds : List Char) : Except Fault Int := orPassOver (Number.readInt ds).toOption
  match cs with
  | [] | ['Z'] => .ok 0
  | sign :: rest => do
    let (hours, minutes) ←
      if rest.length = 5 then
        match Text.splitOn ':' rest with
        | [h, m] => .ok (h, m)
        | _ => passOver
      else .ok (rest.take 2, rest.drop 2)
    let h ← number hours
    let m ← if minutes.isEmpty then .ok 0 else number minutes
    let size := (h * 60 + m) * 60000000
    .ok (if sign = '-' then -size else size)

/-- Splits a text at the last point, if it has one. -/
def splitFraction (cs : List Char) : List Char × List Char :=
  let behind := cs.reverse.takeWhile (· ≠ '.')
  if behind.length = cs.length then (cs, [])
  else (cs.take (cs.length - behind.length - 1), '.' :: behind.reverse)

/-- Reads a date as a moment of universal time. -/
def readDate (s : String) : Except Fault Moment := do
  let (text, offset) ← orPassOver (splitOffset s.toList)
  let (text, fraction) := splitFraction text
  let micros ← if fraction.isEmpty then .ok 0 else fractionMicros fraction
  let moment ← orPassOver (readDateTime text)
  if micros < 0 ∨ micros > 999999 then passOver
  else
    let shift ← offsetMicros offset
    match Moment.ofMicros? (moment.micros + micros - shift) with
    | some m => .ok m
    | none => .error (.grave (.range "date value out of range"))

/-- The moment some milliseconds after the start of 1970. -/
def ofMillis (n : Int) : Except Fault Moment :=
  orPassOver (Moment.ofMicros? ((Date.mk 1970 1 1).dayNumber * Moment.dayMicros + n * 1000))

end DocSchema.ExtendedJson
