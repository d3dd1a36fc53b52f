import DocSchema.Calendar.Moment
import DocSchema.Number.Numeral

/-!
# Reading days and moments

The interchange texts of days and moments: four digits for the year, two for everything else, any
number of digits for the fraction of a second, and at the end an offset or the letter for universal
time. The marks between the numbers may be left out, of a day as of a time of day, but all at once.
-/

namespace DocSchema

namespace Calendar

/-- Reads a number of exactly `count` ASCII digits. -/
def takeNumber (count : Nat) (cs : List Char) : Option (Nat × List Char) :=
  let ds := cs.take count
  if ds.length = count ∧ ds.all Char.isDigit then some (Number.ofDigitChars ds, cs.drop count)
  else none

/-- Takes a number of two digits behind a mark, or without it. -/
def takeMarked (marked : Bool) (mark : Char) (cs : List Char) : Option (Nat × List Char) :=
  match marked, cs with
  | true, c :: rest => if c = mark then takeNumber 2 rest else none
  | true, [] => none
  | false, cs => takeNumber 2 cs

/-- Microseconds of the digits behind a decimal point, of which six count. -/
def fractionMicros (ds : List Char) : Nat :=
  Number.ofDigitChars (ds.take 6 ++ List.replicate (6 - ds.length) '0')

/-- Takes a part of a time of day, which is zero if it is not there. -/
def takePart (marked : Bool) (cs : List Char) : Option (Nat × List Char) :=
  if cs.head?.any fun c => c == ':' || !marked && c.isDigit then takeMarked marked ':' cs
  else some (0, cs)

/-- Takes the fraction of a second, which is zero if it is not there. -/
def takeFraction : List Char → Option (Nat × List Char)
  | c :: rest =>
    if c = '.' ∨ c = ',' then
      match Number.takeDigits rest with
      | ([], _) => none
      | (ds, rest) => some (fractionMicros ds, rest)
    else some (0, c :: rest)
  | [] => some (0, [])

/-- Takes a time of day: hours, and possibly minutes, seconds and a fraction. -/
def takeTime (cs : List Char) : Option ((Nat × Nat × Nat × Nat) × List Char) := do
  let (hour, rest) ← takeNumber 2 cs
  let marked := rest.head? == some ':'
  let (minute, rest) ← takePart marked rest
  let (second, rest) ← takePart marked rest
  let (micros, rest) ← takeFraction rest
  some ((hour, minute, second, micros), rest)

/-- Reads an offset in microseconds, up to the end. -/
def readOffset : List Char → Option (Option Int)
  | [] => some none
  | ['Z'] => some (some 0)
  | sign :: rest => do
    let negative ← if sign = '-' then some true else if sign = '+' then some false else none
    let ((hour, minute, second, micros), rest) ← takeTime rest
    if rest.isEmpty then
      let size : Int := (((hour * 60 + minute) * 60 + second) * 1000000 + micros : Nat)
      some (some (if negative then -size else size))
    else none

end Calendar

open Calendar

/-- Reads a day at the start of a text. -/
def Date.take (cs : List Char) : Option (Date × List Char) := do
  let (year, rest) ← takeNumber 4 cs
  let marked := rest.head? == some '-'
  let (month, rest) ← takeMarked marked '-' rest
  let (day, rest) ← takeMarked marked '-' rest
  let date ← (Date.ofNumbers year month day).toOption
  some (date, rest)

/-- Reads a day. -/
def Date.read (text : String) : Option Date := do
  let (date, rest) ← Date.take text.toList
  if rest.isEmpty then some date else none

/-- Reads a moment. -/
def Moment.read (text : String) : Option Moment := do
  let (date, rest) ← Date.take text.toList
  match rest with
  | [] => some ⟨date, 0, 0, 0, 0, none⟩
  | _ :: rest =>
    let ((hour, minute, second, micros), rest) ← takeTime rest
    let offset? ← readOffset rest
    (Moment.ofNumbers date hour minute second micros offset?).toOption

end DocSchema
