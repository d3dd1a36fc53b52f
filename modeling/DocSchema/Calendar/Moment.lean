import DocSchema.Calendar.Date
import DocSchema.Number.Binary64

/-!
# Moments

A day with a time of day, to the microsecond, and possibly an offset from universal time.
-/

namespace DocSchema

open Number (padded intText natText)

/-- A day and a time of day, possibly at an offset from universal time, in microseconds. -/
structure Moment where
  date : Date
  hour : Nat
  minute : Nat
  second : Nat
  microsecond : Nat
  offset? : Option Int := none
  deriving DecidableEq, Repr

namespace Moment

/-- Microseconds in a day. -/
def dayMicros : Nat := 86400000000

/-- The microseconds of the time of day. -/
def timeMicros (m : Moment) : Nat :=
  ((m.hour * 60 + m.minute) * 60 + m.second) * 1000000 + m.microsecond

/-- The microseconds since the start of the year 1, by the clock on the wall. -/
def micros (m : Moment) : Int :=
  m.date.dayNumber * dayMicros + m.timeMicros

/-- The microseconds since the start of the year 1, in universal time; a moment without an offset
counts as universal. -/
def universalMicros (m : Moment) : Int :=
  m.micros - m.offset?.getD 0

/-- The end of the year 9999, in microseconds. -/
def endMicros : Int :=
  Date.daysBeforeYear (Date.maxYear + 1) * dayMicros

/-- The moment without offset that lies some microseconds after the start of the year 1. -/
def ofMicros? (n : Int) : Option Moment :=
  if 0 ≤ n ∧ n < endMicros then
    let days := n.toNat / dayMicros
    let rest := n.toNat % dayMicros
    let seconds := rest / 1000000
    some ⟨Date.ofDayNumber days, seconds / 3600, seconds / 60 % 60, seconds % 60, rest % 1000000,
      none⟩
  else none

/-- The moment that numbers stand for. -/
def ofNumbers (date : Date) (hour minute second microsecond : Int) (offset? : Option Int := none) :
    Except CalendarError Moment :=
  if hour < 0 ∨ hour > 23 then .error .hour
  else if minute < 0 ∨ minute > 59 then .error .minute
  else if second < 0 ∨ second > 59 then .error .second
  else if microsecond < 0 ∨ microsecond > 999999 then .error .microsecond
  else .ok ⟨date, hour.toNat, minute.toNat, second.toNat, microsecond.toNat, offset?⟩

/-- Seconds with their fraction, which is left out when it is zero. -/
def secondsText (seconds micros : Nat) : String :=
  padded 10 2 seconds ++ if micros = 0 then "" else "." ++ padded 10 6 micros

/-- The text of an offset: hours and minutes, with seconds only if there are some. -/
def offsetText (offset : Int) : String :=
  let size := offset.natAbs
  let seconds := size / 1000000
  let tail :=
    if size % 60000000 = 0 then ""
    else ":" ++ secondsText (seconds % 60) (size % 1000000)
  (if offset < 0 then "-" else "+") ++ padded 10 2 (seconds / 3600) ++ ":" ++
    padded 10 2 (seconds / 60 % 60) ++ tail

/-- The text of a moment, with a mark between day and time. -/
def textWith (mark : String) (m : Moment) : String :=
  m.date.text ++ mark ++ padded 10 2 m.hour ++ ":" ++ padded 10 2 m.minute ++ ":" ++
    secondsText m.second m.microsecond ++ (m.offset?.map offsetText).getD ""

/-- The interchange text of a moment. -/
def text (m : Moment) : String :=
  m.textWith "T"

/-- The milliseconds between two moments: the seconds as the nearest floating-point number, times a
thousand, without the fraction. -/
def millisBetween (start stop : Moment) : Int :=
  let micros := stop.universalMicros - start.universalMicros
  let seconds := Binary64.ofRatio (micros < 0) micros.natAbs 1000000
  ((seconds.mul (Binary64.ofInt 1000)).truncate?).getD 0

end Moment

end DocSchema
