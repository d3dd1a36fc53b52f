import DocSchema.Number.Integer

/-!
# Calendar days

Days of the Gregorian calendar, extended to all years from 1 to 9999.

- `isLeap_iff`: the leap years.
-/

namespace DocSchema

open Number (padded)

/-- Why numbers are no date or time of day. -/
inductive CalendarError
  | year (value : Int)
  | month
  | day
  | hour
  | minute
  | second
  | microsecond
  | offset (microseconds : Int)
  deriving DecidableEq, Repr

namespace CalendarError

/-- The parts of a span of time: days, seconds of a day, and microseconds. -/
def spanParts (microseconds : Int) : List (String × Int) :=
  let seconds := Int.fdiv microseconds 1000000
  [("days", Int.fdiv seconds 86400), ("seconds", Int.fmod seconds 86400),
    ("microseconds", Int.fmod microseconds 1000000)]

/-- A span of time as shown: its parts that are not zero. -/
def spanText (microseconds : Int) : String :=
  let parts := (spanParts microseconds).filter fun (_, n) => n != 0
  let shown := ", ".intercalate (parts.map fun (name, n) => name ++ "=" ++ Number.intText n)
  "datetime.timedelta(" ++ (if parts.isEmpty then "0" else shown) ++ ")"

/-- The message about numbers that are no date or time of day. -/
def message : CalendarError → String
  | .year value => "year " ++ Number.intText value ++ " is out of range"
  | .month => "month must be in 1..12"
  | .day => "day is out of range for month"
  | .hour => "hour must be in 0..23"
  | .minute => "minute must be in 0..59"
  | .second => "second must be in 0..59"
  | .microsecond => "microsecond must be in 0..999999"
  | .offset microseconds =>
    "offset must be a timedelta strictly between -timedelta(hours=24) and timedelta(hours=24), not " ++
      spanText microseconds ++ "."

end CalendarError

/-- A calendar day. -/
structure Date where
  year : Nat
  month : Nat
  day : Nat
  deriving DecidableEq, Repr

namespace Date

/-- The greatest year. -/
def maxYear : Nat := 9999

/-- Whether a year has a 29th of February. -/
def isLeap (year : Nat) : Bool :=
  year % 4 == 0 && (year % 100 != 0 || year % 400 == 0)

/-- The days of the months of a year. -/
def monthLengths (year : Nat) : List Nat :=
  [31, if isLeap year then 29 else 28, 31, 30, 31, 30, 31, 31, 30, 31, 30, 31]

/-- The length of a month, counted from 1; no other month has a length. -/
def daysInMonth (year month : Nat) : Nat :=
  if month = 0 then 0 else (monthLengths year)[month - 1]?.getD 0

/-- The day that three numbers stand for. -/
def ofNumbers (year month day : Int) : Except CalendarError Date :=
  if year < 1 ∨ year > maxYear then .error (.year year)
  else if month < 1 ∨ month > 12 then .error .month
  else if day < 1 ∨ day > daysInMonth year.toNat month.toNat then .error .day
  else .ok ⟨year.toNat, month.toNat, day.toNat⟩

/-- The number of days before a year. -/
def daysBeforeYear (year : Nat) : Nat :=
  let passed := year - 1
  passed * 365 + passed / 4 - passed / 100 + passed / 400

/-- The number of days since the first of January of the year 1. -/
def dayNumber (d : Date) : Nat :=
  daysBeforeYear d.year + ((monthLengths d.year).take (d.month - 1)).foldl (· + ·) 0 + (d.day - 1)

/-- The month and day reached `days` days after the start of the month numbered `month`. -/
def walkMonths (days month : Nat) : List Nat → Nat × Nat
  | [] => (month, days + 1)
  | length :: rest =>
    if days < length then (month, days + 1) else walkMonths (days - length) (month + 1) rest

/-- The day with a number. -/
def ofDayNumber (n : Nat) : Date :=
  let guess := n / 366 + 1
  let year := guess + ((List.range 29).takeWhile fun k => daysBeforeYear (guess + k + 1) ≤ n).length
  let (month, day) := walkMonths (n - daysBeforeYear year) 1 (monthLengths year)
  ⟨year, month, day⟩

/-- The text of a day: year, month and day. -/
def text (d : Date) : String :=
  padded 10 4 d.year ++ "-" ++ padded 10 2 d.month ++ "-" ++ padded 10 2 d.day

theorem isLeap_iff {year : Nat} :
    isLeap year = true ↔ year % 4 = 0 ∧ (year % 100 = 0 → year % 400 = 0) := by
  simp only [isLeap, Bool.and_eq_true, beq_iff_eq, Bool.or_eq_true, bne_iff_ne, ne_eq]
  by_cases h : year % 100 = 0 <;> simp [h]

end Date

end DocSchema
