import DocSchema.Calendar.Reader
import DocSchema.Text.Base64
import DocSchema.Text.Lowercase
import DocSchema.Yaml.Fault
import DocSchema.Yaml.Tag

/-!
# Scalars

The value of a scalar: the text of a node read as its tag asks.
-/

namespace DocSchema.Yaml.Scalar

/-- Reads a truth value. -/
def readTruth (text : String) : Except Fault Bool :=
  let word := Text.lowercase text
  if ["yes", "true", "on"].contains word then .ok true
  else if ["no", "false", "off"].contains word then .ok false
  else .error (.notTruth word)

/-- Reads a whole number in a base. -/
def readIn (base : Nat) (cs : List Char) : Except Fault Int :=
  match Number.readIntIn base cs with
  | .ok n => .ok n
  | .error .malformed =>
    let shown := Text.quoted (String.ofList cs)
    .error (.number (.malformedInt base (String.ofList (shown.toList.take 200))))
  | .error (.tooLong digits) => .error (.number (.tooManyDigits digits))

/-- A text without underscores, split into its sign and the rest. -/
def signed (cs : List Char) : Bool × List Char :=
  match cs.filter (· != '_') with
  | '-' :: rest => (true, rest)
  | '+' :: rest => (false, rest)
  | rest => (false, rest)

/-- The number whose digits in base sixty are written between colons. -/
def sixties (parts : List Int) : Int :=
  parts.foldl (fun n part => n * 60 + part) 0

/-- Reads a whole number without its sign. -/
def readMagnitude (cs : List Char) : Except Fault Int :=
  match cs with
  | [] => .error .emptyNumber
  | ['0'] => .ok 0
  | '0' :: 'b' :: rest => readIn 2 rest
  | '0' :: 'x' :: rest => readIn 16 rest
  | '0' :: _ => readIn 8 cs
  | cs =>
    if cs.contains ':' then ((Tag.colonParts cs).mapM (readIn 10)).map sixties else readIn 10 cs

/-- Reads a whole number. -/
def readWhole (text : String) : Except Fault Int :=
  let (negative, cs) := signed text.toList
  (readMagnitude cs).map fun n => if negative then -n else n

/-- Reads a floating-point number without a sign of its own. -/
def readFloatPart (cs : List Char) : Except Fault Binary64 :=
  match Number.readFloat cs with
  | some x => .ok x
  | none => .error (.number (.malformedFloat (Text.quoted (String.ofList cs))))

/-- Adds up the digits in base sixty, of which the last comes first, from some place on. -/
def addSixties (place : Nat) (total : Binary64) : List Binary64 → Except Fault Binary64
  | [] => .ok total
  | x :: rest =>
    match Binary64.ofInt? (Nat.pow 60 place) with
    | some unit => addSixties (place + 1) (total.add (x.mul unit)) rest
    | none => .error (.number .tooLarge)

/-- Reads a floating-point number without its sign. -/
def readFloatMagnitude (cs : List Char) : Except Fault Binary64 :=
  if cs = ".inf".toList then .ok (.infinity false)
  else if cs = ".nan".toList then .ok .nan
  else if cs.contains ':' then do
    let parts ← (Tag.colonParts cs).mapM readFloatPart
    addSixties 0 .zero parts.reverse
  else readFloatPart cs

/-- Reads a floating-point number. -/
def readFloat (text : String) : Except Fault Binary64 :=
  let cs := (Text.lowercase text).toList
  if (cs.filter (· != '_')).isEmpty then .error .emptyNumber
  else
    let (negative, cs) := signed cs
    (readFloatMagnitude cs).map fun x => if negative then x.mul (Binary64.ofInt (-1)) else x

/-- Reads bytes in base 64. -/
def readBinary (text : String) : Except Fault (List UInt8) :=
  if text.toList.all fun c => c.toNat < 128 then
    match Text.Base64.decode text.toList with
    | some bytes => .ok bytes
    | none => .error .malformed
  else .error .malformed

/-- The number that some digits stand for. -/
def digits (cs : List Char) : Int :=
  Number.ofDigitChars cs

/-- The offset of a timestamp, in microseconds. -/
def offsetOf (t : TimestampText) : Except Fault (Option Int) :=
  match t.offset? with
  | some (sign, hours, minutes) =>
    let size := (digits hours * 60 + digits minutes) * 60000000
    let offset := if sign = '-' then -size else size
    if offset.natAbs < Moment.dayMicros then .ok (some offset)
    else .error (.calendar (.offset offset))
  | none => .ok (if t.isUniversal then some 0 else none)

/-- Reads a date, or a date with a time of day. -/
def readTimestamp (text : String) : Except Fault Raw :=
  match TimestampText.read text.toList with
  | none => .error .notTimestamp
  | some t => do
    let date := Date.ofNumbers (digits t.year) (digits t.month) (digits t.day)
    match t.time? with
    | none => (date.map Raw.date).mapError .calendar
    | some (hour, minute, second) =>
      let offset? ← offsetOf t
      let moment := do
        Moment.ofNumbers (← date) (digits hour) (digits minute) (digits second)
          (Calendar.fractionMicros t.fraction) offset?
      (moment.map Raw.moment).mapError .calendar

/-- Reads a scalar as its tag asks; the tags of collections have no scalars. -/
def readText (tag : Tag) (text : String) : Except Fault Raw :=
  match tag with
  | .null => .ok .null
  | .bool => (readTruth text).map .bool
  | .int => (readWhole text).map .int
  | .float => (readFloat text).map .float
  | .binary => (readBinary text).map (.bytes .immutable)
  | .timestamp => readTimestamp text
  | .text => .ok (.text text)
  | _ => .error .malformed

end DocSchema.Yaml.Scalar
