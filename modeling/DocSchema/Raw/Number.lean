import DocSchema.Number.Numeral
import DocSchema.Raw.Show
import DocSchema.Text.Uuid

/-!
# Raw values as numbers

A whole number or a floating-point number made of a raw value: of a number of another kind, of a
truth value, or of the text of a number, which may also come as bytes.

- `toInt_int`: a whole number stays as it is.
-/

namespace DocSchema

/-- Why a value is no number of the wanted kind. -/
inductive NumberFault
  | malformedInt (base : Nat) (shown : String)
  | malformedFloat (shown : String)
  | tooManyDigits (digits : Nat)
  | notWritten
  | infinite (name : String)
  | notANumber (name : String)
  | signal
  | tooLarge
  | notIntLike (typeName : String)
  | notFloatLike (typeName : String)
  deriving DecidableEq, Repr

namespace NumberFault

/-- The message about a fault. -/
def message : NumberFault → String
  | .malformedInt base shown =>
    "invalid literal for int() with base " ++ Number.natText base ++ ": " ++ shown
  | .malformedFloat shown => "could not convert string to float: " ++ shown
  | .tooManyDigits n =>
    "Exceeds the limit (4300 digits) for integer string conversion: value has " ++
      Number.natText n ++ " digits; use sys.set_int_max_str_digits() to increase the limit"
  | .notWritten =>
    "Exceeds the limit (4300 digits) for integer string conversion; " ++
      "use sys.set_int_max_str_digits() to increase the limit"
  | .infinite name => "cannot convert " ++ name ++ " to integer"
  | .notANumber name => "cannot convert " ++ name ++ " to integer"
  | .signal => "cannot convert signaling NaN to float"
  | .tooLarge => "int too large to convert to float"
  | .notIntLike typeName =>
    "int() argument must be a string, a bytes-like object or a real number, not " ++
      Text.quoted typeName
  | .notFloatLike typeName =>
    "float() argument must be a string or a real number, not " ++ Text.quoted typeName

/-- Whether the value is of a kind that no number is made of. -/
def isType : NumberFault → Bool
  | .notIntLike _ | .notFloatLike _ => true
  | _ => false

/-- Whether the value is a number that is out of range, rather than no number at all. -/
def isRange : NumberFault → Bool
  | .infinite _ | .tooLarge => true
  | _ => false

end NumberFault

/-- The message about a value that cannot be shown. -/
def Raw.ShowFault.message : Raw.ShowFault → String
  | .tooDeep => NestingFault.shown.message
  | .tooManyDigits => NumberFault.notWritten.message

namespace Raw

open Number (readInt readFloat)

/-- The characters of a byte string that may hold a numeral. -/
def numeralChars (data : List UInt8) : List Char :=
  data.map fun b => if b < 128 then Char.ofNat b.toNat else '?'

/-- The characters of a text or byte string that may hold a numeral. -/
def numeral? : Raw → Option (List Char)
  | .text s | .code s => some s.toList
  | .bytes _ data => some (numeralChars data)
  | _ => none

/-- What a message about a numeral shows of a value, at most two hundred characters. -/
def shownNumeral (r : Raw) : String :=
  let whole := match r with
    | .bytes _ data => Text.quotedBytes data
    | r => r.shown
  String.ofList (whole.toList.take 200)

/-- The whole number that a value stands for; a fraction is cut off. -/
def toInt (r : Raw) : Except NumberFault Int :=
  match r with
  | .bool b => .ok b.toNat
  | .int n | .long n => .ok n
  | .float .nan => .error (.notANumber "float NaN")
  | .float x => match x.truncate? with
    | some n => .ok n
    | none => .error (.infinite "float infinity")
  | .decimal (.nan _ _ _) => .error (.notANumber "NaN")
  | .decimal d => match d.truncate? with
    | some n => .ok n
    | none => .error (.infinite "Infinity")
  | .uuid s => .ok (Text.Uuid.number s : Nat)
  | r => match r.numeral? with
    | none => .error (.notIntLike r.typeName)
    | some cs => match readInt cs with
      | .ok n => .ok n
      | .error .malformed => .error (.malformedInt 10 r.shownNumeral)
      | .error (.tooLong n) => .error (.tooManyDigits n)

/-- The floating-point number that a value stands for. -/
def toFloat (r : Raw) : Except NumberFault Binary64 :=
  match r with
  | .bool b => .ok (Binary64.ofInt b.toNat)
  | .int n | .long n => match Binary64.ofInt? n with
    | some x => .ok x
    | none => .error .tooLarge
  | .float x => .ok x
  | .decimal (.nan _ signal _) => if signal then .error .signal else .ok .nan
  | .decimal d => match d.toBinary64? with
    | some x => .ok x
    | none => .error .signal
  | r => match r.numeral? with
    | none => .error (.notFloatLike r.typeName)
    | some cs => match readFloat cs with
      | some x => .ok x
      | none => .error (.malformedFloat r.shown)

theorem toInt_int (n : Int) : (Raw.int n).toInt = .ok n := rfl

end Raw

end DocSchema
