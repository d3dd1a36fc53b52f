import DocSchema.Number.Shortest
import DocSchema.Raw.Stack
import DocSchema.Text.Quoted

/-!
# Raw values in messages

Two texts of a raw value: `shown` marks its kind, as messages about bad input need it, and `plainText`
gives a scalar as it stands. A value with too long a number in it, or with containers that are nested too
deeply, has neither.
-/

namespace DocSchema

open Number (intText natText maxDigits tenTo)
open Text (quoted quotedBytes)

/-- A moment as shown: its numbers, seconds and microseconds only if there are some. -/
def Moment.shown (m : Moment) : String :=
  let date := [m.date.year, m.date.month, m.date.day, m.hour, m.minute]
  let tail :=
    if m.microsecond != 0 then [m.second, m.microsecond]
    else if m.second != 0 then [m.second]
    else []
  let zone := match m.offset? with
    | none => ""
    | some 0 => ", tzinfo=datetime.timezone.utc"
    | some offset =>
      let days := Int.fdiv offset dayMicros
      let rest := (Int.fmod offset dayMicros).toNat
      let parts :=
        (if days = 0 then [] else ["days=" ++ intText days]) ++
          (if rest / 1000000 = 0 then [] else ["seconds=" ++ natText (rest / 1000000)]) ++
          (if rest % 1000000 = 0 then [] else ["microseconds=" ++ natText (rest % 1000000)])
      ", tzinfo=datetime.timezone(datetime.timedelta(" ++ ", ".intercalate parts ++ "))"
  "datetime.datetime(" ++ ", ".intercalate ((date ++ tail).map natText) ++ zone ++ ")"

namespace Raw

/-- A byte string as shown; subtype eight marks bytes that are not to be seen. -/
def shownBytes : BytesForm → List UInt8 → String
  | .immutable, data => quotedBytes data
  | .mutable, data => "bytearray(" ++ quotedBytes data ++ ")"
  | .view, _ => "<memory>"
  | .tagged 8, _ => "<Binary(REDACTED, 8)>"
  | .tagged subtype, data => "Binary(" ++ quotedBytes data ++ ", " ++ natText subtype ++ ")"

/-- A value of no known kind as shown. -/
def shownForeign : Foreign → String
  | .pattern source flags => "Regex(" ++ source ++ ", " ++ natText flags ++ ")"
  | .timestamp seconds increment =>
    "Timestamp(" ++ intText seconds ++ ", " ++ intText increment ++ ")"
  | .leastKey => "MinKey()"
  | .greatestKey => "MaxKey()"
  | .reference shown _ => shown
  | .unknown => "<object>"

mutual
/-- A value as messages show it. -/
def shown : Raw → String
  | .null => "None"
  | .bool b => if b then "True" else "False"
  | .int n | .long n => intText n
  | .float x => x.text
  | .decimal d => "Decimal('" ++ d.text ++ "')"
  | .wideDecimal d => "Decimal128('" ++ d.wideText ++ "')"
  | .text s => quoted s
  | .code s => "Code(" ++ quoted s ++ ", None)"
  | .identifier hex => "ObjectId('" ++ hex ++ "')"
  | .bytes form data => shownBytes form data
  | .moment m => m.shown
  | .date d =>
    "datetime.date(" ++ ", ".intercalate ([d.year, d.month, d.day].map natText) ++ ")"
  | .uuid s => "UUID('" ++ s ++ "')"
  | .list items => "[" ++ ", ".intercalate (shownList items) ++ "]"
  | .tuple items =>
    "(" ++ ", ".intercalate (shownList items) ++ (if items.length = 1 then "," else "") ++ ")"
  | .map entries => "\x7b" ++ ", ".intercalate (shownEntries entries) ++ "\x7d"
  | .set items =>
    if items.isEmpty then "set()" else "\x7b" ++ ", ".intercalate (shownList items) ++ "\x7d"
  | .foreign f => shownForeign f
  | .built kind payload =>
    "Value(kind=<ValueKind." ++ kind.tag.toUpper ++ ": '" ++ kind.tag ++ "'>, data=" ++
      shown payload ++ ")"
/-- The items of a sequence or a set as shown. -/
def shownList : List Raw → List String
  | [] => []
  | item :: items => shown item :: shownList items
/-- The entries of a mapping as shown. -/
def shownEntries : List (Raw × Raw) → List String
  | [] => []
  | (key, value) :: entries => (shown key ++ ": " ++ shown value) :: shownEntries entries
end

/-- Why a value cannot be shown. -/
inductive ShowFault
  | tooDeep
  | tooManyDigits
  deriving DecidableEq, Repr

mutual
/-- Why a value cannot be shown where so many containers may still stand one inside of the other: the
first container without room, or the first whole number with too many digits. -/
def showFaultWithin? (room : Nat) : Raw → Option ShowFault
  | .int n | .long n => if n.natAbs < tenTo maxDigits then none else some .tooManyDigits
  | .list items | .tuple items | .set items =>
    match room with
    | 0 => some .tooDeep
    | room + 1 => showFaultOfItems? room items
  | .map entries =>
    match room with
    | 0 => some .tooDeep
    | room + 1 => showFaultOfEntries? room entries
  | .built _ payload =>
    match room with
    | 0 => some .tooDeep
    | room + 1 => showFaultWithin? room payload
  | _ => none
/-- Why the first of some items that cannot be shown cannot. -/
def showFaultOfItems? (room : Nat) : List Raw → Option ShowFault
  | [] => none
  | item :: items => (showFaultWithin? room item).or (showFaultOfItems? room items)
/-- Why the first of some entries that cannot be shown cannot. -/
def showFaultOfEntries? (room : Nat) : List (Raw × Raw) → Option ShowFault
  | [] => none
  | (key, value) :: entries =>
    ((showFaultWithin? room key).or (showFaultWithin? room value)).or (showFaultOfEntries? room entries)
end

/-- Why a value of the settings cannot be shown. -/
def showFault? [Stack] (r : Raw) : Option ShowFault :=
  showFaultWithin? (Stack.shown r) r

/-- Why a part of a document that stands at a depth cannot be told. -/
def tellFault? [Stack] (depth : Int) (r : Raw) : Option ShowFault :=
  showFaultWithin? (Stack.told [] depth r) r

/-- The plain text of a value. -/
def plainText : Raw → String
  | .text s | .code s | .identifier s | .uuid s => s
  | .decimal d => d.text
  | .wideDecimal d => d.wideText
  | .moment m => m.textWith " "
  | .date d => d.text
  | .bytes (.tagged _) data => quotedBytes data
  | other => other.shown

end Raw

end DocSchema
