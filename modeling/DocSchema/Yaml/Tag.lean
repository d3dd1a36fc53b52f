import DocSchema.Number.Integer

/-!
# Tags

The tag of a node says of which type it is. A plain text gets its tag from its form: truth values, null,
whole numbers in several bases, floating-point numbers, dates and times; all else is text.
-/

namespace DocSchema.Yaml

/-- The type of a node. -/
inductive Tag
  | null
  | bool
  | int
  | float
  | binary
  | timestamp
  | omap
  | pairs
  | set
  | text
  | sequence
  | mapping
  | merge
  | value
  | other (name : String)
  deriving DecidableEq, Repr

namespace Tag

/-- The start of the names of the format's own tags. -/
def ownStart : String := "tag:yaml.org,2002:"

/-- The format's own tags by their names. -/
def own : List (String × Tag) :=
  [("null", .null), ("bool", .bool), ("int", .int), ("float", .float), ("binary", .binary),
    ("timestamp", .timestamp), ("omap", .omap), ("pairs", .pairs), ("set", .set), ("str", .text),
    ("seq", .sequence), ("map", .mapping), ("merge", .merge), ("value", .value)]

/-- The tag with a full name. -/
def ofName (name : String) : Tag :=
  match own.find? fun (part, _) => name == ownStart ++ part with
  | some (_, tag) => tag
  | none => .other name

/-- The texts of truth values. -/
def truthTexts : List String :=
  ["yes", "Yes", "YES", "no", "No", "NO", "true", "True", "TRUE", "false", "False", "FALSE",
    "on", "On", "ON", "off", "Off", "OFF"]

/-- Whether a character is a digit or an underscore. -/
def isDigitMark (c : Char) : Bool :=
  c.isDigit || c == '_'

/-- A text without a sign at its front. -/
def unsigned : List Char → List Char
  | '-' :: rest | '+' :: rest => rest
  | cs => cs

/-- Whether a text is a run of characters of a kind, with at least one of them. -/
def isRun (p : Char → Bool) (cs : List Char) : Bool :=
  !cs.isEmpty && cs.all p

/-- Whether a text is a number below sixty in one or two digits. -/
def isSixtieth : List Char → Bool
  | [a] => a.isDigit
  | [a, b] => decide ('0' ≤ a ∧ a ≤ '5') && b.isDigit
  | _ => false

/-- Parts of a text between colons. -/
def colonParts (cs : List Char) : List (List Char) :=
  cs.foldr (fun c parts =>
    if c = ':' then [] :: parts
    else match parts with
      | part :: parts => (c :: part) :: parts
      | [] => [[c]]) [[]]

/-- Whether a text, without its sign, has the form of a whole number. -/
def isWhole (cs : List Char) : Bool :=
  match cs with
  | '0' :: 'b' :: rest => isRun (fun c => c == '0' || c == '1' || c == '_') rest
  | '0' :: 'x' :: rest =>
    isRun (fun c => isDigitMark c || "abcdefABCDEF".toList.contains c) rest
  | ['0'] => true
  | '0' :: rest => rest.all fun c => c == '_' || decide ('0' ≤ c ∧ c ≤ '7')
  | c :: _ =>
    c.isDigit &&
      match colonParts cs with
      | first :: rest => first.all isDigitMark && rest.all isSixtieth
      | [] => false
  | [] => false

/-- Whether a text has the form of a power of ten, which has a sign; it may be missing. -/
def isPower : List Char → Bool
  | [] => true
  | e :: sign :: digits =>
    (e == 'e' || e == 'E') && (sign == '-' || sign == '+') && isRun Char.isDigit digits
  | _ => false

/-- Whether a text has the form of a fraction, which may have a power of ten behind it. -/
def isFraction (cs : List Char) : Bool :=
  isPower (cs.dropWhile isDigitMark)

/-- Whether a text, without its sign, is a floating-point number that begins with a digit. -/
def isFloatDigits (cs : List Char) : Bool :=
  let whole := cs.takeWhile (· != '.')
  match cs.dropWhile (· != '.') with
  | [] => false
  | _ :: fraction =>
    whole.head?.any Char.isDigit &&
      match colonParts whole with
      | [first] => first.all isDigitMark && isFraction fraction
      | first :: rest => first.all isDigitMark && rest.all isSixtieth && fraction.all isDigitMark
      | [] => false

/-- Whether a text has the form of a floating-point number. -/
def isFloat (cs : List Char) : Bool :=
  let body := unsigned cs
  isFloatDigits body ||
    [".inf", ".Inf", ".INF"].contains (String.ofList body) ||
    [".nan", ".NaN", ".NAN"].contains (String.ofList cs) ||
    match cs with
    | '.' :: c :: rest => c.isDigit && isFraction rest
    | _ => false

end Tag

/-- The parts of a date with a time of day, as they are written. -/
structure TimestampText where
  year : List Char
  month : List Char
  day : List Char
  time? : Option (List Char × List Char × List Char) := none
  fraction : List Char := []
  /-- The sign, the hours and the minutes of an offset. -/
  offset? : Option (Char × List Char × List Char) := none
  isUniversal : Bool := false
  deriving Repr

namespace TimestampText

/-- Takes one or two digits. -/
def takeOneOrTwo : List Char → Option (List Char × List Char)
  | a :: b :: rest =>
    if !a.isDigit then none else if b.isDigit then some ([a, b], rest) else some ([a], b :: rest)
  | [a] => if a.isDigit then some ([a], []) else none
  | [] => none

/-- Takes exactly some digits. -/
def takeExactly (n : Nat) (cs : List Char) : Option (List Char × List Char) :=
  let digits := cs.take n
  if digits.length = n ∧ digits.all Char.isDigit then some (digits, cs.drop n) else none

/-- Takes a mark. -/
def takeMark (mark : Char) : List Char → Option (List Char)
  | c :: rest => if c = mark then some rest else none
  | [] => none

/-- Drops spaces and tabs. -/
def dropBlanks (cs : List Char) : List Char :=
  cs.dropWhile fun c => c == ' ' || c == '\t'

/-- Reads the offset at the end. -/
def readOffset (t : TimestampText) (cs : List Char) : Option TimestampText :=
  match cs with
  | [] => some t
  | cs =>
    match dropBlanks cs with
    | ['Z'] => some { t with isUniversal := true }
    | sign :: rest => do
      if sign ≠ '-' ∧ sign ≠ '+' then none
      else
        let (hours, rest) ← takeOneOrTwo rest
        match rest with
        | [] => some { t with offset? := some (sign, hours, []) }
        | rest =>
          let (minutes, rest) ← (takeMark ':' rest).bind (takeExactly 2)
          if rest.isEmpty then some { t with offset? := some (sign, hours, minutes) } else none
    | [] => none

/-- Reads the time of day. -/
def readTime (t : TimestampText) (cs : List Char) : Option TimestampText := do
  let (hour, rest) ← takeOneOrTwo cs
  let (minute, rest) ← (takeMark ':' rest).bind (takeExactly 2)
  let (second, rest) ← (takeMark ':' rest).bind (takeExactly 2)
  let t := { t with time? := some (hour, minute, second) }
  match rest with
  | '.' :: rest =>
    readOffset { t with fraction := rest.takeWhile Char.isDigit } (rest.dropWhile Char.isDigit)
  | rest => readOffset t rest

/-- Reads a date, with a time of day behind a letter or blanks. -/
def read (cs : List Char) : Option TimestampText := do
  let (year, rest) ← takeExactly 4 cs
  let (month, rest) ← (takeMark '-' rest).bind takeOneOrTwo
  let (day, rest) ← (takeMark '-' rest).bind takeOneOrTwo
  let t : TimestampText := { year, month, day }
  match rest with
  | [] => some t
  | 'T' :: rest | 't' :: rest => readTime t rest
  | ' ' :: rest | '\t' :: rest => readTime t (dropBlanks rest)
  | _ => none

/-- Whether a plain text of this form stands for a date: one without a time needs all digits. -/
def isMarked (t : TimestampText) : Bool :=
  t.time?.isSome || (t.month.length == 2 && t.day.length == 2)

end TimestampText

/-- The tag that a plain text has by its form. -/
def Tag.ofPlain (text : String) : Tag :=
  let cs := text.toList
  if Tag.truthTexts.contains text then .bool
  else if Tag.isFloat cs then .float
  else if Tag.isWhole (Tag.unsigned cs) then .int
  else if text = "<<" then .merge
  else if ["", "~", "null", "Null", "NULL"].contains text then .null
  else if (TimestampText.read cs).any TimestampText.isMarked then .timestamp
  else if text = "=" then .value
  else .text

end DocSchema.Yaml
