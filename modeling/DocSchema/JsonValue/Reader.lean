import DocSchema.JsonValue.Basic
import DocSchema.Nesting
import DocSchema.Number.Numeral
import DocSchema.Text.Half

/-!
# Reading JSON

A text is read into values of any type, by a builder that says what to make of each part and may
refuse an object. Besides the standard's own values, infinities and NaN are read by name. Half of a
surrogate pair may stand alone in a text.
-/

namespace DocSchema

/-- What to make of the parts of a JSON text. -/
structure JsonBuilder (ε α : Type) where
  null : α
  bool : Bool → α
  int : Int → α
  float : Binary64 → α
  string : String → α
  array : List α → α
  object : List (String × α) → Except ε α

/-- Why a text is not read. -/
inductive JsonError (ε : Type)
  | malformed
  | tooManyDigits (digits : Nat)
  | tooDeep (fault : NestingFault)
  | refused (error : ε)
  deriving Repr

namespace JsonBuilder

variable {ε α : Type}

/-- Drops the blanks between the parts of a text. -/
def skipBlanks (cs : List Char) : List Char :=
  cs.dropWhile fun c => c == ' ' || c == '\t' || c == '\n' || c == '\r'

/-- Reads four hexadecimal digits. -/
def takeUnit : List Char → Option (Nat × List Char)
  | a :: b :: c :: d :: rest => do
    let digits ← [a, b, c, d].mapM Number.digitValue?
    if digits.all (· < 16) then some (Number.ofDigits 16 digits, rest) else none
  | _ => none

/-- The character that one letter after a backslash stands for. -/
def escaped? : Char → Option Char
  | '"' => some '"'
  | '\\' => some '\\'
  | '/' => some '/'
  | 'b' => some '\x08'
  | 'f' => some '\x0c'
  | 'n' => some '\n'
  | 'r' => some '\r'
  | 't' => some '\t'
  | _ => none

/-- Reads the second half of a surrogate pair. -/
def takeLowHalf (high : Nat) : List Char → Option (Char × List Char)
  | '\\' :: 'u' :: rest =>
    match takeUnit rest with
    | some (low, rest) =>
      if 0xdc00 ≤ low ∧ low < 0xe000 then
        some (Char.ofNat (0x10000 + (high - 0xd800) * 0x400 + (low - 0xdc00)), rest)
      else none
    | none => none
  | _ => none

/-- Reads a text up to its closing quote; `before` holds what was read, last character first. -/
def takeText (fuel : Nat) (before : List Char) (cs : List Char) : Option (String × List Char) :=
  match fuel with
  | 0 => none
  | fuel + 1 =>
    match cs with
    | [] => none
    | '"' :: rest => some (String.ofList before.reverse, rest)
    | '\\' :: 'u' :: rest =>
      match takeUnit rest with
      | none => none
      | some (unit, rest) =>
        if 0xd800 ≤ unit ∧ unit < 0xdc00 then
          match takeLowHalf unit rest with
          | some (c, rest) => takeText fuel (c :: before) rest
          | none => takeText fuel (Text.charOf unit :: before) rest
        else takeText fuel (Text.charOf unit :: before) rest
    | '\\' :: c :: rest =>
      match escaped? c with
      | some e => takeText fuel (e :: before) rest
      | none => none
    | c :: rest => if c.toNat < 32 then none else takeText fuel (c :: before) rest

/-- Reads the fraction of a number, if there is one. -/
def takeFraction (cs : List Char) : List Char × List Char :=
  match cs with
  | '.' :: rest =>
    match Number.takeDigits rest with
    | ([], _) => ([], cs)
    | (ds, rest) => ('.' :: ds, rest)
  | _ => ([], cs)

/-- Reads the power of ten of a number, if there is one. -/
def takePower (cs : List Char) : List Char × List Char :=
  match cs with
  | e :: rest =>
    if e = 'e' ∨ e = 'E' then
      let (sign, digits) : List Char × List Char := match rest with
        | '+' :: more => (['+'], more)
        | '-' :: more => (['-'], more)
        | more => ([], more)
      match Number.takeDigits digits with
      | ([], _) => ([], cs)
      | (ds, rest) => ('e' :: sign ++ ds, rest)
    else ([], cs)
  | [] => ([], cs)

/-- Reads the whole part of a number: a zero, or digits that do not begin with one. -/
def takeWhole : List Char → Option (List Char × List Char)
  | '0' :: rest => some (['0'], rest)
  | cs =>
    match Number.takeDigits cs with
    | ([], _) => none
    | taken => some taken

/-- Reads a number without its sign. -/
def takeNumber (b : JsonBuilder ε α) (negative : Bool) (cs : List Char) :
    Except (JsonError ε) (α × List Char) :=
  match takeWhole cs with
  | none => .error .malformed
  | some (whole, rest) =>
    let (fraction, rest) := takeFraction rest
    let (power, rest) := takePower rest
    if fraction.isEmpty && power.isEmpty then
      if whole.length > Number.maxDigits then .error (.tooManyDigits whole.length)
      else
        let n : Int := Number.ofDigitChars whole
        .ok (b.int (if negative then -n else n), rest)
    else
      match Number.readScientific (whole ++ fraction ++ power) with
      | some (coefficient, exponent) =>
        .ok (b.float (Number.ofDecimal negative coefficient exponent), rest)
      | none => .error .malformed

/-- The text behind a word that must come next. -/
def afterWord (word : String) (cs : List Char) : Option (List Char) :=
  if word.toList.isPrefixOf cs then some (cs.drop word.length) else none

/-- Reads a value that is neither a text, nor an array, nor an object. -/
def takeScalar (b : JsonBuilder ε α) (cs : List Char) : Except (JsonError ε) (α × List Char) :=
  let words : List (String × α) :=
    [("null", b.null), ("true", b.bool true), ("false", b.bool false), ("NaN", b.float .nan),
      ("Infinity", b.float (.infinity false)), ("-Infinity", b.float (.infinity true))]
  match words.findSome? fun (word, value) => (afterWord word cs).map (value, ·) with
  | some taken => .ok taken
  | none =>
    match cs with
    | '-' :: rest => takeNumber b true rest
    | cs => takeNumber b false cs

mutual
/-- Reads a value inside of which some more containers may be nested. -/
def takeValue (b : JsonBuilder ε α) (fuel depth : Nat) (cs : List Char) :
    Except (JsonError ε) (α × List Char) :=
  match fuel with
  | 0 => .error .malformed
  | fuel + 1 =>
    match cs with
    | '"' :: rest =>
      match takeText (rest.length + 1) [] rest with
      | some (s, rest) => .ok (b.string s, rest)
      | none => .error .malformed
    | '[' :: rest =>
      match depth with
      | 0 => .error (.tooDeep .array)
      | depth + 1 => do
        let (items, rest) ← match skipBlanks rest with
          | ']' :: rest => .ok ([], rest)
          | rest => takeItems b fuel depth [] rest
        .ok (b.array items, rest)
    | '{' :: rest =>
      match depth with
      | 0 => .error (.tooDeep .object)
      | depth + 1 => do
        let (members, rest) ← match skipBlanks rest with
          | '}' :: rest => .ok ([], rest)
          | rest => takeMembers b fuel depth [] rest
        match b.object members with
        | .ok value => .ok (value, rest)
        | .error e => .error (.refused e)
    | cs => takeScalar b cs
/-- Reads the items of an array up to its end; `before` holds those that were read, last first. -/
def takeItems (b : JsonBuilder ε α) (fuel depth : Nat) (before : List α) (cs : List Char) :
    Except (JsonError ε) (List α × List Char) :=
  match fuel with
  | 0 => .error .malformed
  | fuel + 1 => do
    let (value, rest) ← takeValue b fuel depth cs
    match skipBlanks rest with
    | ']' :: rest => .ok ((value :: before).reverse, rest)
    | ',' :: rest => takeItems b fuel depth (value :: before) (skipBlanks rest)
    | _ => .error .malformed
/-- Reads the members of an object up to its end; `before` holds those that were read, last
first. -/
def takeMembers (b : JsonBuilder ε α) (fuel depth : Nat) (before : List (String × α))
    (cs : List Char) :
    Except (JsonError ε) (List (String × α) × List Char) :=
  match fuel with
  | 0 => .error .malformed
  | fuel + 1 =>
    match cs with
    | '"' :: rest =>
      match takeText (rest.length + 1) [] rest with
      | none => .error .malformed
      | some (name, rest) =>
        match skipBlanks rest with
        | ':' :: rest => do
          let (value, rest) ← takeValue b fuel depth (skipBlanks rest)
          match skipBlanks rest with
          | '}' :: rest => .ok (((name, value) :: before).reverse, rest)
          | ',' :: rest => takeMembers b fuel depth ((name, value) :: before) (skipBlanks rest)
          | _ => .error .malformed
        | _ => .error .malformed
    | _ => .error .malformed
end

/-- Reads a text that is one value, and does not begin with a byte-order mark. -/
def read (b : JsonBuilder ε α) (cs : List Char) : Except (JsonError ε) α := do
  let (value, rest) ← takeValue b (2 * cs.length + 2) maxNesting (skipBlanks cs)
  if (skipBlanks rest).isEmpty then .ok value else .error .malformed

end JsonBuilder

namespace JsonValue

/-- Members with one more; a member of the same name keeps its place and takes the value. -/
def insertMember (name : String) (value : JsonValue) :
    List (String × JsonValue) → List (String × JsonValue)
  | [] => [(name, value)]
  | (other, held) :: members =>
    if other = name then (other, value) :: members
    else (other, held) :: insertMember name value members

/-- Makes JSON values of the parts of a text, with the last of the members of one name. -/
def builder : JsonBuilder Empty JsonValue where
  null := .null
  bool := .bool
  int := .int
  float := .float
  string := .string
  array := .array
  object members :=
    .ok (.object (members.foldl (fun held (name, value) => insertMember name value held) []))

/-- Reads a JSON value. -/
def read (s : String) : Except (JsonError Empty) JsonValue :=
  builder.read s.toList

end JsonValue

end DocSchema
