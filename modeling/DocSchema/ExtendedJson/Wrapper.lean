import DocSchema.ExtendedJson.DateText
import DocSchema.Raw.Equality
import DocSchema.Text.Base64
import DocSchema.Text.Uuid

/-!
# Wrappers of extended JSON

An object with a key that names a kind of value stands for a value of that kind. The first such key
decides; what else the object may hold depends on the kind.
-/

namespace DocSchema.ExtendedJson

open Text (quoted)

/-- The members of an object. -/
abbrev Members := List (String × Raw)

/-- An object as messages show it. -/
def shown (doc : Members) : String :=
  (Raw.ofFields doc).shown

/-- Refuses an object with more than one member. -/
def single (key : String) (doc : Members) : Except Fault Unit :=
  if doc.length = 1 then .ok ()
  else wrongType ("Bad " ++ key ++ ", extra field(s): " ++ shown doc)

/-- The value of a member that must be text. -/
def textOf (key : String) (doc : Members) (r : Raw) : Except Fault String :=
  match r.text? with
  | some s => .ok s
  | none => wrongType (key ++ " must be string: " ++ shown doc)

/-- A number made of a value; one that is out of range, or of a wrong kind, is a grave fault. -/
def numberOf {α : Type} (result : Except NumberFault α) : Except Fault α :=
  match result with
  | .ok a => .ok a
  | .error fault =>
    if fault.isType then wrongType fault.message
    else if fault.isRange then .error (.grave (.range fault.message))
    else passOver

/-- The part of a value under a key. -/
def part (key : String) (r : Raw) : Except Fault Raw :=
  match r with
  | .map entries =>
    match Raw.field? key entries with
    | some value => .ok value
    | none => .error (.grave (.missingPart key))
  | .text _ | .code _ => wrongType "string indices must be integers, not 'str'"
  | .list _ => wrongType "list indices must be integers or slices, not str"
  | .bytes .immutable _ | .bytes (.tagged _) _ =>
    wrongType "byte indices must be integers or slices, not str"
  | r => wrongType (quoted r.typeName ++ " object is not subscriptable")

/-- The bytes of an identifier, written as pairs of hexadecimal digits with blanks between them. -/
def identifierBytes : List Char → Option (List UInt8)
  | [] => some []
  | a :: rest =>
    if Number.isSpace a then identifierBytes rest
    else
      match rest with
      | [] => none
      | b :: rest => do
        let byte ← Text.readHex [a, b]
        let bytes ← identifierBytes rest
        some (byte ++ bytes)

/-- Refuses a value that is no identifier. -/
def noIdentifier {α : Type} (r : Raw) : Except Fault α :=
  wrongType ("id must be an instance of (bytes, str, ObjectId), not <class '" ++ r.longTypeName ++
    "'>")

/-- The identifier of a value: an identifier, its digits, or its twelve bytes. -/
def identifier (r : Raw) : Except Fault Raw :=
  match r with
  | .identifier hex => .ok (.identifier hex)
  | .bytes _ data =>
    if data.length = 12 then .ok (.identifier (Text.hexText data)) else noIdentifier r
  | .null => .ok (.identifier "000000000000000000000000")
  | .text s | .code s => do
    if s.toList.length = 24 then
      let bytes ← orPassOver (identifierBytes s.toList)
      .ok (.identifier (Text.hexText bytes))
    else passOver
  | r => noIdentifier r

/-- Bytes of a subtype; the plain subtype has no mark. -/
def bytesOf (data : List UInt8) (subtype : Int) : Except Fault Raw :=
  if subtype = 0 then .ok (.bytes .immutable data)
  else if 0 < subtype ∧ subtype < 256 then .ok (.bytes (.tagged subtype.toNat) data)
  else passOver

/-- The whole number of a text in base sixteen. -/
def hexNumber (s : String) : Except Fault Int :=
  orPassOver (Number.readIntIn 16 s.toList).toOption

/-- Bytes with their subtype in a member of its own. -/
def looseBinary (data type : Raw) : Except Fault Raw := do
  let typeText ← match type with
    | .text s | .code s => .ok s
    | .bool b => .ok (Number.padded 16 2 b.toNat)
    | .int n | .long n =>
      .ok (if n < 0 then "-" ++ Number.padded 16 1 n.natAbs else Number.padded 16 2 n.natAbs)
    | _ => wrongType "int() can't convert non-string with explicit base"
  let subtype ← hexNumber typeText
  let subtype ←
    if 0xffffff80 ≤ subtype then hexNumber (String.ofList (typeText.toList.drop 6))
    else .ok subtype
  match data.text? with
  | none => .error (.grave (.misuse (.noPart data.typeName "encode")))
  | some s => do
    let bytes ← orPassOver (Text.Base64.decode s.toList)
    bytesOf bytes subtype

/-- Bytes with their subtype in an object. -/
def strictBinary (doc : Members) (binary : Raw) : Except Fault Raw := do
  let base64 ← part "base64" binary
  let subType ← part "subType" binary
  match base64.text? with
  | none => wrongType ("$binary base64 must be a string: " ++ shown doc)
  | some text =>
    match subType.text? with
    | none => wrongType ("$binary subType must be a string at most 2 characters: " ++ shown doc)
    | some type =>
      if 2 < type.toList.length then
        wrongType ("$binary subType must be a string at most 2 characters: " ++ shown doc)
      else
        match binary with
        | .map [_, _] => do
          let bytes ← orPassOver (Text.Base64.decode text.toList)
          let subtype ← hexNumber type
          bytesOf bytes subtype
        | _ =>
          wrongType ("$binary must include only \"base64\" and \"subType\" components: " ++ shown doc)

/-- The flags of a pattern. -/
def flagsOf (options : Raw) : Except Fault Nat :=
  match options.elements? with
  | none => .error (.grave (.misuse (.notIterable options.typeName)))
  | some items =>
    match items.find? (!·.isKey) with
    | some item => .error (.grave (.misuse item.keyMisuse))
    | none =>
      let table := [("i", 2), ("l", 4), ("m", 8), ("s", 16), ("u", 32), ("x", 64)]
      .ok (items.foldl (fun flags item =>
        flags ||| ((item.text?.bind fun s => List.lookup s table).getD 0)) 0)

/-- A pattern with its options in a member of its own; another operator of the same name stays as
it is. -/
def loosePattern (doc : Members) (pattern : Raw) : Except Fault Raw :=
  match pattern with
  | .text s | .code s => do
    let flags ← flagsOf ((doc.lookup "$options").getD (.text ""))
    .ok (.foreign (.pattern (quoted s) flags))
  | .bytes .immutable _ | .bytes (.tagged _) _ => do
    let flags ← flagsOf ((doc.lookup "$options").getD (.text ""))
    .ok (.foreign (.pattern pattern.shown flags))
  | _ => .ok (Raw.ofFields doc)

/-- The number of parts of a value. -/
def lengthOf (r : Raw) : Except Fault Nat :=
  match r.elements? with
  | some items => .ok items.length
  | none => wrongType ("object of type " ++ quoted r.typeName ++ " has no len()")

/-- A pattern with its options in an object. -/
def strictPattern (doc : Members) (regex : Raw) : Except Fault Raw := do
  let size ← lengthOf regex
  if size = 2 then
    let options ← part "options" regex
    match options.text? with
    | none =>
      wrongType ("Bad $regularExpression options, options must be string, was type <class '" ++
        options.longTypeName ++ "'>")
    | some opts => do
      let pattern ← part "pattern" regex
      let flags ← flagsOf (.text opts)
      match pattern with
      | .text s | .code s => .ok (.foreign (.pattern (quoted s) flags))
      | .bytes _ _ => .ok (.foreign (.pattern pattern.shown flags))
      | _ => wrongType ("pattern must be a string, not <class '" ++ pattern.longTypeName ++ "'>")
  else
    wrongType ("Bad $regularExpression must include only \"pattern and \"options\" components: " ++
      shown doc)

/-- The whole number of a part of a timestamp; a truth value is one. -/
def timestampNumber (name : String) (r : Raw) : Except Fault Int :=
  let number? : Option Int := match r with
    | .bool b => some b.toNat
    | r => r.int?
  match number? with
  | none =>
    wrongType (name ++ " must be an instance of int, not <class '" ++ r.longTypeName ++ "'>")
  | some n => .ok n

/-- The seconds of a timestamp, which may be those of a moment. -/
def timestampSeconds (r : Raw) : Except Fault Int :=
  match r with
  | .moment m =>
    .ok (Int.fdiv (m.universalMicros - (Date.mk 1970 1 1).dayNumber * Moment.dayMicros) 1000000)
  | r => timestampNumber "time" r

/-- A timestamp, of two whole numbers of thirty-two bits. -/
def timestamp (doc : Members) (tsp : Raw) : Except Fault Raw := do
  single "$timestamp" doc
  let t ← part "t" tsp
  let i ← part "i" tsp
  let seconds ← timestampSeconds t
  let increment ← timestampNumber "inc" i
  let fits (n : Int) : Bool := decide (0 ≤ n ∧ n < 4294967296)
  if fits seconds && fits increment then .ok (.foreign (.timestamp seconds increment)) else passOver

/-- The key before or after all others. What is said of surplus members names the former in both
cases. -/
def extremeKey (key : String) (doc : Members) (mark : Raw) (f : Foreign) : Except Fault Raw :=
  match mark with
  | .int 1 =>
    if doc.length = 1 then .ok (.foreign f)
    else wrongType ("Bad $minKey, extra field(s): " ++ shown doc)
  | _ =>
    if f = .leastKey then wrongType (key ++ " value must be 1: " ++ shown doc)
    else wrongType ("('" ++ key ++ " value must be 1: %s', (" ++ shown doc ++ ",))")

/-- A program text, possibly with a scope. -/
def program (doc : Members) (code : Raw) : Except Fault Raw :=
  if doc.all fun (key, _) => key == "$code" || key == "$scope" then
    match code.text? with
    | none =>
      wrongType ("code must be an instance of str, not <class '" ++ code.longTypeName ++ "'>")
    | some s =>
      match doc.lookup "$scope" with
      | none | some .null | some (.map _) => .ok (.code s)
      | some scope =>
        wrongType ("scope must be an instance of dict, not <class '" ++ scope.longTypeName ++ "'>")
  else wrongType ("Bad $code, extra field(s): " ++ shown doc)

/-- Why a reference is not bare: its parts in order, and the first that does not belong there. -/
def notBare? (collection id database : Raw) (others : Members) : Option String :=
  let isNamed := database.text?.isSome
  let parts := [("$ref", collection), ("$id", id)] ++ (if isNamed then [("$db", database)] else []) ++
    others
  let pairs := parts.map fun (key, r) => "(" ++ quoted key ++ ", " ++ r.shown ++ ")"
  let told (flaw : String) : String :=
    "Bad $dbPointer, " ++ flaw ++ ": SON([" ++ ", ".intercalate pairs ++ "])"
  match isNamed, id, others with
  | true, _, _ => some (told "extra field $db")
  | false, .identifier _, [] => none
  | false, .identifier _, _ => some (told "extra field(s) in DBRef")
  | false, _, _ => some (told "$id must be an ObjectId")

/-- A reference to the document of an identifier in a collection, and of what else it tells. -/
def referenceTo (collection id database : Raw) (others : Members) : Raw :=
  let parts := [collection, id] ++ if database.text?.isSome then [database] else []
  let shown := ", ".intercalate (parts.map Raw.shown ++
    others.map fun (key, r) => key ++ "=" ++ r.shown)
  .foreign (.reference ("DBRef(" ++ shown ++ ")") (notBare? collection id database others))

/-- A reference to a document; an object that is none stays as it is. -/
def reference (doc : Members) : Except Fault Raw :=
  let isText (r : Raw) : Bool := r.text?.isSome
  let hasRef := (doc.lookup "$ref").any isText
  let hasId := (doc.lookup "$id").isSome
  let fitDb := match doc.lookup "$db" with
    | none | some .null => true
    | some r => isText r
  if hasRef && hasId && fitDb then
    match doc.find? fun (key, _) => ["self", "collection", "id", "database"].contains key with
    | some (key, _) => wrongType ("DBRef.__init__() got multiple values for argument " ++ quoted key)
    | none =>
      let member (key : String) : Raw := (doc.lookup key).getD .null
      let others := doc.filter fun (key, _) => !(["$ref", "$id", "$db"].contains key)
      .ok (referenceTo (member "$ref") (member "$id") (member "$db") others)
  else .ok (Raw.ofFields doc)

/-- A pointer to a document, which is a bare reference. -/
def pointer (doc : Members) (target : Raw) : Except Fault Raw :=
  match target with
  | .foreign (.reference _ none) => .ok target
  | .foreign (.reference _ (some flaw)) => wrongType flaw
  | _ => wrongType ("Bad $dbPointer, expected a DBRef: " ++ shown doc)

/-- The moment of a date. -/
def date (dtm : Raw) : Except Fault Raw :=
  match dtm with
  | .text s | .code s => (readDate s).map .moment
  | r => do
    let millis ← numberOf r.toInt
    (ofMillis millis).map .moment

/-- A decimal number of 128 bits. -/
def wideDecimal (s : String) : Except Fault Raw :=
  match Decimal.readWide s.toList with
  | .ok d => .ok (.wideDecimal d)
  | .error .payload => passOver
  | .error fault => .error (.grave (.decimal fault))

/-- The keys that name a kind of value. -/
def keys : List String :=
  ["$oid", "$ref", "$date", "$regex", "$minKey", "$maxKey", "$binary", "$code", "$uuid",
    "$undefined", "$numberLong", "$timestamp", "$numberDecimal", "$dbPointer",
    "$regularExpression", "$symbol", "$numberInt", "$numberDouble"]

/-- The value of an object under a key that names its kind. -/
def unwrap (key : String) (doc : Members) (r : Raw) : Except Fault Raw :=
  match key with
  | "$oid" => do
    single key doc
    identifier r
  | "$ref" => reference doc
  | "$date" => do
    single key doc
    date r
  | "$regex" => loosePattern doc r
  | "$minKey" => extremeKey key doc r .leastKey
  | "$maxKey" => extremeKey key doc r .greatestKey
  | "$binary" =>
    match doc.lookup "$type" with
    | some type => looseBinary r type
    | none => strictBinary doc r
  | "$code" => program doc r
  | "$uuid" => do
    single key doc
    match r.text? with
    | none => wrongType ("$uuid must be a string: " ++ shown doc)
    | some s => (orPassOver (Text.Uuid.read s)).map (.bytes (.tagged 4))
  | "$numberLong" => do
    single key doc
    let n ← numberOf r.toInt
    .ok (.long n)
  | "$timestamp" => timestamp doc r
  | "$numberDecimal" => do
    single key doc
    let s ← textOf key doc r
    wideDecimal s
  | "$dbPointer" => do
    single key doc
    pointer doc r
  | "$regularExpression" => do
    single key doc
    strictPattern doc r
  | "$symbol" => do
    single key doc
    .ok (.text r.plainText)
  | "$numberInt" => do
    single key doc
    let s ← textOf key doc r
    let n ← numberOf (Raw.text s).toInt
    .ok (.int n)
  | "$numberDouble" => do
    single key doc
    let s ← textOf key doc r
    let x ← numberOf (Raw.text s).toFloat
    .ok (.float x)
  | _ => .ok .null

/-- Members with one more; a member of the same name keeps its place and takes the value. -/
def insertMember (name : String) (value : Raw) : Members → Members
  | [] => [(name, value)]
  | (other, held) :: members =>
    if other = name then (other, value) :: members
    else (other, held) :: insertMember name value members

/-- The value of an object. -/
def ofMembers (members : Members) : Except Fault Raw :=
  let doc := members.foldl (fun held (name, value) => insertMember name value held) []
  match doc.find? fun (key, _) => keys.contains key with
  | some (key, r) => unwrap key doc r
  | none => .ok (Raw.ofFields doc)

end DocSchema.ExtendedJson
