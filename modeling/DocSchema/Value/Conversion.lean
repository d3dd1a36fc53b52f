import DocSchema.Raw.Equality
import DocSchema.Value.Basic
import DocSchema.Value.Fault

/-!
# Values of raw values

Every raw value becomes a tree of nodes (`from_python`). A mapping with one entry whose key names a scalar of the
store is unwrapped (`_from_extended_json`); containers below the greatest depth become opaque leaves. A container
above it is gone into if there is room on the stack.
-/

namespace DocSchema

/-- The scalars of the store that a mapping with one entry can stand for. -/
inductive Wrapper
  | identifier
  | binary
  | text
  | int
  | float
  deriving DecidableEq, Repr

/-- The wrapper that a key names. -/
def Wrapper.ofKey? (key : String) : Option Wrapper :=
  [("$oid", Wrapper.identifier), ("$binary", .binary), ("$date", .text), ("$numberLong", .int),
    ("$numberInt", .int), ("$numberDouble", .float), ("$numberDecimal", .float)].lookup key

namespace Value

/-- The greatest depth at which containers are converted. -/
def maxDepth : Int := 100

/-- The payload of a leaf that is not looked into. -/
def ofPayload : Raw → Value
  | .bytes _ data => .binary (some data)
  | _ => .untyped

/-- Parts of a payload that are no nodes. -/
def ofParts (parts : List Raw) : Value :=
  .sequence (parts.map (.unfit none))

mutual
/-- A node built beforehand with a payload. -/
def ofBuilt (kind : ValueKind) (payload : Raw) : Value :=
  match kind, payload with
  | .null, _ => .null
  | .bool, payload => .bool payload.isTrue
  | .int, .bool b => .int b.toNat
  | .int, .int n | .int, .long n => .int n
  | .float, payload => match payload.toFloat with
    | .ok x => .float x
    | .error _ => .unfit (some .float) payload
  | .string, .text s | .string, .code s => .string s
  | .identifier, payload => .identifier payload.plainText
  | .sequence, .list items | .sequence, .tuple items => .sequence (ofBuiltItems items)
  | .sequence, .text s | .sequence, .code s => ofParts (s.toList.map fun c => .text c.toString)
  | .sequence, .bytes _ data => ofParts (data.map fun byte => .int byte.toNat)
  | .map, .map entries =>
    if entries.all fun (key, _) => key.text?.isSome then .map (ofBuiltEntries entries)
    else .unfit (some .map) payload
  | .binary, payload => ofPayload payload
  | kind, payload => .unfit (some kind) payload
/-- The items of a node built beforehand. -/
def ofBuiltItems : List Raw → List Value
  | [] => []
  | .built kind payload :: items => ofBuilt kind payload :: ofBuiltItems items
  | item :: items => .unfit none item :: ofBuiltItems items
/-- The entries of a node built beforehand, under its text keys. -/
def ofBuiltEntries : List (Raw × Raw) → List (String × Value)
  | [] => []
  | (key, .built kind payload) :: entries =>
    (key.plainText, ofBuilt kind payload) :: ofBuiltEntries entries
  | (key, value) :: entries => (key.plainText, .unfit none value) :: ofBuiltEntries entries
end

/-- The number in a wrapper; a value that is none makes the document malformed, and one that is out
of range is a fault of the number. -/
def unwrapNumber [Stack] (depth : Int) (key : String) (raw : Raw) (result : Except NumberFault Value) :
    Except DocumentFault Value :=
  match result with
  | .ok v => .ok v
  | .error fault =>
    if fault.isRange then .error (.number fault)
    else .error (.showing depth raw (.wrapper key))

/-- The text in a wrapper. -/
def unwrapText [Stack] (depth : Int) (make : String → Value) (raw : Raw) : Except DocumentFault Value :=
  match raw.tellFault? depth with
  | none => .ok (make raw.plainText)
  | some f => .error (.ofShow f)

/-- The scalar in a wrapper at a depth. -/
def unwrap [Stack] (depth : Int) (key : String) (wrapper : Wrapper) (raw : Raw) : Except DocumentFault Value :=
  match wrapper with
  | .identifier => unwrapText depth .identifier raw
  | .binary => .ok (ofPayload raw)
  | .text =>
    match raw with
    | .map [] => .ok (.string "")
    | .map ((_, first) :: _) => unwrapText depth .string first
    | raw => unwrapText depth .string raw
  | .int => unwrapNumber depth key raw (raw.toInt.map .int)
  | .float => unwrapNumber depth key raw (raw.toFloat.map .float)

/-- The wrapper that a mapping is, with its key and payload. -/
def wrapper? : List (Raw × Raw) → Option (String × Wrapper × Raw)
  | [(key, raw)] => do
    let key ← key.text?
    let wrapper ← Wrapper.ofKey? key
    some (key, wrapper, raw)
  | _ => none

/-- The floating-point number of a decimal text. -/
def ofDecimalText (text : String) : Except DocumentFault Value :=
  match (Raw.text text).toFloat with
  | .ok x => .ok (.float x)
  | .error fault => .error (.number fault)

mutual
/-- The value of a raw value that stands at a depth. -/
def ofRaw [Stack] (depth : Int) (r : Raw) : Except DocumentFault Value :=
  match r with
  | .built kind payload => .ok (ofBuilt kind payload)
  | .null => .ok .null
  | .bool b => .ok (.bool b)
  | .int n | .long n => .ok (.int n)
  | .float x => .ok (.float x)
  | .decimal d => ofDecimalText d.text
  | .wideDecimal d => ofDecimalText d.wideText
  | .text s | .code s => .ok (.string s)
  | .identifier hex => .ok (.identifier hex)
  | .bytes _ data => .ok (.binary (some data))
  | .moment m => .ok (.string m.text)
  | .date d => .ok (.string d.text)
  | .uuid s => .ok (.string s)
  | .list items | .tuple items =>
    if maxDepth ≤ depth then .ok .untyped
    else if Stack.opens [] depth r then
      (@ofRawItems (Stack.inside ‹_› r) (depth + 1) items).map .sequence
    else .error (.tooDeep .converted)
  | .map entries =>
    match wrapper? entries with
    | some (key, wrapper, raw) => unwrap depth key wrapper raw
    | none =>
      if maxDepth ≤ depth then .ok .untyped
      else if Stack.opens [] depth r then
        (@ofRawEntries (Stack.inside ‹_› r) (depth + 1) entries).map .map
      else .error (.tooDeep .converted)
  | .set _ | .foreign _ => .ok .untyped
/-- The values of the items of a sequence. -/
def ofRawItems [Stack] (depth : Int) : List Raw → Except DocumentFault (List Value)
  | [] => .ok []
  | item :: items => do
    let value ← ofRaw depth item
    let values ← ofRawItems depth items
    .ok (value :: values)
/-- The values of the entries of a mapping, whose keys must be text. -/
def ofRawEntries [Stack] (depth : Int) : List (Raw × Raw) → Except DocumentFault (List (String × Value))
  | [] => .ok []
  | (key, raw) :: entries =>
    match key.text? with
    | none => .error (.showing depth key (.keyNotText key.shortTypeName))
    | some name => do
      let value ← ofRaw depth raw
      let values ← ofRawEntries depth entries
      .ok ((name, value) :: values)
end

end Value

end DocSchema
