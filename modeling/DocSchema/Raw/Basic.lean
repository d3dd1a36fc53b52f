import DocSchema.Calendar.Moment
import DocSchema.Number.Decimal
import DocSchema.Text.Search
import DocSchema.Value.Kind

/-!
# Raw values

What a store, a configuration file or a caller hands over: scalars of many kinds, byte strings in
several wrappers, dates, sequences, sets, mappings in insertion order with keys of any kind, and values
of kinds that are of no concern here. A raw value may also hold a node of a value tree that was built
beforehand.

- `IsPlain`: a raw value without nodes built beforehand, as stores hand it over.
-/

namespace DocSchema

/-- The wrapper of a byte string. -/
inductive BytesForm
  | immutable
  | mutable
  | view
  | tagged (subtype : Nat)
  deriving DecidableEq, Repr

/-- Values of kinds that are of no concern here. -/
inductive Foreign
  /-- A pattern, with its source as shown. -/
  | pattern (source : String) (flags : Nat)
  | timestamp (seconds increment : Int)
  | leastKey
  | greatestKey
  /-- A reference to a document, as shown. A bare one tells a collection and an identifier and nothing
  else; of any other, it is said why it is not bare. -/
  | reference (shown : String) (notBare? : Option String)
  | unknown
  deriving DecidableEq, Repr

/-- A value as it is handed over. -/
inductive Raw
  | null
  | bool (b : Bool)
  | int (n : Int)
  | long (n : Int)
  | float (x : Binary64)
  | decimal (d : Decimal)
  | wideDecimal (d : Decimal)
  | text (s : String)
  | code (s : String)
  | identifier (hex : String)
  | bytes (form : BytesForm) (data : List UInt8)
  | moment (m : Moment)
  | date (d : Date)
  | uuid (s : String)
  | list (items : List Raw)
  | tuple (items : List Raw)
  | map (entries : List (Raw × Raw))
  | set (items : List Raw)
  | foreign (f : Foreign)
  | built (kind : ValueKind) (payload : Raw)
  deriving Repr, Inhabited

namespace Raw

/-- A mapping whose keys are text. -/
def ofFields (fields : List (String × Raw)) : Raw :=
  .map (fields.map fun (key, value) => (.text key, value))

/-- The text of a value that is one. -/
def text? : Raw → Option String
  | .text s | .code s => some s
  | _ => none

/-- The number of a whole number that is not a truth value. -/
def int? : Raw → Option Int
  | .int n | .long n => some n
  | _ => none

mutual
/-- Whether no part of a value was built beforehand. -/
def isPlain : Raw → Bool
  | .list items | .tuple items | .set items => isPlainList items
  | .map entries => isPlainEntries entries
  | .built _ _ => false
  | _ => true
/-- Whether no part of some values was built beforehand. -/
def isPlainList : List Raw → Bool
  | [] => true
  | item :: items => isPlain item && isPlainList items
/-- Whether no part of some entries was built beforehand. -/
def isPlainEntries : List (Raw × Raw) → Bool
  | [] => true
  | (key, value) :: entries => isPlain key && isPlain value && isPlainEntries entries
end

/-- A raw value without nodes built beforehand. -/
abbrev IsPlain (r : Raw) : Prop := r.isPlain = true

/-- Whether a value counts as true. -/
def isTrue : Raw → Bool
  | .null => false
  | .bool b => b
  | .int n | .long n => n != 0
  | .float x => !x.isZero
  | .decimal d => !d.isZero
  | .text s | .code s => s != ""
  | .bytes _ data => !data.isEmpty
  | .list items | .tuple items | .set items => !items.isEmpty
  | .map entries => !entries.isEmpty
  | _ => true

/-- The name of the type of a value, as messages about its use name it. -/
def typeName : Raw → String
  | .null => "NoneType"
  | .bool _ => "bool"
  | .int _ => "int"
  | .long _ => "Int64"
  | .float _ => "float"
  | .decimal _ => "decimal.Decimal"
  | .wideDecimal _ => "Decimal128"
  | .text _ => "str"
  | .code _ => "Code"
  | .identifier _ => "ObjectId"
  | .bytes .immutable _ => "bytes"
  | .bytes .mutable _ => "bytearray"
  | .bytes .view _ => "memoryview"
  | .bytes (.tagged _) _ => "Binary"
  | .moment _ => "datetime.datetime"
  | .date _ => "datetime.date"
  | .uuid _ => "UUID"
  | .list _ => "list"
  | .tuple _ => "tuple"
  | .map _ => "dict"
  | .set _ => "set"
  | .foreign (.pattern _ _) => "Regex"
  | .foreign (.timestamp _ _) => "Timestamp"
  | .foreign .leastKey => "MinKey"
  | .foreign .greatestKey => "MaxKey"
  | .foreign (.reference _ _) => "DBRef"
  | .foreign .unknown => "object"
  | .built _ _ => "Value"

/-- The name of the type of a value without the name of its module. -/
def shortTypeName (r : Raw) : String :=
  String.ofList (Text.afterLast '.' r.typeName.toList)

/-- The name of the type of a value with the names of the modules that hold it. -/
def longTypeName (r : Raw) : String :=
  let home := match r with
    | .long _ => "bson.int64."
    | .wideDecimal _ => "bson.decimal128."
    | .code _ => "bson.code."
    | .identifier _ => "bson.objectid."
    | .bytes (.tagged _) _ => "bson.binary."
    | .uuid _ => "uuid."
    | .foreign (.pattern _ _) => "bson.regex."
    | .foreign (.timestamp _ _) => "bson.timestamp."
    | .foreign .leastKey => "bson.min_key."
    | .foreign .greatestKey => "bson.max_key."
    | .foreign (.reference _ _) => "bson.dbref."
    | _ => ""
  home ++ r.typeName

/-- The elements of a value that can be gone through: the items of a sequence or a set, the keys of a
mapping, the characters of a text, the bytes of a byte string. -/
def elements? : Raw → Option (List Raw)
  | .list items | .tuple items | .set items => some items
  | .map entries => some (entries.map Prod.fst)
  | .text s | .code s => some (s.toList.map fun c => .text (String.singleton c))
  | .bytes _ data => some (data.map fun b => .int b.toNat)
  | _ => none

end Raw

end DocSchema
