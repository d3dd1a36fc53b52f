import DocSchema.JsonValue.Printer
import DocSchema.JsonValue.Reader
import DocSchema.Number.Loose
import DocSchema.Schema.Output

/-!
# Reading schemas

A schema is read from JSON; members that it does not know are passed over. Truth values and numbers
may be written in several ways. What is wrong with a schema is told part by part, with the place of
each.

- `EntitySchema.ofJson_toJson`: a schema is read back from what is written of it.
-/

namespace DocSchema

/-- What can be wrong with a part of a schema. -/
inductive Mismatch
  | missing
  | textExpected
  | listExpected
  | objectExpected
  | unknownTag
  | halfCharacter
  | truthExpected
  | truthUnreadable
  | numberExpected
  | numberUnreadable
  | numberTooLong
  | numberHasFraction
  | numberNotFinite
  deriving DecidableEq, Repr

/-- What is wrong with a schema, and where. -/
structure SchemaIssue where
  place : List String
  mismatch : Mismatch
  deriving DecidableEq, Repr

/-- A part that was read, or everything that is wrong with it. -/
abbrev Checked (α : Type) := Except (List SchemaIssue) α

namespace Checked

/-- Puts two parts together; what is wrong with either is told. -/
def both {α β γ : Type} (f : α → β → γ) : Checked α → Checked β → Checked γ
  | .ok a, .ok b => .ok (f a b)
  | .ok _, .error issues => .error issues
  | .error issues, .ok _ => .error issues
  | .error issues, .error more => .error (issues ++ more)

/-- Applies a part that is a function to another part. -/
def apply {α β : Type} (f : Checked (α → β)) (a : Checked α) : Checked β :=
  both (fun g x => g x) f a

/-- Puts a name before the places of what is wrong. -/
def below {α : Type} (name : String) (a : Checked α) : Checked α :=
  a.mapError fun issues => issues.map fun issue => { issue with place := name :: issue.place }

theorem below_ok {α : Type} (name : String) (a : α) : below name (.ok a) = .ok a := rfl

/-- A part that is wrong as a whole. -/
def wrong {α : Type} (mismatch : Mismatch) : Checked α :=
  .error [{ place := [], mismatch }]

/-- The part under a name, or what stands for it when it is missing. -/
def member {α : Type} (read : JsonValue → Checked α) (otherwise : Checked α) (name : String)
    (v : JsonValue) : Checked α :=
  below name <|
    match v.member? name with
    | some part => read part
    | none => otherwise

end Checked

namespace JsonValue

/-- Reads text. -/
def asText : JsonValue → Checked String
  | .string s => .ok s
  | _ => .wrong .textExpected

/-- Reads text that may be null. -/
def asOptionalText : JsonValue → Checked (Option String)
  | .null => .ok none
  | .string s => .ok (some s)
  | _ => .wrong .textExpected

/-- The texts that stand for true, and those that stand for false. -/
def truthTexts : List String × List String :=
  (["1", "t", "true", "y", "on", "yes"], ["0", "f", "false", "n", "off", "no"])

/-- The bound of whole numbers of sixty-four bits with a sign. -/
def wordBound : Int := 0x8000000000000000

/-- The number that a float is, if it has no fraction. -/
def wholeOf (x : Binary64) : Except Mismatch Int :=
  match x.toRat? with
  | none => .error .numberNotFinite
  | some q =>
    if q.den ≠ 1 then .error .numberHasFraction
    else if -wordBound < q.num ∧ q.num < wordBound then .ok q.num
    else .error .numberTooLong

/-- The truth value that a number stands for; a number beyond sixty-four bits stands for none. -/
def truthOfInt (n : Int) : Checked Bool :=
  if n < -wordBound ∨ wordBound ≤ n then .wrong .truthExpected
  else if n = 0 then .ok false
  else if n = 1 then .ok true
  else .wrong .truthUnreadable

/-- Refuses a text with half of a surrogate pair, and reads any other. -/
def ofWholeText {α : Type} (read : String → Checked α) (s : String) : Checked α :=
  if Text.hasHalf s then .wrong .halfCharacter else read s

/-- The truth value that a text stands for. -/
def truthOfText (s : String) : Checked Bool :=
  let word := String.ofList (s.toList.map Char.toLower)
  if truthTexts.1.contains word then .ok true
  else if truthTexts.2.contains word then .ok false
  else .wrong .truthUnreadable

/-- Reads a truth value. -/
def asTruth : JsonValue → Checked Bool
  | .bool b => .ok b
  | .string s => ofWholeText truthOfText s
  | .int n => truthOfInt n
  | .float x =>
    match wholeOf x with
    | .ok n => truthOfInt n
    | .error _ => .wrong .truthExpected
  | _ => .wrong .truthExpected

/-- The whole number that a text stands for. -/
def wholeOfText (s : String) : Checked Int :=
  match Number.readLoose s.toList with
  | .ok n => .ok n
  | .error .malformed => .wrong .numberUnreadable
  | .error (.tooLong _) => .wrong .numberTooLong

/-- Reads a whole number. -/
def asWhole : JsonValue → Checked Int
  | .int n => .ok n
  | .bool b => .ok b.toNat
  | .float x =>
    match wholeOf x with
    | .ok n => .ok n
    | .error mismatch => .wrong mismatch
  | .string s => ofWholeText wholeOfText s
  | _ => .wrong .numberExpected

/-- The semantic type whose tag a text is. -/
def typeOfText (s : String) : Checked SemanticType :=
  match SemanticType.ofTag? s with
  | some t => .ok t
  | none => .wrong .unknownTag

/-- Reads the tag of a semantic type. -/
def asType : JsonValue → Checked SemanticType
  | .string s => ofWholeText typeOfText s
  | _ => .wrong .unknownTag

/-- Reads the items of a list, of which the first has an index. -/
def readItems {α : Type} (read : JsonValue → Checked α) (index : Nat) :
    List JsonValue → Checked (List α)
  | [] => .ok []
  | item :: items =>
    .both (· :: ·) (.below (Number.natText index) (read item)) (readItems read (index + 1) items)

/-- Reads a list. -/
def asList {α : Type} (read : JsonValue → Checked α) : JsonValue → Checked (List α)
  | .array items => readItems read 0 items
  | _ => .wrong .listExpected

end JsonValue

open Checked (member apply)

/-- Reads a field of a schema. -/
def FieldDefinition.ofJson (v : JsonValue) : Checked FieldDefinition :=
  match v with
  | .object _ =>
    let named := (member JsonValue.asText (.wrong .missing) "name" v).map FieldDefinition.mk
    let typed := apply named (member JsonValue.asType (.wrong .missing) "type" v)
    let arrayed := apply typed (member JsonValue.asTruth (.ok false) "is_array" v)
    let nullable := apply arrayed (member JsonValue.asTruth (.ok true) "is_nullable" v)
    let nested := apply nullable (member JsonValue.asOptionalText (.ok none) "nested_type" v)
    apply nested (member JsonValue.asWhole (.ok 0) "occurrences" v)
  | _ => .wrong .objectExpected

/-- Reads a schema (`from_dict`). -/
def EntitySchema.ofJson (v : JsonValue) : Checked EntitySchema :=
  match v with
  | .object _ =>
    let named := (member JsonValue.asText (.wrong .missing) "name" v).map EntitySchema.mk
    let fielded := apply named (member (JsonValue.asList FieldDefinition.ofJson) (.ok []) "fields" v)
    let described := apply fielded (member JsonValue.asOptionalText (.ok none) "description" v)
    let nested := apply described (member JsonValue.asTruth (.ok false) "is_nested" v)
    apply nested (member JsonValue.asOptionalText (.ok none) "source_path" v)
  | _ => .wrong .objectExpected

/-- Why a text is not read as a schema. -/
inductive SchemaFault
  | notJson
  | tooManyDigits (digits : Nat)
  | tooDeep (fault : NestingFault)
  | mismatched (issues : List SchemaIssue)
  deriving Repr

/-- Reads a schema from text (`from_json`). -/
def EntitySchema.read (text : String) : Except SchemaFault EntitySchema :=
  match JsonValue.read text with
  | .error (.tooManyDigits n) => .error (.tooManyDigits n)
  | .error (.tooDeep fault) => .error (.tooDeep fault)
  | .error _ => .error .notJson
  | .ok v => (EntitySchema.ofJson v).mapError .mismatched

/-- The text of a schema (`to_json`). -/
def EntitySchema.text (e : EntitySchema) : String :=
  e.toJson.print true

theorem asOptionalText_ofText? (s? : Option String) :
    (JsonValue.ofText? s?).asOptionalText = .ok s? := by
  cases s? <;> rfl

theorem asType_tag (t : SemanticType) : (JsonValue.string t.tag).asType = .ok t := by
  have hwhole : Text.hasHalf t.tag = false := by cases t <;> decide
  simp [JsonValue.asType, JsonValue.ofWholeText, hwhole, JsonValue.typeOfText,
    SemanticType.ofTag?_tag]

theorem FieldDefinition.ofJson_toJson (f : FieldDefinition) : ofJson f.toJson = .ok f := by
  have hlookup : ∀ name v, f.toJson.member? name = some v →
      ∀ {α : Type} (read : JsonValue → Checked α) (otherwise : Checked α) (a : α),
        read v = .ok a → member read otherwise name f.toJson = .ok a := by
    intro name v hv α read otherwise a ha
    simp [member, hv, ha, Checked.below_ok]
  have hname := hlookup "name" (.string f.name) rfl JsonValue.asText (.wrong .missing) f.name rfl
  have htype := hlookup "type" (.string f.type.tag) rfl JsonValue.asType (.wrong .missing) f.type
    (asType_tag _)
  have harray := hlookup "is_array" (.bool f.isArray) rfl JsonValue.asTruth (.ok false) f.isArray rfl
  have hnullable := hlookup "is_nullable" (.bool f.isNullable) rfl JsonValue.asTruth (.ok true)
    f.isNullable rfl
  have hnested := hlookup "nested_type" (.ofText? f.nestedType?) rfl JsonValue.asOptionalText
    (.ok none) f.nestedType? (asOptionalText_ofText? _)
  have hoccurrences := hlookup "occurrences" (.int f.occurrences) rfl JsonValue.asWhole (.ok 0)
    f.occurrences rfl
  change apply (apply (apply (apply (apply ((member JsonValue.asText (.wrong .missing) "name"
    f.toJson).map FieldDefinition.mk) _) _) _) _) _ = _
  rw [hname, htype, harray, hnullable, hnested, hoccurrences]
  rfl

theorem readItems_map (fields : List FieldDefinition) (index : Nat) :
    JsonValue.readItems FieldDefinition.ofJson index (fields.map FieldDefinition.toJson) =
      .ok fields := by
  induction fields generalizing index with
  | nil => rfl
  | cons f fields ih =>
    simp [JsonValue.readItems, FieldDefinition.ofJson_toJson, ih, Checked.below_ok, Checked.both]

theorem EntitySchema.ofJson_toJson (e : EntitySchema) : ofJson e.toJson = .ok e := by
  have hlookup : ∀ name v, e.toJson.member? name = some v →
      ∀ {α : Type} (read : JsonValue → Checked α) (otherwise : Checked α) (a : α),
        read v = .ok a → member read otherwise name e.toJson = .ok a := by
    intro name v hv α read otherwise a ha
    simp [member, hv, ha, Checked.below_ok]
  have hname := hlookup "name" (.string e.name) rfl JsonValue.asText (.wrong .missing) e.name rfl
  have hfields := hlookup "fields" _ rfl (JsonValue.asList FieldDefinition.ofJson) (.ok []) e.fields
    (readItems_map e.fields 0)
  have hdescription := hlookup "description" (.ofText? e.description?) rfl JsonValue.asOptionalText
    (.ok none) e.description? (asOptionalText_ofText? _)
  have hnested := hlookup "is_nested" (.bool e.isNested) rfl JsonValue.asTruth (.ok false)
    e.isNested rfl
  have hpath := hlookup "source_path" (.ofText? e.sourcePath?) rfl JsonValue.asOptionalText
    (.ok none) e.sourcePath? (asOptionalText_ofText? _)
  change apply (apply (apply (apply ((member JsonValue.asText (.wrong .missing) "name"
    e.toJson).map EntitySchema.mk) _) _) _) _ = _
  rw [hname, hfields, hdescription, hnested, hpath]
  rfl

end DocSchema
