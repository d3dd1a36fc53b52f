import DocSchema.Naming
import DocSchema.Report
import DocSchema.Sampling.Run
import DocSchema.Schema.Build
import DocSchema.Schema.Reader
import DocSchema.Text.Utf8

/-!
# Introspecting a collection

A run over a collection, and the schemas of what it has seen. An empty collection has the schema of
its identifier alone.
-/

namespace DocSchema

/-- The collection to introspect, and the name of its type, which may be missing. -/
structure Target where
  collection : Raw
  typeName : Raw := .null
  deriving Repr

/-- Why an introspection fails. -/
inductive IntrospectionError
  | run (collection : String) (error : RunError)
  /-- A part of the result does not fit. -/
  | mismatched (issue : SchemaIssue)
  /-- A value of the wrong kind. -/
  | misuse (m : Misuse)
  /-- The name of a collection that no message can tell. -/
  | nameNotShown (fault : Raw.ShowFault)
  deriving Repr

namespace IntrospectionError

/-- Whether the error is one of the introspection itself, which spares other collections. -/
def isOwn : IntrospectionError → Bool
  | .run _ e => e.isOwn
  | _ => false

/-- The message about an error. -/
def message : IntrospectionError → String
  | .run collection error => error.message collection
  | .mismatched issue => ".".intercalate issue.place ++ " does not fit"
  | .misuse m => m.message
  | .nameNotShown fault => fault.message

end IntrospectionError

namespace Introspection

variable {σ : Type}

/-- The name of the type of a target: the one that is given, or one made of the collection's. -/
def typeNameOf (t : Target) : Except IntrospectionError String :=
  if t.typeName.isTrue then .ok t.typeName.plainText
  else
    match t.collection with
    | .text s | .code s => .ok (Naming.typeName s)
    | .bytes .immutable _ | .bytes (.tagged _) _ => .error (.misuse .textInBytes)
    | .bytes .mutable _ => .error (.misuse t.collection.keyMisuse)
    | collection => .error (.misuse (.noPart collection.typeName "lower"))

/-- A part of the result that must be text; it may come as bytes. -/
def textPart (part : String) (r : Raw) : Except IntrospectionError String :=
  let wrong (mismatch : Mismatch) := .error (.mismatched { place := [part], mismatch })
  match r with
  | .text s | .code s => .ok s
  | .bytes .view _ => wrong .textExpected
  | .bytes _ data =>
    match Text.decode data with
    | .ok cs => .ok (String.ofList cs)
    | .error _ => wrong .halfCharacter
  | _ => wrong .textExpected

/-- The name under which a type appears in its schema. -/
def entityName (t : Target) (typeName : String) : Except IntrospectionError String :=
  if t.typeName.isTrue then textPart "name" t.typeName else .ok typeName

/-- The schemas of a completed run. -/
def schemas (extraction : ExtractionSettings) (t : Target) (typeName : String)
    (c : Sampling.Completed) : Except IntrospectionError (EntitySchema × List EntitySchema) :=
  if c.metrics.stopReason? = some .emptyCollection then do
    let identifier ← textPart "name" extraction.identifierField
    let name ← entityName t typeName
    .ok (minimalSchema c.accumulator.collection name identifier, [])
  else if extraction.identifierField.isKey then do
    let identifier? := extraction.identifierField.text?
    let name ← entityName t typeName
    .ok ({ Schema.entity identifier? c.accumulator with name },
      Schema.nestedEntities identifier? c.accumulator)
  else .error (.misuse extraction.identifierField.keyMisuse)

/-- The warnings of a report on a completed run. -/
def warnings (c : Sampling.Completed) : List Notice :=
  c.warnings ++
    if c.metrics.stopReason? = some .emptyCollection then [.emptyCollection]
    else if c.accumulator.documentsSkipped = 0 then []
    else [.malformed c.accumulator.documentsSkipped]

/-- The notices after a completed run. -/
def closingNotices (c : Sampling.Completed) (entity : EntitySchema) (nested : List EntitySchema) :
    List Notice :=
  (if c.metrics.stopReason? = some .emptyCollection then [.emptyCollection] else []) ++
    [.introspected entity.name entity.fields.length nested.length]

/-- An introspection: its result, what it reported, and what it asked of the store. -/
structure Outcome (σ : Type) where
  result : Except IntrospectionError Report
  notices : List Notice
  counted : Bool := false
  requests : List Nat := []
  store : σ

/-- The report on a completed run, with the notices about it. -/
def report (extraction : ExtractionSettings) (t : Target) (typeName : String) (times : RunTimes)
    (c : Sampling.Completed) : Except IntrospectionError Report × List Notice :=
  match schemas extraction t typeName c with
  | .error e => (.error e, [])
  | .ok (entity, nested) =>
    let text := c.accumulator.collection
    ((textPart "collection" t.collection).map fun collection =>
      { collection, entity, nested, metrics := c.metrics, times
        warnings := (warnings c).map (Notice.message text)
        collisions := c.accumulator.collisions },
      closingNotices c entity nested)

/-- Why a run ends whose first message, after the count, cannot tell the name of the collection. -/
def untoldError (collection : String) (fault : Raw.ShowFault) (answer : Except SourceFault Raw) :
    IntrospectionError :=
  match answer with
  | .error _ => .nameNotShown fault
  | .ok r =>
    match r.toInt with
    | .ok _ => .nameNotShown fault
    | .error f => .run collection (.badCount f)

/-- A run over a collection whose name cannot be told. It ends once the documents are counted. -/
def untoldRun (plan : Sampling.Plan σ) (collection : String) (fault : Raw.ShowFault) (store : σ) : Outcome σ :=
  match Sampling.deadlineOf plan with
  | .error e => { result := .error (.run collection e), notices := [], store }
  | .ok _ =>
    let (answer, store) := plan.store.count store
    { result := .error (untoldError collection fault answer), notices := [], counted := true, store }

/-- A run over a collection whose name can be told, and the report on it. -/
def reportedRun (plan : Sampling.Plan σ) (schedule : Sampling.Schedule) (t : Target) (typeName : String)
    (cancelled : Bool) (times : RunTimes) (store : σ) : Outcome σ :=
  let collection := t.collection.plainText
  let outcome := Sampling.run plan schedule collection typeName cancelled store
  let (result, closing) := match outcome.result with
    | .error e => (.error (.run collection e), [])
    | .ok c => report plan.extraction t typeName times c
  { result
    notices := outcome.notices ++ closing
    counted := outcome.counted
    requests := outcome.requests
    store := outcome.store }

/-- Introspects a collection of a store (`introspect_collection`). -/
def introspect (plan : Sampling.Plan σ) (schedule : Sampling.Schedule) (t : Target)
    (cancelled : Bool) (times : RunTimes) (store : σ) : Outcome σ :=
  match typeNameOf t with
  | .error e => { result := .error e, notices := [], store }
  | .ok typeName =>
    match t.collection.showFault? with
    | some fault => untoldRun plan t.collection.plainText fault store
    | none => reportedRun plan schedule t typeName cancelled times store

end Introspection

end DocSchema
