import DocSchema.Config.Fault
import DocSchema.Introspection
import DocSchema.Source.Basic

/-!
# Introspecting the collections of a configuration

The collections of a configuration are introspected one after the other. What goes wrong with one of
them is noted and spares the others; the results and the failures are kept by the names of the
collections, in their order. All else ends the whole introspection.

- `runEach_map_fst`: every collection has its run, in order.
- `collections_all`: without a name, all collections are introspected.
-/

namespace DocSchema

/-- The results of an introspection of several collections, and what went wrong with others. -/
structure BatchReport where
  reports : List (Raw × Report) := []
  failures : List (Raw × String) := []

/-- Whether no collection has failed (`succeeded`). -/
def BatchReport.succeeded (b : BatchReport) : Bool :=
  b.failures.isEmpty

/-- Why an introspection of several collections ends. -/
inductive BatchError
  | config (fault : ConfigFault)
  | source (fault : SourceFault)
  | introspection (error : IntrospectionError)
  /-- A name of a collection that no result can be kept under. -/
  | misuse (m : Misuse)
  deriving Repr

namespace BatchError

/-- Whether the error is one of the introspection itself, or of its configuration. -/
def isOwn : BatchError → Bool
  | .config fault => fault.isReported
  | .introspection error => error.isOwn
  | _ => false

/-- The message about an error. -/
def message : BatchError → String
  | .config fault => fault.message
  | .source fault => fault.message
  | .introspection error => error.message
  | .misuse m => m.message

end BatchError

/-- What an introspection of several collections works with. What each run reads of the clock, and its times, are
those of runs that go on one after the other. -/
structure Session where
  config : Config
  around : Surroundings
  cancelled : Bool := false
  schedule : Sampling.Schedule := {}
  times : (run : Nat) → RunTimes
  clock : (run reading : Nat) → Binary64

namespace Session

/-- The collection with a name (`_get_collection`). -/
def entry (s : Session) (name : String) : Except ConfigFault CollectionSettings :=
  match s.config.collection? name with
  | some entry => .ok entry
  | none =>
    match Raw.texts (s.config.collections.map CollectionSettings.name) with
    | .ok names => .error (.notConfigured name names)
    | .error m => .error (.misuse m)

/-- The source, ready for use (`_open_source`). -/
def openSource (s : Session) : Except SourceFault Source := do
  let source ← Source.ofSettings s.around s.config.source
  source.connect

/-- The run over a collection, by its number (`_introspect`). -/
def run (s : Session) (number : Nat) (entry : CollectionSettings) (source : Source) :
    Introspection.Outcome Source :=
  let plan : Sampling.Plan Source :=
    { store := Source.store entry.name, sampling := s.config.samplingOf entry
      extraction := s.config.extractionOf entry, clock := s.clock number }
  Introspection.introspect plan s.schedule { collection := entry.name, typeName := entry.typeName }
    s.cancelled (s.times number) source

/-- The runs over some collections, of which the first has a number. -/
def runEach (s : Session) (number : Nat) :
    List CollectionSettings → Source →
      List (CollectionSettings × Except IntrospectionError Report)
  | [], _ => []
  | entry :: entries, source =>
    let o := s.run number entry source
    (entry, o.result) :: s.runEach (number + 1) entries o.store

/-- Notes how the run over a collection went (`_record`). -/
def record (b : BatchReport) (entry : CollectionSettings)
    (result : Except IntrospectionError Report) : Except BatchError BatchReport :=
  match result with
  | .ok report =>
    if entry.name.isKey then .ok { b with reports := Raw.insertEntry entry.name report b.reports }
    else .error (.misuse entry.name.keyMisuse)
  | .error e =>
    if !e.isOwn then .error (.introspection e)
    else if entry.name.isKey then
      .ok { b with failures := Raw.insertEntry entry.name e.message b.failures }
    else .error (.misuse entry.name.keyMisuse)

/-- Notes how the runs over some collections went. -/
def recordAll (b : BatchReport) :
    List (CollectionSettings × Except IntrospectionError Report) → Except BatchError BatchReport
  | [] => .ok b
  | (entry, result) :: runs => (record b entry result).bind fun b => recordAll b runs

/-- The collections to introspect: the one with a name, or all of them without one. -/
def collections (s : Session) (name? : Option String) :
    Except ConfigFault (List CollectionSettings) :=
  match name? with
  | none | some "" => .ok s.config.collections
  | some name => (s.entry name).map ([·])

/-- The number of runs that may go on at the same time. -/
def workers (s : Session) (entries : List CollectionSettings) : Nat :=
  min s.config.maxParallel entries.length

/-- Introspects all collections, or the one with a name (`introspect_all`). -/
def introspectAll (s : Session) (name? : Option String) : Except BatchError BatchReport := do
  let entries ← (s.collections name?).mapError .config
  let source ← s.openSource.mapError .source
  match if 1 < s.workers entries then entries.find? (!·.name.isKey) else none with
  | some entry => .error (.misuse entry.name.keyMisuse)
  | none => recordAll {} (s.runEach 0 entries source)

/-- Introspects the collection with a name (`introspect`). -/
def introspect (s : Session) (name : String) : Except BatchError Report := do
  let entry ← (s.entry name).mapError .config
  let source ← s.openSource.mapError .source
  (s.run 0 entry source).result.mapError .introspection

/-- Counts the documents of some collections. -/
def countEach : List CollectionSettings → Source → Except BatchError (List (Raw × Raw))
  | [], _ => .ok []
  | entry :: entries, source => do
    let (answer, after) := source.count entry.name
    let count ← answer.mapError .source
    if entry.name.isKey then
      let counts ← countEach entries after
      .ok ((entry.name, count) :: counts)
    else .error (.misuse entry.name.keyMisuse)

/-- Counts the documents of every collection (`check`). -/
def check (s : Session) : Except BatchError (List (Raw × Raw)) := do
  let source ← s.openSource.mapError .source
  countEach s.config.collections source

theorem runEach_map_fst (s : Session) (number : Nat) (entries : List CollectionSettings)
    (source : Source) : (s.runEach number entries source).map Prod.fst = entries := by
  induction entries generalizing number source with
  | nil => rfl
  | cons entry entries ih => simp [runEach, ih]

theorem collections_all (s : Session) : s.collections none = .ok s.config.collections := rfl

end Session

end DocSchema
