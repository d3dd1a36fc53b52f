import DocSchema.Raw.Equality
import DocSchema.Source.Fault

/-!
# Databases

A source whose collections are held by a server. The server draws the documents; each draw is
independent of the others. What is asked of the server is kept in a record of calls.
-/

namespace DocSchema

/-- What a server answers. -/
structure Server where
  ping : Except SourceFault Unit
  estimatedCount : Raw → Except SourceFault Raw
  exactCount : Raw → Except SourceFault Raw
  names : Except SourceFault (List String)
  documents : (name : Raw) → (turn wanted : Nat) → Except SourceFault (List Raw)

namespace Server

/-- A server that does not answer. -/
def unreachable (message : String) : Server :=
  let fault : SourceFault := .raised "ServerSelectionTimeoutError" message
  { ping := .error fault
    estimatedCount := fun _ => .error fault
    exactCount := fun _ => .error fault
    names := .error fault
    documents := fun _ _ _ => .error fault }

end Server

/-- What is asked of a server. -/
inductive ServerCall
  | client (address timeout : Raw)
  | command (name : String)
  | get (name : Raw)
  | estimatedCount
  | exactCount
  | names
  | sample (size : Nat)
  | close
  deriving Repr

/-- How far a source is connected. -/
inductive Connection
  | closed
  | unanswered
  | ready
  deriving DecidableEq, Repr

/-- A source whose collections are held by a server. -/
structure DatabaseSource where
  address : Raw
  database : Raw
  exact : Bool := false
  timeout : Raw := .int 5000
  server : Server
  connection : Connection := .closed
  turn : Nat := 0

namespace DatabaseSource

/-- A source from its settings. -/
def create (server : Server) (settings : Raw) : Except SourceFault DatabaseSource :=
  match settings with
  | .map fields =>
    let setting (name : String) : Raw := (Raw.field? name fields).getD .null
    if !(setting "connection_string").isTrue then .error .connectionNotGiven
    else if !(setting "database").isTrue then .error .databaseNotGiven
    else
      .ok { address := setting "connection_string", database := setting "database"
            exact := (setting "exact_count").isTrue
            timeout := (Raw.field? "server_selection_timeout_ms" fields).getD (.int 5000), server }
  | settings => .error (.misuse (.noPart settings.typeName "get"))

/-- The answer of a source, what was asked of its server, and the source after it. -/
structure Reply (α : Type) where
  answer : Except SourceFault α
  calls : List ServerCall := []
  source : DatabaseSource

/-- The source after an attempt to connect that got no answer: one that was ready stays so. -/
def afterFailure (s : DatabaseSource) : DatabaseSource :=
  { s with connection := if s.connection = .ready then .ready else .unanswered }

/-- Connects to the server and waits for it to answer. -/
def connect (s : DatabaseSource) : Reply Unit :=
  let opening : List ServerCall := [.client s.address s.timeout, .command "ping"]
  match s.server.ping with
  | .error f => { answer := .error f, calls := opening, source := s.afterFailure }
  | .ok () =>
    { answer := .ok (), calls := opening ++ [.get s.database], source := { s with connection := .ready } }

/-- The answer of a connected source (`_require_db`). -/
def whenReady {α : Type} (s : DatabaseSource) (calls : List ServerCall)
    (answer : Except SourceFault α) : Reply α :=
  if s.connection = .ready then { answer, calls, source := s }
  else { answer := .error .notConnected, source := s }

/-- Whether a name is that of a collection of the server's own. -/
def isSystem (name : String) : Bool :=
  (Text.afterStart? "system.".toList name.toList).isSome

/-- The names of the collections, in order, without those of the server's own (`list_collections`). -/
def names (s : DatabaseSource) : Reply (List String) :=
  s.whenReady [.names] (s.server.names.map fun names => (names.filter (!isSystem ·)).mergeSort)

/-- The number of documents in a collection: exact, or as the server estimates it. -/
def count (s : DatabaseSource) (name : Raw) : Reply Raw :=
  if s.exact then s.whenReady [.get name, .exactCount] (s.server.exactCount name)
  else s.whenReady [.get name, .estimatedCount] (s.server.estimatedCount name)

/-- Draws documents from a collection (`sample_random`); nothing is asked when none are wanted. -/
def draw (s : DatabaseSource) (name : Raw) (wanted : Int) : Reply (List Raw) :=
  if wanted ≤ 0 then { answer := .ok [], source := s }
  else
    let size := wanted.toNat
    let reply := s.whenReady [.get name, .sample size] (s.server.documents name s.turn size)
    { reply with source := { s with turn := s.turn + 1 } }

/-- Ends the connection. -/
def close (s : DatabaseSource) : Reply Unit where
  answer := .ok ()
  calls := if s.connection = .closed then [] else [.close]
  source := { s with connection := .closed }

end DatabaseSource

end DocSchema
