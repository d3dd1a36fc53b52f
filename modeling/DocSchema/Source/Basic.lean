import DocSchema.Config.Basic
import DocSchema.Sampling.Store
import DocSchema.Source.Database
import DocSchema.Source.Directory
import DocSchema.Source.Registry

/-!
# Sources

A source of documents of one of the types that are always registered, made from its settings and from
what is at hand: files, a server, and random choices.
-/

namespace DocSchema

/-- What sources are made with. Random choices depend on a seed, which may be missing. -/
structure Surroundings where
  files : FileTree := {}
  server : Server
  choices : Raw → Randomness

/-- A source of documents. -/
inductive Source
  | memory (s : MemorySource)
  | directory (s : DirectorySource)
  | database (s : DatabaseSource)

namespace Source

/-- The seed in the settings of a source. -/
def seedOf (settings : Raw) : Raw :=
  (settings.get? "seed").getD .null

/-- Makes a source of a type from its settings (`create`). -/
def make (around : Surroundings) (type : SourceType) (settings : Raw) : Except SourceFault Source :=
  let choices := around.choices (seedOf settings)
  match type with
  | .memory => (MemorySource.create choices settings).map .memory
  | .directory => (DirectorySource.create around.files choices settings).map .directory
  | .database => (DatabaseSource.create around.server settings).map .database

/-- Makes the source of a configuration. -/
def ofSettings (around : Surroundings) (s : SourceSettings) : Except SourceFault Source := do
  let type ← Registry.standard.get s.type
  make around type (.map s.settings)

/-- Opens a source. -/
def connect : Source → Except SourceFault Source
  | .memory s => .ok (.memory s)
  | .directory s => s.connect.map fun _ => .directory s
  | .database s =>
    let reply := s.connect
    reply.answer.map fun _ => .database reply.source

/-- Counts the documents of a collection. -/
def count (name : Raw) : Source → Except SourceFault Raw × Source
  | .memory s => ((s.count name).map fun n => .int n, .memory s)
  | .directory s =>
    let l := s.load name
    (l.documents.map fun documents => .int documents.size, .directory l.source)
  | .database s =>
    let reply := s.count name
    (reply.answer, .database reply.source)

/-- Draws documents from a collection. -/
def draw (name : Raw) (wanted : Nat) : Source → Draw × Source
  | .memory s =>
    let (answer, after) := s.draw name wanted
    ({ answer := answer.map .list }, .memory after)
  | .directory s =>
    let (answer, _, after) := s.draw name wanted
    ({ answer := answer.map .list }, .directory after)
  | .database s =>
    let reply := s.draw name wanted
    ({ answer := reply.answer.map .list }, .database reply.source)

/-- A collection of a source. -/
def store (name : Raw) : Store Source where
  count := count name
  draw := draw name

end Source

end DocSchema
