import DocSchema.ExtendedJson.Reader
import DocSchema.Files.Tree
import DocSchema.Number.Integer
import DocSchema.Source.Memory

/-!
# Directories of collections

A source whose collections are the files of a directory, with a document on each line. A file is read
when its collection is used for the first time, and held until the source is closed.

- `connect_ok_iff`: a source can be used exactly when its path is that of a directory.
-/

namespace DocSchema

open Number (natText grouped)

/-- A source whose collections are files. -/
structure DirectorySource where
  path : FilePath
  files : FileTree
  choices : Randomness
  turn : Nat := 0
  held : List (Raw × Array Raw) := []

namespace DirectorySource

/-- What the reading of a file reports. -/
inductive ReadNotice
  | passedOver (file : String) (line : Nat)
  | loaded (documents : Nat) (file : String)
  deriving DecidableEq, Repr

/-- The text of a notice. -/
def ReadNotice.message : ReadNotice → String
  | .passedOver file line => "Skipping " ++ file ++ " line " ++ natText line
  | .loaded documents file => "Loaded " ++ grouped documents ++ " documents from " ++ file

/-- The ending of the names of files that hold collections. -/
def ending : String := ".jsonl"

/-- Why a value that is no text is no path. -/
def pathMisuse (path : Raw) : Misuse :=
  match path with
  | .bytes .immutable _ | .bytes (.tagged _) _ => .bytesAsPath path.longTypeName
  | path => .notPath path.shortTypeName

/-- A source from its settings. -/
def create (files : FileTree) (choices : Randomness) (settings : Raw) :
    Except SourceFault DirectorySource :=
  match settings with
  | .map fields =>
    let path := (Raw.field? "path" fields).getD .null
    if !path.isTrue then .error .pathNotGiven
    else
      match path.text? with
      | none => .error (.misuse (pathMisuse path))
      | some text =>
        if MemorySource.isSeed ((Raw.field? "seed" fields).getD .null) then
          .ok { path := .ofText text, files, choices }
        else .error (.misuse .notSeed)
  | settings => .error (.misuse (.noPart settings.typeName "get"))

/-- Checks that the directory is there. -/
def connect (s : DirectorySource) : Except SourceFault Unit :=
  match s.files.node? s.path.text with
  | none => .error (.directoryMissing s.path.text)
  | some .directory => .ok ()
  | some (.file _) => .error (.notADirectory s.path.text)

/-- The names of the collections, in order (`list_collections`). -/
def names (s : DirectorySource) : List String :=
  (((s.files.filesIn s.path.text).filter fun name =>
    Text.endsWith ending.toList name.toList).map FilePath.stem).mergeSort

/-- The path of the file of a collection. -/
def fileOf (s : DirectorySource) (name : Raw) : FilePath :=
  s.path ++ FilePath.ofText (name.plainText ++ ending)

/-- The reading of a collection: its documents, what is reported, and the source after it. -/
structure Loading where
  documents : Except SourceFault (Array Raw)
  notices : List ReadNotice := []
  source : DirectorySource

/-- Reads the file of a collection. -/
def read (s : DirectorySource) (name : Raw) : Loading :=
  let file := s.fileOf name
  match s.files.read? file.text with
  | none => { documents := .error (.collectionFileMissing file.text), source := s }
  | some bytes =>
    match ExtendedJson.readFile bytes with
    | .error (fault, passed) =>
      { documents := .error fault, notices := passed.map (.passedOver file.name), source := s }
    | .ok d =>
      let documents := d.documents.toArray
      { documents := .ok documents
        notices := d.passedOver.map (.passedOver file.name) ++ [.loaded documents.size file.name]
        source := { s with held := Raw.insertEntry name documents s.held } }

/-- The documents of a collection, which are read if they are not held (`_load`). -/
def load (s : DirectorySource) (name : Raw) : Loading :=
  if name.isKey then
    match Raw.lookup? name s.held with
    | some documents => { documents := .ok documents, source := s }
    | none =>
      match name.showFault? with
      | some fault => { documents := .error (.nameNotShown fault), source := s }
      | none => s.read name
  else
    { documents := .error (.misuse name.keyMisuse), source := s }

/-- The positions of a draw of different documents from a collection of some size. -/
def visit (s : DirectorySource) (size : Nat) (wanted : Int) : Except SourceFault (List Nat) :=
  if wanted < 0 then .error (.badValue "Sample larger than population or is negative")
  else .ok ((s.choices.order s.turn size).take wanted.toNat)

/-- Draws different documents from a collection (`sample_random`). -/
def draw (s : DirectorySource) (name : Raw) (wanted : Int) :
    Except SourceFault (List Raw) × List ReadNotice × DirectorySource :=
  let l := s.load name
  let drawn := do
    let documents ← l.documents
    let positions ← l.source.visit documents.size wanted
    .ok (MemorySource.documentsAt documents positions)
  (drawn, l.notices, { l.source with turn := l.source.turn + 1 })

/-- Forgets the documents that are held. -/
def close (s : DirectorySource) : DirectorySource :=
  { s with held := [] }

theorem connect_ok_iff {s : DirectorySource} :
    s.connect = .ok () ↔ s.files.node? s.path.text = some .directory := by
  rw [connect]
  split <;> simp_all

end DirectorySource

end DocSchema
