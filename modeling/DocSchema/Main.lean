import DocSchema.CommandLine.Needs
import Std.Time.Zoned

/-!
# The program

The outer layer of the command line: it learns what a request needs to know of the files, the
variables and the time, has the request executed, and puts out the texts and the files.
-/

namespace DocSchema.Main

open CommandLine

/-- What is at a path. -/
def look (path : String) : IO (Option FileNode) := do
  try
    let bytes ← IO.FS.readBinFile path
    return some (.file bytes.toList)
  catch _ =>
    try
      let place ← IO.FS.realPath path
      let _ ← place.readDir
      return some .directory
    catch _ => return none

/-- A file tree with what is at a path and on the way to it. -/
def learn (tree : FileTree) (path : String) : IO FileTree :=
  (FilePath.leading path).foldlM (fun tree path => do
    match tree.place? path, ← look path with
    | some place, some node => return tree.put place node
    | _, _ => return tree) tree

/-- A file tree with what is at some paths. -/
def learnAll (tree : FileTree) (paths : List String) : IO FileTree :=
  paths.foldlM learn tree

/-- The values of some variables. -/
def environment (names : List String) : IO Config.Environment := do
  let values ← names.mapM fun name => do return (name, ← IO.getEnv name)
  return fun name => (values.lookup name).join

/-- The time of now. -/
def now : IO Moment := do
  let t ← Std.Time.PlainDateTime.now
  return { date := ⟨t.date.year.toInt.toNat, t.date.month.toNat, t.date.day.toNat⟩
           hour := t.time.hour.toNat, minute := t.time.minute.toNat
           second := t.time.second.toNat, microsecond := t.time.nanosecond.toNat / 1000 }

/-- What a request works with when nothing is known of the files yet. All files are read before the
first document is drawn, so no time passes while documents are drawn. -/
def settingAt (moment : Moment) (files : FileTree) (env : Config.Environment) : Setting :=
  let choices (seed : Raw) : Randomness :=
    .seeded (if seed.isTrue then Randomness.seedOfText seed.shown else moment.micros.toNat)
  { around := { files, server := .unreachable "No server can be reached", choices }
    env
    times := fun _ => { started := moment, completed? := some moment }
    clock := fun _ _ => .zero }

/-- Writes what a tree holds and another did not. -/
def writeChanges (before after : FileTree) : IO Unit :=
  after.nodes.forM fun (place, node) => do
    let path := "/" ++ "/".intercalate place
    if before.nodes.lookup place == some node then return
    match node with
    | .file bytes => IO.FS.writeBinFile path ⟨bytes.toArray⟩
    | .directory => IO.FS.createDirAll path

/-- The files and variables that a request needs to know. -/
def settingOf (request : Request) : IO Setting := do
  let working := FilePath.namesOf (← IO.currentDir).toString.toList
  let files ← learnAll { working } request.paths
  let moment ← now
  match request.configPath? with
  | none => return settingAt moment files fun _ => none
  | some configPath =>
    let env ← environment (configVariables files configPath)
    match (settingAt moment files env).session configPath with
    | .error _ => return settingAt moment files env
    | .ok session => return settingAt moment (← learnAll files (sourcePaths session)) env

end DocSchema.Main

open DocSchema DocSchema.CommandLine in
/-- Runs the program. -/
def main (arguments : List String) : IO UInt32 := do
  match Request.read arguments with
  | .error fault =>
    IO.eprint (usageText fault)
    return 2
  | .ok request =>
    let setting ← Main.settingOf request
    let outcome := execute setting request
    Main.writeChanges setting.around.files outcome.files
    IO.print outcome.output
    IO.eprint outcome.errors
    return outcome.status.toUInt32
