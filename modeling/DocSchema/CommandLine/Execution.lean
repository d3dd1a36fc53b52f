import DocSchema.CommandLine.Help
import DocSchema.Config.File
import DocSchema.Config.Template
import DocSchema.Introspection.Batch
import DocSchema.JsonValue.Printer

/-!
# Executing requests

A request is executed on a file tree: it ends with a status, with texts for the output and for the
errors, and with the files as they are afterwards.
-/

namespace DocSchema.CommandLine

open Number (natText grouped)

/-- How an execution ends. -/
structure Outcome where
  status : Nat := 0
  output : String := ""
  errors : String := ""
  files : FileTree

/-- What an execution works with. -/
structure Setting where
  around : Surroundings
  env : Config.Environment
  times : (run : Nat) → RunTimes
  clock : (run reading : Nat) → Binary64

/-- Why a command fails: its configuration is not loaded, or its source is of no use. -/
inductive Failure
  | load (fault : LoadFault)
  | batch (error : BatchError)
  deriving Repr

namespace Failure

/-- Whether a failure is one of the introspection itself, or of its configuration. -/
def isOwn : Failure → Bool
  | .load fault => fault.isOwn
  | .batch error => error.isOwn

/-- The message about a failure; what is foreign to the introspection is announced. -/
def message (announcement : String) (f : Failure) : String :=
  let text := match f with
    | .load fault => fault.message
    | .batch error => error.message
  if f.isOwn then text else announcement ++ ": " ++ text

end Failure

/-- Text in lines. -/
def lines (texts : List String) : String :=
  String.join (texts.map (· ++ "\n"))

/-- The lines up to the first that cannot be put out, and whether those are all. -/
def spoken (texts : List (Option String)) : String × Bool :=
  let fit := (texts.takeWhile fun text? => text?.any fun text => !Text.hasHalf text).filterMap id
  (lines fit, fit.length == texts.length)

/-- Text in lines for the errors, where halves of surrogate pairs are escaped. -/
def errorLines (texts : List String) : String :=
  let escaped (c : Char) : String :=
    if Text.keepsHalf c then JsonValue.unitEscape (Text.pointOf c) else String.singleton c
  String.join ((lines texts).toList.map escaped)

/-- The outcome of a failure. -/
def Outcome.failed (files : FileTree) (announcement : String) (f : Failure) : Outcome :=
  { status := 1, errors := errorLines ["Error: " ++ f.message announcement], files }

/-! ## Creating a configuration -/

/-- What to do after a configuration is there. -/
def nextSteps : List String :=
  ["", "Next steps:",
    "  1. Set your connection:  export MONGODB_URI=mongodb://localhost:27017",
    "  2. Set your database:    export MONGODB_DATABASE=sample_mflix",
    "  3. List collections in:  " ++ defaultConfigPath,
    "  4. Run introspection:    schemascout run"]

/-- Creates a configuration where there is none (`init`). -/
def createConfig (files : FileTree) : Outcome :=
  let (note, after) :=
    if files.exists? defaultConfigPath then (defaultConfigPath ++ " already exists.", files)
    else
      ("Created " ++ defaultConfigPath,
        (files.write? defaultConfigPath (Text.encode Config.template)).getD files)
  { output := lines (["Initializing schemascout project...", note] ++ nextSteps), files := after }

/-! ## Introspecting -/

/-- The session for the configuration in a file. -/
def Setting.session (s : Setting) (configPath : String) : Except Failure Session := do
  let config ← (Config.load s.around.files s.env configPath).mapError .load
  .ok { config, around := s.around, times := s.times, clock := s.clock }

/-- The name that a value takes as that of a member of an object. -/
def memberName? : Raw → Option String
  | .text s | .code s => some s
  | .int n | .long n => some (Number.intText n)
  | .float x => some (JsonValue.floatText x)
  | .bool b => some (if b then "true" else "false")
  | .null => some "null"
  | _ => none

/-- The result of an introspection as JSON, where the names of collections can be written. -/
def payload? (b : BatchReport) : Option JsonValue := do
  guard (b.reports.all fun (name, _) => name.text?.isSome)
  let failures ← b.failures.mapM fun (name, message) =>
    (memberName? name).map fun text => (text, JsonValue.string message)
  some (.object ([("collections", .array (b.reports.map fun (_, report) => report.toJson))] ++
    if failures.isEmpty then [] else [("_failures", .object failures)]))

/-- What is said about a report that was written to a file. -/
def reportLine (name : Raw) (report : Report) : String :=
  name.plainText ++ ": " ++ report.entity.name ++ " (" ++ natText report.entity.fields.length ++
    " fields, " ++ natText report.nested.length ++ " nested types, " ++
    grouped report.metrics.totalSampled ++ " sampled, " ++
    (report.metrics.stopReason?.map StopReason.tag).getD "" ++ ")"

/-- What is said about the failures of collections. -/
def failureLines (b : BatchReport) : List String :=
  b.failures.map fun (name, message) => "Failed: " ++ name.plainText ++ ": " ++ message

/-- The outcome of an introspection whose result is told in some lines. -/
def conclude (files : FileTree) (b : BatchReport) (said : List String) : Outcome :=
  match spoken (said.map some) with
  | (output, false) => { status := 1, output, files }
  | (output, true) =>
    let status := if b.succeeded then 0 else 1
    { status, output, errors := errorLines (failureLines b), files }

/-- Puts out the result of an introspection: to a file, or with the other output (`write_json_output`). A text with
half of a surrogate pair is not put out, and leaves a file empty. -/
def publish (files : FileTree) (output? : Option String) (b : BatchReport) : Outcome :=
  match payload? b with
  | none => { status := 1, files }
  | some payload =>
    let text := payload.print false
    let output := output?.getD ""
    if output = "" then conclude files b [text]
    else
      let isWhole := !Text.hasHalf text
      match files.writeWithDirectories output (if isWhole then Text.encode text else []) with
      | (after, written) =>
        if written && isWhole then
          conclude after b (b.reports.map (fun (name, report) => reportLine name report) ++
            ["", "Wrote " ++ output])
        else { status := 1, files := after }

/-- Introspects the collections of a configuration (`run`). -/
def introspect (s : Setting) (options : RunOptions) : Outcome :=
  let done := do
    let session ← s.session options.configPath
    (session.introspectAll options.collection?).mapError .batch
  match done with
  | .error f => .failed s.around.files "Source error" f
  | .ok b => publish s.around.files options.output? b

/-! ## Checking a source -/

/-- What is said about the number of documents in a collection. -/
def countLine? (name count : Raw) : Option String :=
  let text? := match count with
    | .int n | .long n => some (grouped n)
    | .bool b => some (if b then "1" else "0")
    | _ => none
  text?.map fun text => "  " ++ name.plainText ++ ": " ++ text ++ " documents"

/-- Counts the documents in the collections of a configuration (`check`). -/
def check (s : Setting) (configPath : String) : Outcome :=
  let files := s.around.files
  let done := do
    let session ← s.session configPath
    let counts ← session.check.mapError .batch
    .ok (session.config.source.type, counts)
  match done with
  | .error f => .failed files "Source check failed" f
  | .ok (type, counts) =>
    let said := some ("Source: " ++ type.plainText) ::
      counts.map fun (name, count) => countLine? name count
    let (output, complete) := spoken said
    { status := if complete then 0 else 1, output, files }

/-! ## All requests -/

/-- Executes a request. -/
def execute (s : Setting) : Request → Outcome
  | .version => { output := versionLine, files := s.around.files }
  | .help command? => { output := helpText command?, files := s.around.files }
  | .init => createConfig s.around.files
  | .run options => introspect s options
  | .check configPath => check s configPath

/-- Executes what arguments ask for. -/
def executeArguments (s : Setting) (arguments : List String) : Outcome :=
  match Request.read arguments with
  | .ok request => execute s request
  | .error fault => { status := 2, errors := usageText fault, files := s.around.files }

end DocSchema.CommandLine
