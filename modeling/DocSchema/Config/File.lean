import DocSchema.Config.Reader
import DocSchema.Config.Substitution
import DocSchema.Files.Tree
import DocSchema.Text.Utf8
import DocSchema.Yaml.Reader

/-!
# Configuration files

A configuration is loaded from a file with one YAML document (`load_config`). Variables in its texts are replaced
before it is read.

- `ofFileValue_congr`: only the variables that the file refers to count.
-/

namespace DocSchema

/-- Why a configuration is not loaded. -/
inductive LoadFault
  | config (fault : ConfigFault)
  | isDirectory (path : String)
  | undecodable (error : Text.Utf8Error)
  /-- The name of a variable cannot be written for the system. -/
  | unencodable (error : Text.EncodeError)
  | yaml (fault : Yaml.Fault)
  deriving DecidableEq, Repr

namespace LoadFault

/-- Whether a fault is reported as one of the configuration. -/
def isOwn : LoadFault → Bool
  | .config fault => fault.isReported
  | _ => false

/-- The message about a fault. -/
def message : LoadFault → String
  | .config fault => fault.message
  | .isDirectory path => "[Errno 21] Is a directory: " ++ Text.quoted path
  | .undecodable error => error.message
  | .unencodable error => error.message
  | .yaml fault => fault.message

end LoadFault

namespace Config

/-- The value that a file with a path holds. -/
def readFile (path : String) : FileNode → Except LoadFault Raw
  | .directory => .error (.isDirectory path)
  | .file bytes => do
    let text ← (Text.decode bytes).mapError .undecodable
    match Yaml.read text with
    | .ok value => .ok value
    | .error .malformed => .error (.config (.unreadable path))
    | .error fault => .error (.yaml fault)

/-- The configuration that the value of a file makes, with the variables in its texts replaced. -/
def ofFileValue (env : Environment) (path : String) : Raw → Except LoadFault Config
  | .null => .error (.config (.emptyFile path))
  | .map entries => do
    let value ← (substitute env (.map entries)).mapError .unencodable
    (ofRaw value).mapError .config
  | _ => .error (.config (.notMapping path))

/-- Loads the configuration from the file with a path. -/
def load (files : FileTree) (env : Environment) (path : String) : Except LoadFault Config :=
  match files.node? path with
  | none => .error (.config (.fileMissing path))
  | some node => (readFile path node).bind (ofFileValue env path)

theorem ofFileValue_congr {env other : Environment} {value : Raw}
    (h : ∀ name ∈ variableNames value, env name = other name) (path : String) :
    ofFileValue env path value = ofFileValue other path value := by
  cases value with
  | map entries => rw [ofFileValue, ofFileValue, substitute_congr h]
  | _ => rfl

end Config

end DocSchema
