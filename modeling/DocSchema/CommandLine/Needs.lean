import DocSchema.CommandLine.Execution

/-!
# What requests need

The files and the variables that a request looks at. They are what must be known of the world before a
request is executed: the file of the configuration and the place of the result, then the variables of
the configuration, and last the files of its source.

- `load_congr`: no other variables than these count.
-/

namespace DocSchema.CommandLine

/-- The paths in a request itself. -/
def Request.paths : Request → List String
  | .init => [defaultConfigPath]
  | .run options => options.configPath :: options.output?.toList
  | .check configPath => [configPath]
  | _ => []

/-- The file of the configuration that a request works with. -/
def Request.configPath? : Request → Option String
  | .run options => some options.configPath
  | .check configPath => some configPath
  | _ => none

/-- The variables that the configuration in a file refers to. -/
def configVariables (files : FileTree) (configPath : String) : List String :=
  match files.node? configPath with
  | none => []
  | some node =>
    match Config.readFile configPath node with
    | .ok value => Config.variableNames value
    | .error _ => []

/-- The paths that the source of a session looks at: a directory, and its files of the
collections. -/
def sourcePaths (s : Session) : List String :=
  match Source.ofSettings s.around s.config.source with
  | .ok (.directory d) =>
    d.path.text :: s.config.collections.map fun entry => (d.fileOf entry.name).text
  | _ => []

theorem load_congr {files : FileTree} {configPath : String} {env other : Config.Environment}
    (h : ∀ name ∈ configVariables files configPath, env name = other name) :
    Config.load files env configPath = Config.load files other configPath := by
  rw [Config.load, Config.load]
  split
  · rfl
  · rename_i node hnode
    simp only [configVariables, hnode] at h
    cases hread : Config.readFile configPath node with
    | error fault => simp only [Except.bind]
    | ok value =>
      simp only [hread] at h
      simp only [Except.bind, Config.ofFileValue_congr h configPath]

end DocSchema.CommandLine
