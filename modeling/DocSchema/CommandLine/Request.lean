import DocSchema.CommandLine.Arguments

/-!
# Requests of the command line

What is asked for: one of the commands with its options, the version, or help. The version and help
come before anything else that is right about the arguments.

- `ofName?_name`: a command is found by its name.
- `read_nil`: a command must be named.
-/

namespace DocSchema.CommandLine

/-- The file of the configuration, where no other is given. -/
def defaultConfigPath : String := "schemascout.yml"

/-- A command. -/
inductive Command
  | init
  | run
  | check
  deriving DecidableEq, Repr

namespace Command

/-- All commands. -/
def all : List Command :=
  [.check, .init, .run]

/-- The name of a command. -/
def name : Command → String
  | .init => "init"
  | .run => "run"
  | .check => "check"

/-- The command with a name. -/
def ofName? (s : String) : Option Command :=
  all.find? (·.name == s)

/-- What a command does. -/
def summary : Command → String
  | .init => "Initialize a new schemascout project."
  | .run => "Sample the configured collections and infer their schemas."
  | .check => "Connect to the source and show document counts."

/-- The options of a command. -/
def forms : Command → List OptionForm
  | .init => [{ name := "help" }]
  | .run =>
    [{ name := "collection", letter? := some 'c', takesValue := true },
      { name := "output", letter? := some 'o', takesValue := true },
      { name := "config", takesValue := true }, { name := "verbose", letter? := some 'v' },
      { name := "help" }]
  | .check => [{ name := "config", takesValue := true }, { name := "help" }]

theorem ofName?_name (c : Command) : ofName? c.name = some c := by
  cases c <;> rfl

end Command

/-- What `run` is to do: which collection it samples, or all of them, and where the result goes. -/
structure RunOptions where
  collection? : Option String := none
  output? : Option String := none
  configPath : String := defaultConfigPath
  verbose : Bool := false
  deriving DecidableEq, Repr

/-- What is asked for. -/
inductive Request
  | version
  | help (command? : Option Command)
  | init
  | run (options : RunOptions)
  | check (configPath : String)
  deriving DecidableEq, Repr

namespace Request

/-- The options in front of the command. -/
def leadingForms : List OptionForm :=
  [{ name := "version" }, { name := "help" }]

/-- The request for a command with its arguments. -/
def ofArguments (command : Command) (a : Arguments) : Except UsageFault Request :=
  if a.has "help" then .ok (.help (some command))
  else if !a.operands.isEmpty then .error (.unexpected a.operands)
  else
    let configPath := (a.value? "config").getD defaultConfigPath
    match command with
    | .init => .ok .init
    | .check => .ok (.check configPath)
    | .run =>
      .ok (.run { collection? := a.value? "collection", output? := a.value? "output", configPath
                  verbose := a.has "verbose" })

/-- The request for a command, by its name and what follows it. -/
def ofOperands : List String → Except UsageFault Request
  | [] => .error .commandMissing
  | name :: rest =>
    match Command.ofName? name with
    | none => .error (.unknownCommand name)
    | some command => do
      let a ← Arguments.read command.forms true rest
      ofArguments command a

/-- Reads a request. -/
def read (arguments : List String) : Except UsageFault Request := do
  let a ← Arguments.read leadingForms false arguments
  match a.given with
  | ("version", _) :: _ => .ok .version
  | (_, _) :: _ => .ok (.help none)
  | [] => ofOperands a.operands

theorem read_nil : read [] = .error .commandMissing := rfl

end Request

end DocSchema.CommandLine
