import DocSchema.CommandLine.Request

/-!
# Help

How the commands are used, and what their options mean, in two columns.

- `padTo_length`: a text that is made longer has at least the width that is asked for.
-/

namespace DocSchema.CommandLine

/-- The name under which the program is called. -/
def programName : String := "schemascout"

/-- The version of the program. -/
def versionNumber : String := "0.1.0"

/-- The line that names the version. -/
def versionLine : String :=
  programName ++ ", version " ++ versionNumber ++ "\n"

/-- A text with blanks up to a width. -/
def padTo (width : Nat) (s : String) : String :=
  s ++ String.ofList (List.replicate (width - s.length) ' ')

theorem padTo_length (width : Nat) (s : String) : width ≤ (padTo width s).length := by
  simp only [padTo, String.length_append, String.length_ofList, List.length_replicate]
  omega

/-- Rows of two columns under a title. -/
def table (title : String) (rows : List (String × String)) : String :=
  let width := (rows.map (·.1.length)).foldl max 0 + 2
  title ++ ":\n" ++
    String.join (rows.map fun (left, right) => "  " ++ padTo width left ++ right ++ "\n")

/-- What an option means. -/
def optionRow (form : OptionForm) : String × String :=
  match form.name with
  | "collection" =>
    ("-c, --collection TEXT", "Introspect only this collection (default: all)")
  | "output" =>
    ("-o, --output PATH", "Write the JSON result to this file (default: stdout)")
  | "config" => ("--config TEXT", "Config file  [default: " ++ defaultConfigPath ++ "]")
  | "verbose" => ("-v, --verbose", "Log every sampling batch")
  | "version" => ("--version", "Show the version and exit.")
  | name => ("--" ++ name, "Show this message and exit.")

/-- The line that shows how a command, or the program, is called. -/
def usageLine : Option Command → String
  | none => "Usage: " ++ programName ++ " [OPTIONS] COMMAND [ARGS]...\n"
  | some command => "Usage: " ++ programName ++ " " ++ command.name ++ " [OPTIONS]\n"

/-- The help on a command, or on the program. -/
def helpText : Option Command → String
  | none =>
    usageLine none ++ "\n  schemascout: Infer document schemas by adaptive random sampling.\n\n" ++
      table "Options" (Request.leadingForms.map optionRow) ++ "\n" ++
      table "Commands" (Command.all.map fun c => (c.name, c.summary))
  | some command =>
    usageLine (some command) ++ "\n  " ++ command.summary ++ "\n\n" ++
      table "Options" (command.forms.map optionRow)

/-- The text about a fault of usage. -/
def usageText (fault : UsageFault) : String :=
  usageLine none ++ "Try '" ++ programName ++ " --help' for help.\n\nError: " ++ fault.message ++
    "\n"

end DocSchema.CommandLine
