import DocSchema.Text.Search

/-!
# Arguments of commands

Arguments are options and operands. An option is named in full after two dashes, or by a letter after
one; several letters may follow one dash. The value of an option is the next argument, or it follows
at once: after an equals sign, or after the letter. After two dashes alone everything is an operand.

- `read_operand`: without options in between, the first operand ends the options.
-/

namespace DocSchema.CommandLine

/-- An option that a command knows. -/
structure OptionForm where
  name : String
  letter? : Option Char := none
  takesValue : Bool := false
  deriving DecidableEq, Repr

/-- Why arguments are refused. -/
inductive UsageFault
  | unknownOption (text : String)
  | valueMissing (option : String)
  | valueNotTaken (option : String)
  | unknownCommand (name : String)
  | commandMissing
  | unexpected (operands : List String)
  deriving DecidableEq, Repr

namespace UsageFault

/-- The message about a fault. -/
def message : UsageFault → String
  | .unknownOption text => "No such option: " ++ text
  | .valueMissing option => "Option '" ++ option ++ "' requires an argument."
  | .valueNotTaken option => "Option '" ++ option ++ "' does not take a value."
  | .unknownCommand name => "No such command '" ++ name ++ "'."
  | .commandMissing => "Missing command."
  | .unexpected operands =>
    "Got unexpected extra argument" ++ (if operands.length = 1 then "" else "s") ++ " (" ++
      " ".intercalate operands ++ ")"

end UsageFault

/-- Options that are given, each by its name and with its value, and the operands. -/
structure Arguments where
  given : List (String × String) := []
  operands : List String := []
  deriving DecidableEq, Repr

namespace Arguments

/-- The arguments with some options in front. -/
def withGiven (options : List (String × String)) (a : Arguments) : Arguments :=
  { a with given := options ++ a.given }

/-- The arguments with an operand in front. -/
def withOperand (operand : String) (a : Arguments) : Arguments :=
  { a with operands := operand :: a.operands }

/-- Whether an option is given. -/
def has (a : Arguments) (name : String) : Bool :=
  a.given.any (·.1 == name)

/-- The value of an option, which is the last that is given for it. -/
def value? (a : Arguments) (name : String) : Option String :=
  a.given.reverse.lookup name

/-- The options that one argument gives, and the option that still waits for its value. -/
structure Expansion where
  given : List (String × String) := []
  waiting? : Option OptionForm := none

/-- The options that letters after one dash give. -/
def expandLetters (forms : List OptionForm) : List Char → Except UsageFault Expansion
  | [] => .ok {}
  | c :: cs =>
    match forms.find? (·.letter? == some c) with
    | none => .error (.unknownOption (String.ofList ['-', c]))
    | some form =>
      if form.takesValue then
        if cs = [] then .ok { waiting? := some form }
        else .ok { given := [(form.name, String.ofList cs)] }
      else
        (expandLetters forms cs).map fun e => { e with given := (form.name, "") :: e.given }

/-- The text in front of the first equals sign, and the text behind it if there is one. -/
def splitValue (text : List Char) : List Char × Option (List Char) :=
  match text.dropWhile (· != '=') with
  | [] => (text, none)
  | _ :: value => (text.takeWhile (· != '='), some value)

/-- The option that a name after two dashes gives. -/
def expandName (forms : List OptionForm) (text : List Char) : Except UsageFault Expansion :=
  let (name, value?) := splitValue text
  match forms.find? (·.name.toList == name), value? with
  | none, _ => .error (.unknownOption ("--" ++ String.ofList name))
  | some form, none =>
    if form.takesValue then .ok { waiting? := some form }
    else .ok { given := [(form.name, "")] }
  | some form, some value =>
    if form.takesValue then .ok { given := [(form.name, String.ofList value)] }
    else .error (.valueNotTaken ("--" ++ form.name))

/-- The options that an argument gives, if it is one that gives options. -/
def expand? (forms : List OptionForm) (argument : String) :
    Option (Except UsageFault Expansion) :=
  match argument.toList with
  | '-' :: '-' :: text => some (expandName forms text)
  | '-' :: c :: letters => some (expandLetters forms (c :: letters))
  | _ => none

/-- Reads arguments. Where they are not mixed, everything after the first operand is one, too. -/
def read (forms : List OptionForm) (mixed : Bool) : List String → Except UsageFault Arguments
  | [] => .ok {}
  | argument :: rest =>
    if argument = "--" then .ok { operands := rest }
    else
      match expand? forms argument with
      | none =>
        if mixed then (read forms mixed rest).map (withOperand argument)
        else .ok { operands := argument :: rest }
      | some (.error fault) => .error fault
      | some (.ok ⟨given, none⟩) => (read forms mixed rest).map (withGiven given)
      | some (.ok ⟨given, some form⟩) =>
        match rest with
        | [] => .error (.valueMissing ("--" ++ form.name))
        | value :: rest =>
          (read forms mixed rest).map (withGiven (given ++ [(form.name, value)]))

theorem read_operand (forms : List OptionForm) {argument : String}
    (h : expand? forms argument = none) (rest : List String) :
    read forms false (argument :: rest) = .ok { operands := argument :: rest } := by
  have hne : argument ≠ "--" := by
    rintro rfl
    simp [expand?] at h
  simp [read, hne, h]

end Arguments

end DocSchema.CommandLine
