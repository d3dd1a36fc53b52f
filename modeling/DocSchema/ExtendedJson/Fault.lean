import DocSchema.Source.Fault

/-!
# Faults of extended JSON

A line that breaks a rule of the format is passed over. Some mistakes in a wrapper are graver and end
the reading of the file.
-/

namespace DocSchema.ExtendedJson

/-- What is wrong with a wrapper. -/
inductive Fault
  /-- The line is passed over. -/
  | passedOver
  /-- The reading of the file ends. -/
  | grave (fault : SourceFault)
  deriving Repr

/-- A value of the wrong kind. -/
def wrongType {α : Type} (message : String) : Except Fault α :=
  .error (.grave (.wrongType message))

/-- A line to pass over. -/
def passOver {α : Type} : Except Fault α :=
  .error .passedOver

/-- A result that passes over the line when there is none. -/
def orPassOver {α : Type} : Option α → Except Fault α
  | some a => .ok a
  | none => passOver

end DocSchema.ExtendedJson
