import DocSchema.Raw.Number

/-!
# Faults of YAML texts

Why a text is not read: it breaks the rules of the format, or a scalar that is marked to be of some
type cannot be read as one.
-/

namespace DocSchema.Yaml

/-- Why a text is not read. -/
inductive Fault
  /-- The text breaks the rules of the format. -/
  | malformed
  /-- An escape for a code point that no character has. -/
  | badPoint (point : Nat)
  | notTruth (word : String)
  | number (fault : NumberFault)
  | emptyNumber
  | calendar (error : CalendarError)
  | notTimestamp
  /-- Collections nested without end, or too deeply. -/
  | tooDeep
  deriving DecidableEq, Repr

/-- The message about a fault. -/
def Fault.message : Fault → String
  | .malformed => "malformed text"
  | .badPoint point =>
    if point > 0x7fffffff then "Python int too large to convert to C int"
    else "chr() arg not in range(0x110000)"
  | .notTruth word => Text.quoted word
  | .number fault => fault.message
  | .emptyNumber => "string index out of range"
  | .calendar error => error.message
  | .notTimestamp => "'NoneType' object has no attribute 'groupdict'"
  | .tooDeep => "maximum recursion depth exceeded"

end DocSchema.Yaml
