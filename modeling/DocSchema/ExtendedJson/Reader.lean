import DocSchema.ExtendedJson.Wrapper
import DocSchema.JsonValue.Reader
import DocSchema.Text.Blank
import DocSchema.Text.Lines
import DocSchema.Text.Utf8

/-!
# Reading lines of extended JSON

Each line of a file holds a document; blank lines hold none. Lines that cannot be read are passed over,
and their numbers are told.
-/

namespace DocSchema.ExtendedJson

/-- Makes raw values of the parts of a text. -/
def builder : JsonBuilder Fault Raw where
  null := .null
  bool := .bool
  int := .int
  float := .float
  string := .text
  array := .list
  object := ofMembers

/-- Reads one document: none if the line is passed over. -/
def readDocument (cs : List Char) : Except SourceFault (Option Raw) :=
  match builder.read cs with
  | .ok r => .ok (some r)
  | .error (.refused (.grave fault)) => .error fault
  | .error (.tooDeep fault) => .error (.tooDeep fault)
  | .error _ => .ok none

/-- The documents of a file, and the numbers of the lines that were passed over. -/
structure Documents where
  documents : List Raw := []
  passedOver : List Nat := []

/-- Reads lines, of which the first has a number. -/
def readLinesFrom (number : Nat) (held : Documents) :
    List (List Char) → Except (SourceFault × List Nat) Documents
  | [] => .ok { documents := held.documents.reverse, passedOver := held.passedOver.reverse }
  | line :: lines =>
    let stripped := Text.stripBlanks line
    if stripped.isEmpty then readLinesFrom (number + 1) held lines
    else
      match readDocument stripped with
      | .error fault => .error (fault, held.passedOver.reverse)
      | .ok none =>
        readLinesFrom (number + 1) { held with passedOver := number :: held.passedOver } lines
      | .ok (some r) =>
        readLinesFrom (number + 1) { held with documents := r :: held.documents } lines

/-- Reads the bytes of a file; a failure comes with the lines that were passed over before. -/
def readFile (bytes : List UInt8) : Except (SourceFault × List Nat) Documents :=
  match Text.decode bytes with
  | .error e => .error (.undecodable e.message, [])
  | .ok cs => readLinesFrom 1 {} (Text.splitLines cs)

end DocSchema.ExtendedJson
