/-!
# Depth of nested values

Values may hold values, but not without end: how deeply they are nested is limited in a text that is read, in a
value that a message shows, in a document that is converted, and in values that are compared.
-/

namespace DocSchema

/-- The greatest number of containers, one inside of the other, that are read or shown. -/
def maxNesting : Nat := 990

/-- Where containers are nested too deeply. -/
inductive NestingFault
  /-- At an array of a JSON text. -/
  | array
  /-- At an object of a JSON text. -/
  | object
  /-- In a value that is shown. -/
  | shown
  /-- In a document that is converted. -/
  | converted
  /-- In values that are compared. -/
  | compared
  deriving DecidableEq, Repr

/-- The message about a fault. -/
def NestingFault.message (fault : NestingFault) : String :=
  let place := match fault with
    | .array => " while decoding a JSON array from a unicode string"
    | .object => " while decoding a JSON object from a unicode string"
    | .shown => " while getting the repr of an object"
    | .converted => ""
    | .compared => " in comparison"
  "maximum recursion depth exceeded" ++ place

end DocSchema
