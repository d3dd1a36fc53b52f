import DocSchema.Nesting
import DocSchema.Raw.Number

/-!
# Faults of documents

Why a document is passed over. A malformed document breaks a rule of documents; the other faults
come from numbers that cannot be converted, from values nested too deeply, from hidden-key settings
that are no text, and from nodes built beforehand whose payload does not fit.
-/

namespace DocSchema

open Text (quoted)

/-- Why a document cannot be analysed. -/
inductive DocumentFault
  | keyNotText (typeName shown : String)
  | wrapper (key shown : String)
  | notAnObject (kind : ValueKind)
  | number (fault : NumberFault)
  | tooDeep (fault : NestingFault)
  | populatedLeaf
  | unordered (typeName : String)
  | notSearched (typeName : String)
  | bytesSearched
  | hiddenStartNotText (typeName : String)
  | hiddenStartNotBytes (typeName : String)
  | notANode (typeName part : String)
  | keyOfNode (typeName : String)
  | noEntries (typeName : String)
  | notSliced (typeName : String)
  deriving DecidableEq, Repr

namespace DocumentFault

/-- The fault of showing a value that cannot be shown. -/
def ofShow : Raw.ShowFault → DocumentFault
  | .tooDeep => .tooDeep .shown
  | .tooManyDigits => .number .notWritten

/-- A fault that is told of a value at a depth as it is shown. -/
def showing [Stack] (depth : Int) (r : Raw) (fault : String → DocumentFault) : DocumentFault :=
  match r.tellFault? depth with
  | none => fault r.shown
  | some f => .ofShow f

/-- The message about a fault. -/
def message : DocumentFault → String
  | .keyNotText typeName shown =>
    "Document keys must be strings, got " ++ typeName ++ ": " ++ shown
  | .wrapper key shown => "Invalid Extended JSON value for " ++ key ++ ": " ++ shown
  | .notAnObject kind => "Expected a document object, got " ++ kind.tag
  | .number fault => fault.message
  | .tooDeep fault => fault.message
  | .populatedLeaf =>
    "Non-empty objects are synthesized as nested types, not classified as leaves"
  | .unordered typeName => "'<=' not supported between instances of 'int' and " ++ quoted typeName
  | .notSearched typeName => "expected string or bytes-like object, got " ++ quoted typeName
  | .bytesSearched => "cannot use a string pattern on a bytes-like object"
  | .hiddenStartNotText typeName =>
    "tuple for startswith must only contain str, not " ++ typeName
  | .hiddenStartNotBytes typeName => "a bytes-like object is required, not " ++ quoted typeName
  | .notANode typeName part =>
    quoted typeName ++ " object has no attribute " ++ quoted part
  | .keyOfNode typeName => quoted typeName ++ " object has no attribute 'startswith'"
  | .noEntries typeName => quoted typeName ++ " object has no attribute 'items'"
  | .notSliced typeName => quoted typeName ++ " object is not subscriptable"

/-- Whether a document with the fault is malformed. -/
def isMalformed : DocumentFault → Bool
  | .keyNotText .. | .wrapper .. | .notAnObject _ => true
  | _ => false

end DocumentFault

end DocSchema
