import DocSchema.Nesting
import DocSchema.Number.WideDecimal
import DocSchema.Raw.Misuse
import DocSchema.Raw.Number

/-!
# Failures of sources

What can go wrong while a source of documents is opened, counted or drawn from.
-/

namespace DocSchema

open Text (quoted)

/-- Why a source of documents fails. These are the errors that carry a text and that a caller may
catch as an `Exception`: an interrupt or the exit of the process is none of them. What a store
returns as its count is a plain value too, never an object with an `__int__` of its own. -/
inductive SourceFault
  /-- An error of the store itself, by the name of its kind. -/
  | raised (kind message : String)
  /-- A value of the wrong kind. -/
  | misuse (m : Misuse)
  | unknownCollection (name : String)
  | collectionFileMissing (path : String)
  | directoryMissing (path : String)
  | notADirectory (path : String)
  | pathNotGiven
  | connectionNotGiven
  | databaseNotGiven
  | notConnected
  | unknownType (name : String) (known : List String)
  | wrongType (message : String)
  | undecodable (message : String)
  | range (message : String)
  | badValue (message : String)
  | missingPart (key : String)
  | decimal (fault : Decimal.WideFault)
  | tooDeep (fault : NestingFault)
  /-- The name of a collection that is not there, and that the message about it cannot tell. -/
  | nameNotShown (fault : Raw.ShowFault)
  deriving DecidableEq, Repr

namespace SourceFault

/-- The message about a failure. -/
def message : SourceFault → String
  | .raised _ text => text
  | .misuse m => m.message
  | .unknownCollection name => quoted ("Unknown collection: " ++ name)
  | .collectionFileMissing path => "Collection file not found: " ++ path
  | .directoryMissing path =>
    "Source directory not found: " ++ path ++
      "\nCreate the directory and add <collection>.jsonl files."
  | .notADirectory path => "Source path is not a directory: " ++ path
  | .pathNotGiven => "LocalSource requires 'path' in config"
  | .connectionNotGiven => "MongoDBSource requires 'connection_string'"
  | .databaseNotGiven => "MongoDBSource requires 'database'"
  | .notConnected => "Not connected"
  | .unknownType name known =>
    "Unknown source type: '" ++ name ++ "'. Available: " ++
      if known.isEmpty then "none" else ", ".intercalate known
  | .wrongType text => text
  | .undecodable text => text
  | .range text => text
  | .badValue text => text
  | .missingPart key => quoted key
  | .decimal fault => fault.message
  | .tooDeep fault => fault.message
  | .nameNotShown fault => fault.message

end SourceFault

end DocSchema
