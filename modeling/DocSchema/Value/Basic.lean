import DocSchema.Raw.Basic

/-!
# Value trees

A document as it is analysed: nodes of nine kinds. A node that was built beforehand may hold a
payload that does not fit its kind; such a node is kept apart, so that all others can be relied on.
-/

namespace DocSchema

/-- A node of a value tree. -/
inductive Value
  | null
  | bool (b : Bool)
  | int (n : Int)
  | float (x : Binary64)
  | string (s : String)
  | identifier (s : String)
  | sequence (items : List Value)
  | map (entries : List (String × Value))
  | binary (bytes? : Option (List UInt8))
  | unfit (kind? : Option ValueKind) (payload : Raw)
  deriving Repr, Inhabited

namespace Value

/-- The kind of a node, if it is a node at all. -/
def kind? : Value → Option ValueKind
  | .null => some .null
  | .bool _ => some .bool
  | .int _ => some .int
  | .float _ => some .float
  | .string _ => some .string
  | .identifier _ => some .identifier
  | .sequence _ => some .sequence
  | .map _ => some .map
  | .binary _ => some .binary
  | .unfit kind? _ => kind?

/-- Whether a node is null. -/
def isNull : Value → Bool
  | .null => true
  | _ => false

/-- A payload that is not looked into. -/
def untyped : Value := .binary none

mutual
/-- Whether every node of a tree holds a payload of its kind. -/
def isFit : Value → Bool
  | .sequence items => isFitList items
  | .map entries => isFitEntries entries
  | .unfit _ _ => false
  | _ => true
/-- Whether every node of some trees holds a payload of its kind. -/
def isFitList : List Value → Bool
  | [] => true
  | item :: items => isFit item && isFitList items
/-- Whether every node below some entries holds a payload of its kind. -/
def isFitEntries : List (String × Value) → Bool
  | [] => true
  | (_, value) :: entries => isFit value && isFitEntries entries
end

end Value

end DocSchema
