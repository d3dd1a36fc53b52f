import DocSchema.Raw.Equality
import DocSchema.SemanticType
import DocSchema.Value.Basic
import DocSchema.Value.Fault

/-!
# Semantic types of leaves

The semantic type that one leaf of a document shows. A null shows none; a whole number beyond 32 bits
counts as a float; a text that is written as an identifier of the store may count as one.

- `isIdentifierText_length`: the text of an identifier has 24 characters.
-/

namespace DocSchema

/-- Whether a text is written as an identifier of the store: 24 hexadecimal digits (`is_identifier_string`). -/
def isIdentifierText (s : String) : Bool :=
  let cs := s.toList
  cs.length == 24 && cs.all fun c => c.isDigit || ('a' ≤ c && c ≤ 'f') || ('A' ≤ c && c ≤ 'F')

/-- Whether a whole number has 32 bits. -/
def isShortInt (n : Int) : Bool :=
  decide (-2147483648 ≤ n) && decide (n ≤ 2147483647)

/-- The semantic type of a text; `detect` tells whether it may be an identifier. -/
def classifyText (detect : Bool) (s : String) : SemanticType :=
  if detect && isIdentifierText s then .identifier else .text

/-- The semantic type of a leaf of whole numbers whose payload is none of them. A binary NaN is not
within any bounds. -/
def classifyNumber (payload : Raw) : Except DocumentFault (Option SemanticType) :=
  match payload.number?, payload with
  | some p, _ =>
    .ok (some (if (Binary64.Extended.at (-2147483648)).le p && p.le (.at 2147483647) then .integer
      else .float))
  | none, .float _ => .ok (some .float)
  | none, payload => .error (.unordered payload.typeName)

/-- The semantic type of a leaf built beforehand whose payload does not fit. -/
def classifyUnfit (detect : Bool) (kind? : Option ValueKind) (payload : Raw) :
    Except DocumentFault (Option SemanticType) :=
  match kind? with
  | some .int => classifyNumber payload
  | some .string =>
    if detect then
      match payload with
      | .bytes _ _ => .error .bytesSearched
      | payload => .error (.notSearched payload.typeName)
    else .ok (some .text)
  | some .map => if payload.isTrue then .error .populatedLeaf else .ok (some .untyped)
  | some .float => .ok (some .float)
  | some _ => .ok (some .untyped)
  | none => .error (.notANode payload.typeName "kind")

/-- The semantic type that a leaf shows (`infer`). -/
def classify (detect : Bool) : Value → Except DocumentFault (Option SemanticType)
  | .null => .ok none
  | .bool _ => .ok (some .boolean)
  | .int n => .ok (some (if isShortInt n then .integer else .float))
  | .float _ => .ok (some .float)
  | .identifier _ => .ok (some .identifier)
  | .string s => .ok (some (classifyText detect s))
  | .map [] => .ok (some .untyped)
  | .map (_ :: _) => .error .populatedLeaf
  | .sequence _ | .binary _ => .ok (some .untyped)
  | .unfit kind? payload => classifyUnfit detect kind? payload

theorem isIdentifierText_length {s : String} (h : isIdentifierText s = true) :
    s.toList.length = 24 := by
  simp only [isIdentifierText, Bool.and_eq_true, beq_iff_eq] at h
  exact h.1

end DocSchema
