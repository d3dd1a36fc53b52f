/-!
# Semantic types

The types a field of a schema can have, sets of them as a field gathers them, and the one type that
a set widens to. Among scalars text is the widest; any two unrelated scalars widen to an opaque
value; a field that ever held a populated object is nested.

- `contains_insert`, `contains_union`: what sets hold after an insertion and a union.
- `resolve_eq_none_iff`: only the empty set widens to no type.
-/

namespace DocSchema

/-- The semantic type of a field. -/
inductive SemanticType
  | identifier
  | text
  | integer
  | float
  | boolean
  | untyped
  | nested
  deriving DecidableEq, Repr

namespace SemanticType

/-- All semantic types. -/
def all : List SemanticType :=
  [.identifier, .text, .integer, .float, .boolean, .untyped, .nested]

/-- The tag of a semantic type in a schema. -/
def tag : SemanticType → String
  | .identifier => "identifier"
  | .text => "text"
  | .integer => "integer"
  | .float => "float"
  | .boolean => "boolean"
  | .untyped => "opaque"
  | .nested => "nested"

/-- The semantic type with a tag. -/
def ofTag? (s : String) : Option SemanticType :=
  all.find? (·.tag == s)

/-- The message about a tag that no semantic type has; it takes the tag as shown. -/
def unknownTag (shown : String) : String :=
  shown ++ " is not a valid SemanticType"

theorem ofTag?_tag (t : SemanticType) : ofTag? t.tag = some t := by
  cases t <;> rfl

/-- Whether the second type is the first one or wider. -/
def widensTo : SemanticType → SemanticType → Bool
  | _, .nested => true
  | .nested, _ => false
  | _, .untyped => true
  | .untyped, _ => false
  | _, .text => true
  | .integer, .float => true
  | a, b => a == b

theorem widensTo_refl (a : SemanticType) : a.widensTo a = true := by
  cases a <;> rfl

theorem widensTo_trans {a b c : SemanticType} (hab : a.widensTo b = true)
    (hbc : b.widensTo c = true) : a.widensTo c = true := by
  revert hab hbc
  cases a <;> cases b <;> cases c <;> decide

end SemanticType

/-- A set of semantic types. -/
structure KindSet where
  identifier : Bool := false
  text : Bool := false
  integer : Bool := false
  float : Bool := false
  boolean : Bool := false
  untyped : Bool := false
  nested : Bool := false
  deriving DecidableEq, Repr

namespace KindSet

/-- The set of no types. -/
def empty : KindSet := {}

/-- Whether a set holds a type. -/
def contains (s : KindSet) : SemanticType → Bool
  | .identifier => s.identifier
  | .text => s.text
  | .integer => s.integer
  | .float => s.float
  | .boolean => s.boolean
  | .untyped => s.untyped
  | .nested => s.nested

/-- A set with one more type. -/
def insert (s : KindSet) : SemanticType → KindSet
  | .identifier => { s with identifier := true }
  | .text => { s with text := true }
  | .integer => { s with integer := true }
  | .float => { s with float := true }
  | .boolean => { s with boolean := true }
  | .untyped => { s with untyped := true }
  | .nested => { s with nested := true }

/-- The types of either set. -/
def union (s t : KindSet) : KindSet where
  identifier := s.identifier || t.identifier
  text := s.text || t.text
  integer := s.integer || t.integer
  float := s.float || t.float
  boolean := s.boolean || t.boolean
  untyped := s.untyped || t.untyped
  nested := s.nested || t.nested

/-- The set of the types in a list. -/
def ofList (ts : List SemanticType) : KindSet :=
  ts.foldl insert empty

/-- The types in a set. -/
def toList (s : KindSet) : List SemanticType :=
  SemanticType.all.filter s.contains

/-- How many unrelated families of scalars narrower than text a set holds; integers and floats are
one family. -/
def families (s : KindSet) : Nat :=
  s.identifier.toNat + s.boolean.toNat + (s.integer || s.float).toNat

/-- The type that a set of types widens to (`resolve_type`). -/
def resolve (s : KindSet) : Option SemanticType :=
  if s.nested then some .nested
  else if s.untyped then some .untyped
  else if 1 < s.families then some .untyped
  else if s.text then some .text
  else if s.float then some .float
  else if s.integer then some .integer
  else if s.identifier then some .identifier
  else if s.boolean then some .boolean
  else none

@[ext]
theorem ext_contains {s t : KindSet} (h : ∀ k, s.contains k = t.contains k) : s = t := by
  have h1 := h .identifier
  have h2 := h .text
  have h3 := h .integer
  have h4 := h .float
  have h5 := h .boolean
  have h6 := h .untyped
  have h7 := h .nested
  cases s
  cases t
  simp_all [contains]

@[simp]
theorem contains_empty (k : SemanticType) : empty.contains k = false := by
  cases k <;> rfl

@[simp]
theorem contains_insert (s : KindSet) (k l : SemanticType) :
    (s.insert k).contains l = (decide (k = l) || s.contains l) := by
  cases k <;> cases l <;> simp [contains, insert]

@[simp]
theorem contains_union (s t : KindSet) (k : SemanticType) :
    (s.union t).contains k = (s.contains k || t.contains k) := by
  cases k <;> rfl

theorem contains_foldl_insert {ts : List SemanticType} {s : KindSet} {k : SemanticType} :
    (ts.foldl insert s).contains k = true ↔ s.contains k = true ∨ k ∈ ts := by
  induction ts generalizing s with
  | nil => simp
  | cons t ts ih =>
    rw [List.foldl_cons, ih, contains_insert, List.mem_cons, Bool.or_eq_true, decide_eq_true_eq]
    rw [or_comm (a := t = k), or_assoc, eq_comm (a := t)]

theorem resolve_eq_none_iff {s : KindSet} : s.resolve = none ↔ s = empty := by
  constructor
  · intro h
    obtain ⟨a, b, c, d, e, f, g⟩ := s
    revert h
    revert a b c d e f g
    decide
  · rintro rfl
    rfl

end KindSet

namespace SemanticType

/-- The type that two types widen to (`join_types`). -/
def join (a b : SemanticType) : SemanticType :=
  ((KindSet.empty.insert a).insert b).resolve.getD .untyped

/-- Whether a type that may still be unknown is the same or wider than before (`is_widening`). -/
def isWidening : (before after : Option SemanticType) → Bool
  | none, _ => true
  | some _, none => false
  | some a, some b => a.widensTo b

end SemanticType

end DocSchema
