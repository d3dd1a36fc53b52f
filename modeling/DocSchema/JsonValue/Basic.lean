import DocSchema.Number.Binary64

/-!
# JSON values

Objects keep their members in order.

- `member_of_mem`: a member that is there is found by its name.
-/

namespace DocSchema

/-- A JSON value. -/
inductive JsonValue
  | null
  | bool (b : Bool)
  | int (n : Int)
  | float (x : Binary64)
  | string (s : String)
  | array (items : List JsonValue)
  | object (members : List (String × JsonValue))
  deriving Repr, Inhabited

namespace JsonValue

/-- A text or null. -/
def ofText? : Option String → JsonValue
  | some s => .string s
  | none => .null

/-- The members of an object. -/
def members : JsonValue → List (String × JsonValue)
  | .object ms => ms
  | _ => []

/-- The member of an object with a name. -/
def member? (name : String) (v : JsonValue) : Option JsonValue :=
  v.members.lookup name

theorem member_of_mem {name : String} {members : List (String × JsonValue)}
    (h : name ∈ members.map Prod.fst) : ∃ v, (object members).member? name = some v := by
  simp only [member?, JsonValue.members]
  induction members with
  | nil => simp at h
  | cons m members ih =>
    obtain ⟨other, v⟩ := m
    by_cases hn : name = other
    · exact ⟨v, by simp [hn]⟩
    · simp only [List.map_cons, List.mem_cons, hn, false_or] at h
      simpa [List.lookup_cons, beq_eq_false_iff_ne.2 hn] using ih h

end JsonValue

end DocSchema
