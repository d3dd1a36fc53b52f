import DocSchema.JsonValue.Basic
import DocSchema.Number.Shortest
import DocSchema.Text.Half

/-!
# Printing JSON

A JSON value over several lines, each level two spaces further to the right. Characters beyond ASCII
are escaped or stand for themselves.

- `escape_plain`: a letter stands for itself.
-/

namespace DocSchema.JsonValue

open Number (padded intText)

/-- The escape of a code unit of sixteen bits. -/
def unitEscape (unit : Nat) : String :=
  "\\u" ++ padded 16 4 unit

/-- The escape of a code point, which may take two units. -/
def pointEscape (point : Nat) : String :=
  if point < 0x10000 then unitEscape point
  else
    let rest := point - 0x10000
    unitEscape (0xd800 + rest / 0x400) ++ unitEscape (0xdc00 + rest % 0x400)

/-- One character of a text; `ascii` tells whether all others than ASCII are escaped. -/
def escape (ascii : Bool) (c : Char) : String :=
  if c = '"' then "\\\""
  else if c = '\\' then "\\\\"
  else if c = '\n' then "\\n"
  else if c = '\r' then "\\r"
  else if c = '\t' then "\\t"
  else if c.toNat = 8 then "\\b"
  else if c.toNat = 12 then "\\f"
  else if c.toNat < 32 then unitEscape c.toNat
  else if ascii && 127 ≤ c.toNat then pointEscape (Text.pointOf c)
  else String.singleton c

/-- A text between quotes. -/
def quoted (ascii : Bool) (s : String) : String :=
  "\"" ++ String.join (s.toList.map (escape ascii)) ++ "\""

/-- The text of a number. -/
def floatText : Binary64 → String
  | .nan => "NaN"
  | .infinity negative => if negative then "-Infinity" else "Infinity"
  | x => x.text

/-- A line break and the indentation of a level. -/
def lineBreak (level : Nat) : String :=
  "\n" ++ String.ofList (List.replicate (2 * level) ' ')

mutual
/-- A value at a level of indentation. -/
def printAt (ascii : Bool) (level : Nat) : JsonValue → String
  | .null => "null"
  | .bool b => if b then "true" else "false"
  | .int n => intText n
  | .float x => floatText x
  | .string s => quoted ascii s
  | .array [] => "[]"
  | .array (item :: items) =>
    "[" ++ lineBreak (level + 1) ++ printAt ascii (level + 1) item ++
      printItems ascii (level + 1) items ++ lineBreak level ++ "]"
  | .object [] => "\x7b\x7d"
  | .object ((name, value) :: members) =>
    "\x7b" ++ lineBreak (level + 1) ++ quoted ascii name ++ ": " ++
      printAt ascii (level + 1) value ++ printMembers ascii (level + 1) members ++
      lineBreak level ++ "\x7d"
/-- The items of an array after the first. -/
def printItems (ascii : Bool) (level : Nat) : List JsonValue → String
  | [] => ""
  | item :: items =>
    "," ++ lineBreak level ++ printAt ascii level item ++ printItems ascii level items
/-- The members of an object after the first. -/
def printMembers (ascii : Bool) (level : Nat) : List (String × JsonValue) → String
  | [] => ""
  | (name, value) :: members =>
    "," ++ lineBreak level ++ quoted ascii name ++ ": " ++ printAt ascii level value ++
      printMembers ascii level members
end

/-- The text of a value. -/
def print (ascii : Bool) (v : JsonValue) : String :=
  printAt ascii 0 v

theorem escape_plain (ascii : Bool) {c : Char} (h : c.isAlphanum = true) :
    escape ascii c = String.singleton c := by
  have hle : c.toNat < 127 ∧ 32 ≤ c.toNat ∧ c ≠ '"' ∧ c ≠ '\\' := by
    refine ⟨?_, ?_, ?_, ?_⟩
    · delta Char.isAlphanum Char.isAlpha Char.isUpper Char.isLower Char.isDigit at h
      simp only [Bool.or_eq_true, Bool.and_eq_true, decide_eq_true_eq, ge_iff_le, UInt32.le_iff_toNat_le] at h
      have hv : c.toNat = c.val.toNat := rfl
      rw [hv]
      rcases h with (⟨_, h⟩ | ⟨_, h⟩) | ⟨_, h⟩ <;> exact Nat.lt_of_le_of_lt h (by decide)
    · delta Char.isAlphanum Char.isAlpha Char.isUpper Char.isLower Char.isDigit at h
      simp only [Bool.or_eq_true, Bool.and_eq_true, decide_eq_true_eq, ge_iff_le, UInt32.le_iff_toNat_le] at h
      have hv : c.toNat = c.val.toNat := rfl
      rw [hv]
      rcases h with (⟨h, _⟩ | ⟨h, _⟩) | ⟨h, _⟩ <;> exact Nat.le_trans (by decide) h
    · rintro rfl
      exact absurd h (by decide)
    · rintro rfl
      exact absurd h (by decide)
  obtain ⟨h1, h2, h3, h4⟩ := hle
  have h5 : c ≠ '\n' := fun e => by subst e; exact absurd h2 (by decide)
  have h6 : c ≠ '\r' := fun e => by subst e; exact absurd h2 (by decide)
  have h7 : c ≠ '\t' := fun e => by subst e; exact absurd h2 (by decide)
  have h8 : ¬ c.toNat = 8 := by omega
  have h9 : ¬ c.toNat = 12 := by omega
  have h10 : ¬ c.toNat < 32 := by omega
  have h11 : ¬ 127 ≤ c.toNat := by omega
  simp [escape, h3, h4, h5, h6, h7, h8, h9, h10, h11]

end DocSchema.JsonValue
