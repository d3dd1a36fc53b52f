import DocSchema.Text.Lowercase
import DocSchema.Text.Search

/-!
# Names of types

A top-level type is named after its collection, in the singular and with capitals; a nested type is
named after its parent type and its field.

- `pascal_append_separator`: words on the two sides of a separator are capitalised independently.
- `pascal_alphanumeric`: a capitalised name has ASCII letters and digits only.
-/

namespace DocSchema.Naming

open Text (endsWith lowercase splitOn)

/-- Whether a character is an ASCII letter or digit, the characters of words. -/
def isWordChar (c : Char) : Bool :=
  c.isAlphanum

/-- The words of a text run together, each with a capital; `inWord` tells that a word has begun. -/
def pascalFrom (inWord : Bool) : List Char → List Char
  | [] => []
  | c :: rest =>
    if isWordChar c then (if inWord then c else c.toUpper) :: pascalFrom true rest
    else pascalFrom false rest

/-- The words of a text run together, each with a capital (`to_pascal_case`). -/
def pascal (s : String) : String :=
  String.ofList (pascalFrom false s.toList)

theorem pascalFrom_append_separator (inWord : Bool) {c : Char} (hc : isWordChar c = false)
    (s t : List Char) :
    pascalFrom inWord (s ++ c :: t) = pascalFrom inWord s ++ pascalFrom false t := by
  induction s generalizing inWord with
  | nil => simp [pascalFrom, hc]
  | cons d s ih => by_cases h : isWordChar d <;> simp [pascalFrom, h, ih]

theorem pascal_append_separator {c : Char} (hc : isWordChar c = false) (s t : String) :
    pascal (s ++ String.singleton c ++ t) = pascal s ++ pascal t := by
  apply String.toList_inj.1
  simp [pascal, String.toList_append, pascalFrom_append_separator false hc]

/-- Plurals that no rule covers, with their singulars. -/
def irregularPlurals : List (String × String) :=
  [("people", "person"), ("men", "man"), ("women", "woman"), ("children", "child"),
    ("teeth", "tooth"), ("feet", "foot"), ("mice", "mouse"), ("geese", "goose"),
    ("movies", "movie"), ("series", "series"), ("species", "species")]

/-- Drops the last characters of a word. -/
def dropLast (count : Nat) (word : List Char) : List Char :=
  word.take (word.length - count)

/-- The singular of a lower-case word that follows the rules. -/
def regularSingular (word : List Char) : List Char :=
  let ends (ending : String) : Bool := endsWith ending.toList word
  if ends "ies" && 4 < word.length then dropLast 3 word ++ ['y']
  else if ends "ves" then dropLast 3 word ++ ['f']
  else if ["ses", "xes", "zes", "ches", "shes", "oes"].any ends then dropLast 2 word
  else if ends "s" && !(ends "ss" || ends "us") then dropLast 1 word
  else word

/-- The singular of a lower-case word (`_singularize_word`). -/
def singularWord (word : List Char) : List Char :=
  match irregularPlurals.lookup (String.ofList word) with
  | some singular => singular.toList
  | none => regularSingular word

/-- The singular of the last part of a lower-case name, whose parts are joined by underscores. -/
def singularLast : List (List Char) → List Char
  | [] => []
  | [part] => singularWord part
  | part :: parts => part ++ '_' :: singularLast parts

/-- The singular of a name, in lower case (`singularize`). -/
def singularize (name : String) : String :=
  let lower := lowercase name
  match irregularPlurals.lookup lower with
  | some singular => singular
  | none => String.ofList (singularLast (splitOn '_' lower.toList))

/-- The name of the top-level type of a collection (`type_name_for_collection`). -/
def typeName (collection : String) : String :=
  let name := pascal (singularize collection)
  if name = "" then "Document" else name

/-- The name of the type of objects in a field of a type (`nested_type_name`). -/
def nestedTypeName (parent field : String) : String :=
  let name := pascal field
  parent ++ if name = "" then "Field" else name

theorem isAlphanum_toUpper {c : Char} (h : c.isAlphanum = true) : c.toUpper.isAlphanum = true := by
  by_cases hl : c.isLower
  · have hlt : c.toNat < 128 := by
      have hl : (decide (97 ≤ c.val) && decide (c.val ≤ 122)) = true := hl
      simp only [Bool.and_eq_true, decide_eq_true_eq, UInt32.le_iff_toNat_le] at hl
      exact Nat.lt_of_le_of_lt hl.2 (by decide)
    have key : ∀ n, n < 128 → (Char.ofNat n).isAlphanum = true →
        (Char.ofNat n).toUpper.isAlphanum = true := by decide
    simpa using key c.toNat hlt (by simpa using h)
  · have : c.toUpper = c := by
      have hl : ¬ (decide (97 ≤ c.val) && decide (c.val ≤ 122)) = true := hl
      simp only [Bool.and_eq_true, decide_eq_true_eq] at hl
      exact dif_neg hl
    rwa [this]

theorem pascalFrom_alphanumeric {inWord : Bool} {s : List Char} {c : Char}
    (h : c ∈ pascalFrom inWord s) : c.isAlphanum = true := by
  induction s generalizing inWord with
  | nil => simp [pascalFrom] at h
  | cons d s ih =>
    simp only [pascalFrom] at h
    split at h
    · rename_i hd
      rcases List.mem_cons.1 h with rfl | h
      · cases inWord
        · exact isAlphanum_toUpper hd
        · exact hd
      · exact ih h
    · exact ih h

theorem pascal_alphanumeric {s : String} {c : Char} (h : c ∈ (pascal s).toList) :
    c.isAlphanum = true :=
  pascalFrom_alphanumeric (by simpa [pascal] using h)

end DocSchema.Naming
