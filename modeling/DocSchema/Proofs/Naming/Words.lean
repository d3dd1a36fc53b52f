import DocSchema.Naming

/-!
# Words of names

The name of a type is made of the words of a text: its runs of ASCII letters and digits, each with a
capital in front, one after the other. So a name has nothing but letters and digits, a name is its own
name, and a text is named part by part. The name of a nested type goes on from that of its parent, and
never stops there.

- `toList_pascal`: a text that is read character by character is named after its words.
- `pascal_eq_self_iff`: the texts that are names.
- `synthesized_names`: what holds of all names that are made of texts.
-/

namespace DocSchema.Naming

/-- A word with a capital in front. -/
def capitalized : List Char → List Char
  | [] => []
  | c :: word => c.toUpper :: word

/-- The parts of a text between its separators; there is nothing between two that follow each other. -/
def parts (s : List Char) : List (List Char) :=
  s.splitOnP fun c => !isWordChar c

/-- The words of a text: its runs of letters and digits. -/
def words (s : List Char) : List (List Char) :=
  (parts s).filter fun word => !word.isEmpty

/-- Outside of a word the next part begins with a capital; in a word, the part goes on as it is. -/
theorem pascalFrom_eq_parts (s : List Char) :
    pascalFrom false s = (parts s).flatMap capitalized ∧
    pascalFrom true s = (parts s).headD [] ++ (parts s).tail.flatMap capitalized := by
  induction s with
  | nil => simp [pascalFrom, parts, capitalized]
  | cons c s ih =>
    by_cases hc : isWordChar c = true
    · obtain ⟨part, later, hs⟩ := List.exists_cons_of_ne_nil (List.splitOnP_ne_nil (fun c => !isWordChar c) s)
      have hparts : parts (c :: s) = (c :: part) :: later := by
        simp [parts, List.splitOnP_cons_eq_if_modifyHead, hc, hs]
      have hrest : pascalFrom true s = part ++ later.flatMap capitalized := by simpa [parts, hs] using ih.2
      simp [pascalFrom, hc, hparts, hrest, capitalized]
    · have hparts : parts (c :: s) = [] :: parts s := by
        simp [parts, List.splitOnP_cons_eq_if_modifyHead, hc]
      simp [pascalFrom, hc, hparts, ih.1, capitalized]

/-- A name is made of the words of the text, each with a capital. -/
theorem toList_pascal (s : String) : (pascal s).toList = (words s.toList).flatMap capitalized := by
  have hempty : ∀ ps : List (List Char),
      (ps.filter fun word => !word.isEmpty).flatMap capitalized = ps.flatMap capitalized := by
    intro ps
    induction ps with
    | nil => rfl
    | cons part ps ih => rcases part with _ | ⟨c, part⟩ <;> simp [ih, capitalized]
  rw [pascal, String.toList_ofList, words, hempty, (pascalFrom_eq_parts s.toList).1]

/-! ## Names stay as they are -/

theorem isLower_eq (c : Char) : c.isLower = (decide (c.val ≥ 'a'.val) && decide (c.val ≤ 'z'.val)) := rfl

theorem isLower_iff {c : Char} : c.isLower = true ↔ 97 ≤ c.toNat ∧ c.toNat ≤ 122 := by
  simp [isLower_eq, UInt32.le_iff_toNat_le, ← Char.toNat_val]

theorem toUpper_of_not_isLower {c : Char} (h : c.isLower = false) : c.toUpper = c := by
  have hval : ¬(c.val ≥ 'a'.val ∧ c.val ≤ 'z'.val) := by simpa [isLower_eq] using h
  unfold Char.toUpper
  rw [dif_neg hval]

theorem isLower_toUpper (c : Char) : c.toUpper.isLower = false := by
  by_cases h : c.isLower = true
  · have hrange := isLower_iff.1 h
    have hval : c.val ≥ 'a'.val ∧ c.val ≤ 'z'.val := by simpa [isLower_eq] using h
    have hcapital : c.toUpper.toNat = c.toNat - 32 := by
      unfold Char.toUpper
      rw [dif_pos hval]
      simp [← Char.toNat_val, UInt32.toNat_add] at hrange ⊢
      omega
    rw [Bool.eq_false_iff, ne_eq, isLower_iff]
    omega
  · rw [Bool.not_eq_true] at h
    rw [toUpper_of_not_isLower h, h]

/-- A word that has begun is run on as it is. -/
theorem pascalFrom_true_of_word {word : List Char} (h : ∀ c ∈ word, isWordChar c = true) :
    pascalFrom true word = word := by
  induction word with
  | nil => rfl
  | cons c word ih =>
    rw [pascalFrom, if_pos (h c List.mem_cons_self), if_pos rfl, ih fun d hd => h d (List.mem_cons_of_mem _ hd)]

/-- A name does not begin with a small letter. -/
theorem isLower_head_pascalFrom {s : List Char} {c : Char} (h : (pascalFrom false s).head? = some c) :
    c.isLower = false := by
  induction s with
  | nil => simp [pascalFrom] at h
  | cons d s ih =>
    by_cases hd : isWordChar d = true
    · have hfirst : d.toUpper = c := by simpa [pascalFrom, hd] using h
      rw [← hfirst, isLower_toUpper]
    · exact ih (by simpa [pascalFrom, hd] using h)

/-- The texts that are names: letters and digits, of which the first is no small letter. -/
theorem pascal_eq_self_iff {s : String} :
    pascal s = s ↔ (∀ c ∈ s.toList, c.isAlphanum = true) ∧ ∀ c, s.toList.head? = some c → c.isLower = false := by
  constructor
  · intro h
    have hchars : pascalFrom false s.toList = s.toList := by
      simpa [pascal] using congrArg String.toList h
    exact ⟨fun c hc => pascalFrom_alphanumeric (hchars.symm ▸ hc),
      fun c hc => isLower_head_pascalFrom (hchars.symm ▸ hc)⟩
  · rintro ⟨hword, hhead⟩
    rw [pascal]
    apply String.toList_inj.1
    rw [String.toList_ofList]
    cases hs : s.toList with
    | nil => rfl
    | cons c rest =>
      rw [hs] at hword hhead
      have hrest : pascalFrom true rest = rest :=
        pascalFrom_true_of_word fun d hd => hword d (List.mem_cons_of_mem _ hd)
      have hc : isWordChar c = true := hword c List.mem_cons_self
      simp [pascalFrom, hc, hrest, toUpper_of_not_isLower (hhead c rfl)]

theorem isLower_head_pascal {s : String} {c : Char} (h : (pascal s).toList.head? = some c) : c.isLower = false :=
  isLower_head_pascalFrom (by simpa [pascal] using h)

theorem pascal_pascal (s : String) : pascal (pascal s) = pascal s :=
  pascal_eq_self_iff.2 ⟨fun _ => pascal_alphanumeric, fun _ => isLower_head_pascal⟩

/-! ## Names of types -/

/-- The name of a nested type goes on from that of its parent with letters and digits. -/
theorem exists_nestedTypeName_eq (parent field : String) :
    ∃ extension, extension ≠ "" ∧ (∀ c ∈ extension.toList, c.isAlphanum = true) ∧
      nestedTypeName parent field = parent ++ extension := by
  rw [nestedTypeName]
  by_cases h : pascal field = ""
  · exact ⟨"Field", by decide, List.all_eq_true.1 (by decide), by rw [if_pos h]⟩
  · exact ⟨pascal field, h, fun _ => pascal_alphanumeric, by rw [if_neg h]⟩

/-- The name of a top-level type is made of letters and digits, and there are some. -/
theorem typeName_alphanumeric (collection : String) :
    typeName collection ≠ "" ∧ ∀ c ∈ (typeName collection).toList, c.isAlphanum = true := by
  rw [typeName]
  by_cases h : pascal (singularize collection) = ""
  · rw [if_pos h]
    exact ⟨by decide, List.all_eq_true.1 (by decide)⟩
  · rw [if_neg h]
    exact ⟨h, fun _ => pascal_alphanumeric⟩

/-- **Names of types.** A text, whatever characters it has, makes a name of ASCII letters and digits that does
not begin with a small letter and is its own name; what stands on the two sides of any other character is
named apart. The name of a nested type is that of its parent with letters and digits added, and every
collection has a name. -/
theorem synthesized_names :
    (∀ s, (∀ c ∈ (pascal s).toList, c.isAlphanum = true) ∧
      (∀ c, (pascal s).toList.head? = some c → c.isLower = false) ∧ pascal (pascal s) = pascal s) ∧
    (∀ (s t : String) (c : Char), c.isAlphanum = false →
      pascal (s ++ String.singleton c ++ t) = pascal s ++ pascal t) ∧
    (∀ parent field, ∃ extension, extension ≠ "" ∧ (∀ c ∈ extension.toList, c.isAlphanum = true) ∧
      nestedTypeName parent field = parent ++ extension) ∧
    ∀ collection, typeName collection ≠ "" ∧ ∀ c ∈ (typeName collection).toList, c.isAlphanum = true := by
  refine ⟨fun s => ⟨fun _ => pascal_alphanumeric, fun _ => isLower_head_pascal, pascal_pascal s⟩, ?_,
    exists_nestedTypeName_eq, typeName_alphanumeric⟩
  intro s t c hc
  exact pascal_append_separator hc s t

theorem synthesized_names_accent :
    'é'.isAlphanum = false ∧ pascal ("home" ++ String.singleton 'é' ++ "2nd") = pascal "home" ++ pascal "2nd" ∧
    pascal "home" ++ pascal "2nd" = "Home2nd" := by
  have hseparator : 'é'.isAlphanum = false := by decide
  exact ⟨hseparator, synthesized_names.2.1 "home" "2nd" 'é' hseparator, by decide⟩

example : typeName "İstanbul_mice" = "IStanbulMouse" := by decide +kernel

end DocSchema.Naming
