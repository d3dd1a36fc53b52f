import DocSchema.Raw.Basic
import DocSchema.Text.Search
import DocSchema.Text.Utf8

/-!
# Variables in configurations

The texts of a configuration may refer to variables of the environment by their names in braces after
a dollar sign. The names are found first; then each reference is replaced, one name after the
other (`_substitute_env_vars`). A variable is looked up by the bytes of its name, which not every text has.

- `substituteText_plain`: a text that refers to no variable stays as it is.
- `substitute_congr`: only the variables that a value refers to count.
-/

namespace DocSchema.Config

/-- The values of variables; a variable that is not set has none. -/
abbrev Environment := String → Option String

/-- The name at the front of a text up to a closing brace, and the text behind it. -/
def takeName : List Char → Option (List Char × List Char)
  | [] => none
  | c :: cs =>
    if c = '}' then some ([], cs)
    else (takeName cs).map fun (name, rest) => (c :: name, rest)

theorem length_takeName {cs name rest : List Char} (h : takeName cs = some (name, rest)) :
    rest.length < cs.length := by
  induction cs generalizing name rest with
  | nil => simp [takeName] at h
  | cons c cs ih =>
    simp only [takeName] at h
    split at h
    · simp only [Option.some.injEq, Prod.mk.injEq] at h
      rw [← h.2]
      exact Nat.lt_succ_self _
    · simp only [Option.map_eq_some_iff] at h
      obtain ⟨⟨name', rest'⟩, htake, heq⟩ := h
      simp only [Prod.mk.injEq] at heq
      rw [← heq.2]
      exact Nat.lt_succ_of_lt (ih htake)

/-- The names of the variables that a text refers to, from the left. -/
def namesIn : List Char → List (List Char)
  | [] => []
  | [_] => []
  | a :: b :: cs =>
    if a = '$' ∧ b = '{' then
      match _h : takeName cs with
      | some (c :: name, rest) => (c :: name) :: namesIn rest
      | _ => namesIn (b :: cs)
    else namesIn (b :: cs)
termination_by cs => cs.length
decreasing_by
  all_goals simp_wf
  have := length_takeName _h
  omega

/-- The reference to a variable. -/
def reference (name : List Char) : List Char :=
  '$' :: '{' :: name ++ ['}']

/-- The names of the variables that a text refers to. -/
def namesOf (s : String) : List String :=
  (namesIn s.toList).map String.ofList

/-- A text with its references replaced by the values of the variables; a variable that is not set
has no text. -/
def replaced (env : Environment) (s : String) : String :=
  let replaced := (namesIn s.toList).foldl
    (fun cs name =>
      Text.replaceAll (reference name) ((env (String.ofList name)).getD "").toList cs) s.toList
  String.ofList replaced

/-- A text with its references replaced, if all variables can be looked up. -/
def substituteText (env : Environment) (s : String) : Except Text.EncodeError String :=
  match (namesOf s).findSome? Text.encodeError? with
  | none => .ok (replaced env s)
  | some e => .error e

mutual
/-- A value with the references in its texts replaced. -/
def substitute (env : Environment) : Raw → Except Text.EncodeError Raw
  | .text s => (substituteText env s).map .text
  | .code s => if (namesIn s.toList).isEmpty then .ok (.code s) else (substituteText env s).map .text
  | .list items => (substituteItems env items).map .list
  | .map entries => (substituteEntries env entries).map .map
  | r => .ok r
/-- Items with the references in their texts replaced. -/
def substituteItems (env : Environment) : List Raw → Except Text.EncodeError (List Raw)
  | [] => .ok []
  | item :: items => do
    let item ← substitute env item
    let items ← substituteItems env items
    .ok (item :: items)
/-- Entries with the references in the texts of their values replaced. -/
def substituteEntries (env : Environment) : List (Raw × Raw) → Except Text.EncodeError (List (Raw × Raw))
  | [] => .ok []
  | (key, value) :: entries => do
    let value ← substitute env value
    let entries ← substituteEntries env entries
    .ok ((key, value) :: entries)
end

mutual
/-- The names of the variables that the texts of a value refer to. -/
def variableNames : Raw → List String
  | .text s | .code s => namesOf s
  | .list items => variableNamesOfItems items
  | .map entries => variableNamesOfEntries entries
  | _ => []
/-- The names of the variables that some items refer to. -/
def variableNamesOfItems : List Raw → List String
  | [] => []
  | item :: items => variableNames item ++ variableNamesOfItems items
/-- The names of the variables that the values of some entries refer to. -/
def variableNamesOfEntries : List (Raw × Raw) → List String
  | [] => []
  | (_, value) :: entries => variableNames value ++ variableNamesOfEntries entries
end

theorem substituteText_plain (env : Environment) {s : String} (h : namesIn s.toList = []) :
    substituteText env s = .ok s := by
  simp [substituteText, namesOf, replaced, h]

theorem replaced_congr {env other : Environment} {s : String} (h : ∀ name ∈ namesOf s, env name = other name) :
    replaced env s = replaced other s := by
  have hfold : ∀ (names : List (List Char)) (cs : List Char),
      (∀ name ∈ names.map String.ofList, env name = other name) →
        names.foldl (fun cs name =>
          Text.replaceAll (reference name) ((env (String.ofList name)).getD "").toList cs) cs =
        names.foldl (fun cs name =>
          Text.replaceAll (reference name) ((other (String.ofList name)).getD "").toList cs) cs := by
    intro names
    induction names with
    | nil => intro cs _; rfl
    | cons name names ih =>
      intro cs hnames
      simp only [List.map_cons, List.mem_cons, forall_eq_or_imp] at hnames
      rw [List.foldl_cons, List.foldl_cons, hnames.1]
      exact ih _ hnames.2
  simp only [replaced, hfold _ _ h]

theorem substituteText_congr {env other : Environment} {s : String}
    (h : ∀ name ∈ namesOf s, env name = other name) : substituteText env s = substituteText other s := by
  rw [substituteText, substituteText, replaced_congr h]

mutual
theorem substitute_congr {env other : Environment} :
    ∀ {r : Raw}, (∀ name ∈ variableNames r, env name = other name) →
      substitute env r = substitute other r
  | .text _, h | .code _, h => by
    simp only [substitute, substituteText_congr h]
  | .list items, h => by
    rw [substitute, substitute, substituteItems_congr h]
  | .map entries, h => by
    rw [substitute, substitute, substituteEntries_congr h]
  | .null, _ | .bool _, _ | .int _, _ | .long _, _ | .float _, _ | .decimal _, _
  | .wideDecimal _, _ | .identifier _, _ | .bytes _ _, _ | .moment _, _ | .date _, _ | .uuid _, _
  | .tuple _, _ | .set _, _ | .foreign _, _ | .built _ _, _ => rfl
theorem substituteItems_congr {env other : Environment} :
    ∀ {items : List Raw}, (∀ name ∈ variableNamesOfItems items, env name = other name) →
      substituteItems env items = substituteItems other items
  | [], _ => rfl
  | item :: items, h => by
    simp only [variableNamesOfItems, List.mem_append] at h
    simp only [substituteItems]
    rw [substitute_congr fun name hn => h name (.inl hn),
      substituteItems_congr fun name hn => h name (.inr hn)]
theorem substituteEntries_congr {env other : Environment} :
    ∀ {entries : List (Raw × Raw)},
      (∀ name ∈ variableNamesOfEntries entries, env name = other name) →
      substituteEntries env entries = substituteEntries other entries
  | [], _ => rfl
  | (_, _) :: entries, h => by
    simp only [variableNamesOfEntries, List.mem_append] at h
    simp only [substituteEntries]
    rw [substitute_congr fun name hn => h name (.inl hn),
      substituteEntries_congr fun name hn => h name (.inr hn)]
end

end DocSchema.Config
