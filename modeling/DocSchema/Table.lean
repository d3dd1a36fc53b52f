/-!
# Tables

Finite maps from names to values, in the order in which the names came.

- `get?_upsert`, `mem_keys_upsert`: what a table holds after an entry was written.
- `keys_upsert`: a name that is there keeps its place, a new one comes last.
- `sortedKeys_perm`: sorting the names loses none.
- `sortedKeys_congr`: the sorted names do not tell in which order the names came.
-/

namespace DocSchema

/-- A finite map from names to values, in the order in which the names came. -/
structure Table (α : Type) where
  entries : List (String × α) := []
  nodup : (entries.map Prod.fst).Nodup := by simp

namespace Table

variable {α : Type}

/-- The table without entries. -/
def empty : Table α := {}

instance : Inhabited (Table α) := ⟨empty⟩

/-- The names of a table, in the order in which they came. -/
def keys (t : Table α) : List String :=
  t.entries.map Prod.fst

/-- The value under a name. -/
def get? (t : Table α) (key : String) : Option α :=
  t.entries.lookup key

/-- Whether a table has a value under a name. -/
def contains (t : Table α) (key : String) : Bool :=
  (t.get? key).isSome

/-- The number of entries. -/
def size (t : Table α) : Nat :=
  t.entries.length

/-- Writes the value that `f` makes of the one under a name, or of none, into entries. -/
def upsertEntries (key : String) (f : Option α → α) : List (String × α) → List (String × α)
  | [] => [(key, f none)]
  | (other, value) :: entries =>
    if other = key then (other, f (some value)) :: entries
    else (other, value) :: upsertEntries key f entries

theorem map_fst_upsertEntries (key : String) (f : Option α → α) (entries : List (String × α)) :
    (upsertEntries key f entries).map Prod.fst =
      if key ∈ entries.map Prod.fst then entries.map Prod.fst
      else entries.map Prod.fst ++ [key] := by
  induction entries with
  | nil => simp [upsertEntries]
  | cons e entries ih =>
    obtain ⟨other, value⟩ := e
    by_cases h : other = key
    · simp [upsertEntries, h]
    · have h' : ¬ key = other := fun e => h e.symm
      by_cases hm : key ∈ entries.map Prod.fst
      · simp only [upsertEntries, h, if_false, List.map_cons, ih, hm, if_true, List.mem_cons, or_true]
      · simp only [upsertEntries, h, if_false, List.map_cons, ih, hm, List.mem_cons, h', or_self,
          List.cons_append]

theorem nodup_upsertEntries (key : String) (f : Option α → α) {entries : List (String × α)}
    (h : (entries.map Prod.fst).Nodup) : ((upsertEntries key f entries).map Prod.fst).Nodup := by
  rw [map_fst_upsertEntries]
  split
  · exact h
  · rename_i hkey
    rw [List.nodup_append]
    refine ⟨h, by simp, ?_⟩
    intro a ha b hb
    rw [List.mem_singleton.1 hb]
    rintro rfl
    exact hkey ha

/-- A table in which the value under a name, or none, has been replaced by what `f` makes of it. -/
def upsert (t : Table α) (key : String) (f : Option α → α) : Table α :=
  ⟨upsertEntries key f t.entries, nodup_upsertEntries key f t.nodup⟩

/-- A table with a value under a name. -/
def insert (t : Table α) (key : String) (value : α) : Table α :=
  t.upsert key fun _ => value

/-- A table with the value under a name changed, if there is one. -/
def modify (t : Table α) (key : String) (f : α → α) : Table α :=
  ⟨t.entries.map fun (other, value) => (other, if other = key then f value else value), by
    simpa [List.map_map, Function.comp_def] using t.nodup⟩

/-- The table of some entries, the last of those under one name. -/
def ofList (entries : List (String × α)) : Table α :=
  entries.foldl (fun t (key, value) => t.insert key value) empty

/-- The names of a table in the order of their characters. -/
def sortedKeys (t : Table α) : List String :=
  t.keys.mergeSort

/-- The values of a table. -/
def values (t : Table α) : List α :=
  t.entries.map Prod.snd

theorem keys_upsert (t : Table α) (key : String) (f : Option α → α) :
    (t.upsert key f).keys = if key ∈ t.keys then t.keys else t.keys ++ [key] :=
  map_fst_upsertEntries key f t.entries

theorem mem_keys_upsert {t : Table α} {key other : String} {f : Option α → α} :
    other ∈ (t.upsert key f).keys ↔ other = key ∨ other ∈ t.keys := by
  rw [keys_upsert]
  split
  · rename_i h
    exact ⟨Or.inr, fun h' => h'.elim (fun e => e ▸ h) id⟩
  · simp [or_comm]

theorem lookup_upsertEntries (key other : String) (f : Option α → α) (entries : List (String × α)) :
    (upsertEntries key f entries).lookup other =
      if other = key then some (f (entries.lookup key)) else entries.lookup other := by
  induction entries with
  | nil =>
    by_cases h : other = key
    · simp [upsertEntries, h]
    · simp [upsertEntries, List.lookup_cons, h, beq_eq_false_iff_ne.2 h]
  | cons e entries ih =>
    obtain ⟨k, value⟩ := e
    by_cases hk : k = key
    · subst hk
      by_cases h : other = k
      · simp [upsertEntries, h]
      · simp [upsertEntries, List.lookup_cons, h, beq_eq_false_iff_ne.2 h]
    · have hk' : ¬ key = k := fun e => hk e.symm
      by_cases h : other = k
      · subst h
        simp [upsertEntries, hk]
      · simp [upsertEntries, hk, List.lookup_cons, beq_eq_false_iff_ne.2 h, ih,
          beq_eq_false_iff_ne.2 hk']

theorem get?_upsert (t : Table α) (key other : String) (f : Option α → α) :
    (t.upsert key f).get? other = if other = key then some (f (t.get? key)) else t.get? other :=
  lookup_upsertEntries key other f t.entries

theorem get?_insert (t : Table α) (key other : String) (value : α) :
    (t.insert key value).get? other = if other = key then some value else t.get? other :=
  get?_upsert t key other _

@[simp]
theorem get?_empty (key : String) : (empty : Table α).get? key = none := rfl

theorem keys_modify (t : Table α) (key : String) (f : α → α) : (t.modify key f).keys = t.keys := by
  simp [modify, keys, Function.comp_def]

theorem lookup_modify (key other : String) (f : α → α) (entries : List (String × α)) :
    (entries.map fun (k, value) => (k, if k = key then f value else value)).lookup other =
      (entries.lookup other).map fun value => if other = key then f value else value := by
  induction entries with
  | nil => rfl
  | cons e entries ih =>
    obtain ⟨k, value⟩ := e
    by_cases h : other = k
    · subst h
      simp
    · simp [List.lookup_cons, beq_eq_false_iff_ne.2 h, ih]

theorem get?_modify (t : Table α) (key other : String) (f : α → α) :
    (t.modify key f).get? other =
      (t.get? other).map fun value => if other = key then f value else value :=
  lookup_modify key other f t.entries

theorem mem_keys_iff {t : Table α} {key : String} : key ∈ t.keys ↔ (t.get? key).isSome := by
  obtain ⟨entries, _⟩ := t
  simp only [keys, get?]
  induction entries with
  | nil => simp
  | cons e entries ih =>
    obtain ⟨k, value⟩ := e
    by_cases h : key = k
    · simp [h]
    · simp_all [List.lookup_cons, beq_eq_false_iff_ne.2 h]

theorem sortedKeys_perm (t : Table α) : t.sortedKeys.Perm t.keys :=
  List.mergeSort_perm _ _

theorem nodup_sortedKeys (t : Table α) : t.sortedKeys.Nodup :=
  t.sortedKeys_perm.nodup_iff.2 t.nodup

theorem pairwise_sortedKeys (t : Table α) : t.sortedKeys.Pairwise fun k l => decide (k ≤ l) = true := by
  refine List.pairwise_mergeSort (fun k l m hkl hlm => ?_) (fun k l => ?_) _
  · simp only [decide_eq_true_eq] at hkl hlm ⊢
    exact String.le_trans hkl hlm
  · simpa only [Bool.or_eq_true, decide_eq_true_eq] using String.le_total k l

/-- Tables with the same names have the same names in order. -/
theorem sortedKeys_congr {β : Type} {t : Table α} {u : Table β}
    (h : ∀ key, (t.get? key).isSome ↔ (u.get? key).isSome) : t.sortedKeys = u.sortedKeys := by
  have hk : t.keys.Perm u.keys :=
    (List.perm_ext_iff_of_nodup t.nodup u.nodup).2 fun key => mem_keys_iff.trans ((h key).trans mem_keys_iff.symm)
  refine List.Perm.eq_of_pairwise (fun k l _ _ hkl hlk => ?_) t.pairwise_sortedKeys u.pairwise_sortedKeys
    (t.sortedKeys_perm.trans (hk.trans u.sortedKeys_perm.symm))
  simp only [decide_eq_true_eq] at hkl hlk
  exact String.le_antisymm hkl hlk

end Table

end DocSchema
