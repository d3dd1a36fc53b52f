import DocSchema.Raw.Equality

/-!
# Equality of keys

Equality of raw values is no equivalence: a decimal number that is none equals nothing, not even itself, and
mappings are compared from one side only. Where one of the values can be a key, it is symmetric and
transitive, so equal keys find the same in a mapping. What makes two values equal is told once, by
`SameAs`, and everything else is read off it.

- `same_iff`: equality, by the ways in which two values are the same.
- `same_symm` and `same_trans`: equality of keys goes both ways and goes on.
- `lookup?_congr`: equal keys find the same.
- `mem_of_mem_distinct`, `exists_same_of_mem_distinct`: what stands among distinct keys.
-/

namespace DocSchema.Raw

theorem samePlace_iff {p q : Binary64.Extended} : samePlace p q = true ↔ p = q := by
  cases p with
  | low => cases q <;> simp [samePlace, Binary64.Extended.le]
  | high => cases q <;> simp [samePlace, Binary64.Extended.le]
  | «at» x => cases q <;> simp [samePlace, Binary64.Extended.le, Rat.le_antisymm_iff]

/-- How two values are the same: they are the same number, the same moment or the same bytes, their parts
are the same, or they are one value. -/
inductive SameAs : Raw → Raw → Prop
  | number {a b : Raw} {p : Binary64.Extended} (left : a.number? = some p) (right : b.number? = some p) :
      SameAs a b
  | bytes {form form' : BytesForm} {data : List UInt8} (left : ∀ subtype, form ≠ .tagged subtype)
      (right : ∀ subtype, form' ≠ .tagged subtype) : SameAs (.bytes form data) (.bytes form' data)
  | moment {m n : Moment} (offset : m.offset?.isSome = n.offset?.isSome)
      (micros : m.universalMicros = n.universalMicros) : SameAs (.moment m) (.moment n)
  | list {xs ys : List Raw} (items : sameList xs ys = true) : SameAs (.list xs) (.list ys)
  | tuple {xs ys : List Raw} (items : sameList xs ys = true) : SameAs (.tuple xs) (.tuple ys)
  | map {xs ys : List (Raw × Raw)} (entries : same (.map xs) (.map ys) = true) :
      SameAs (.map xs) (.map ys)
  | set {xs ys : List Raw} (items : same (.set xs) (.set ys) = true) : SameAs (.set xs) (.set ys)
  | built {k : ValueKind} {x y : Raw} (payload : same x y = true) : SameAs (.built k x) (.built k y)
  | one {a : Raw} (self : same a a = true) : SameAs a a

theorem sameAs_of_same {a b : Raw} (h : same a b = true) : SameAs a b := by
  have hsame := h
  rw [same.eq_def] at h
  split at h
  · rename_i ha hb
    exact .number ha (samePlace_iff.1 h ▸ hb)
  -- the numbers are told, and what is left goes by the kinds of the two values
  split at h
  case h_7 =>
    rw [Bool.and_eq_true, beq_iff_eq, beq_iff_eq] at h
    obtain ⟨rfl, rfl⟩ := h
    exact .one hsame
  case h_10 hleft hright _ =>
    obtain rfl := eq_of_beq h
    exact .bytes hleft hright
  case h_11 =>
    rw [sameMoment, Bool.and_eq_true, beq_iff_eq, beq_iff_eq] at h
    exact .moment h.1 h.2
  case h_14 => exact .list h
  case h_15 => exact .tuple h
  case h_16 => exact .map hsame
  case h_17 => exact .set hsame
  case h_18 =>
    rw [Bool.and_eq_true, beq_iff_eq] at h
    obtain rfl := h.1
    exact .one hsame
  case h_19 =>
    rw [Bool.and_eq_true, beq_iff_eq] at h
    obtain rfl := h.1
    exact .built h.2
  all_goals first
    | cases h; done
    | obtain rfl := eq_of_beq h; exact .one hsame
    | exact .one hsame

theorem same_of_sameAs {a b : Raw} (h : SameAs a b) : same a b = true := by
  cases h with
  | number left right =>
    rw [same.eq_def]
    simp only [left, right, samePlace_iff]
  | @bytes form form' data left right =>
    cases form <;> cases form' <;>
      first | exact absurd rfl (left _) | exact absurd rfl (right _) | simp [same, number?]
  | moment offset micros => simp [same, number?, sameMoment, offset, micros]
  | list items => simpa [same, number?] using items
  | tuple items => simpa [same, number?] using items
  | map entries => exact entries
  | set items => exact items
  | built payload => simpa [same, number?] using payload
  | one self => exact self

theorem same_iff {a b : Raw} : same a b = true ↔ SameAs a b :=
  ⟨sameAs_of_same, same_of_sameAs⟩

theorem number?_of_same {a b : Raw} {p : Binary64.Extended} (ha : a.number? = some p)
    (h : same a b = true) : b.number? = some p := by
  cases same_iff.1 h with
  | number left right => rw [right, ← left, ha]
  | one _ => exact ha
  | _ => cases ha

mutual
/-- Equality goes both ways, when one of the values can be a key. -/
theorem same_symm {a b : Raw} (hkey : a.isKey = true ∨ b.isKey = true) (h : same a b = true) :
    same b a = true := by
  cases same_iff.1 h with
  | number left right => exact same_iff.2 (.number right left)
  | bytes left right => exact same_iff.2 (.bytes right left)
  | moment offset micros => exact same_iff.2 (.moment offset.symm micros.symm)
  | list items => simp [isKey] at hkey
  | tuple items => exact same_iff.2 (.tuple (sameList_symm hkey items))
  | map entries => simp [isKey] at hkey
  | set items => simp [isKey] at hkey
  | built payload => exact same_iff.2 (.built (same_symm hkey payload))
  | one self => exact self
theorem sameList_symm {xs ys : List Raw} (hkeys : areKeys xs = true ∨ areKeys ys = true)
    (h : sameList xs ys = true) : sameList ys xs = true := by
  match xs, ys with
  | [], [] => rfl
  | x :: xs, y :: ys =>
    rw [sameList, Bool.and_eq_true] at h ⊢
    rw [areKeys, areKeys, Bool.and_eq_true, Bool.and_eq_true] at hkeys
    exact ⟨same_symm (hkeys.imp And.left And.left) h.1,
      sameList_symm (hkeys.imp And.right And.right) h.2⟩
end

mutual
/-- Equality goes on from a key. -/
theorem same_trans {a b c : Raw} (hkey : a.isKey = true) (hab : same a b = true)
    (hbc : same b c = true) : same a c = true := by
  cases same_iff.1 hab with
  | number left right => exact same_iff.2 (.number left (number?_of_same right hbc))
  | bytes left right =>
    cases same_iff.1 hbc with
    | number right' _ => cases right'
    | bytes _ right' => exact same_iff.2 (.bytes left right')
    | one _ => exact hab
  | moment offset micros =>
    cases same_iff.1 hbc with
    | number right' _ => cases right'
    | moment offset' micros' =>
      exact same_iff.2 (.moment (offset.trans offset') (micros.trans micros'))
    | one _ => exact hab
  | list items => cases hkey
  | tuple items =>
    cases same_iff.1 hbc with
    | number right' _ => cases right'
    | tuple items' => exact same_iff.2 (.tuple (sameList_trans hkey items items'))
    | one _ => exact hab
  | map entries => cases hkey
  | set items => cases hkey
  | built payload =>
    cases same_iff.1 hbc with
    | number right' _ => cases right'
    | built payload' => exact same_iff.2 (.built (same_trans hkey payload payload'))
    | one _ => exact hab
  | one self => exact hbc
theorem sameList_trans {xs ys zs : List Raw} (hkeys : areKeys xs = true)
    (hxy : sameList xs ys = true) (hyz : sameList ys zs = true) : sameList xs zs = true := by
  match xs, ys, zs with
  | [], [], [] => rfl
  | x :: xs, y :: ys, z :: zs =>
    rw [areKeys, Bool.and_eq_true] at hkeys
    rw [sameList, Bool.and_eq_true] at hxy hyz ⊢
    exact ⟨same_trans hkeys.1 hxy.1 hyz.1, sameList_trans hkeys.2 hxy.2 hyz.2⟩
end

section EqualKeys

variable {a b : Raw} (ha : a.isKey = true) (hb : b.isKey = true) (h : same a b = true)
include ha hb h

/-- What equals one of two equal keys equals the other. -/
theorem same_congr (other : Raw) : same other a = same other b := by
  rw [Bool.eq_iff_iff]
  constructor
  · intro hother
    exact same_symm (.inl hb)
      (same_trans hb (same_symm (.inl ha) h) (same_symm (.inr ha) hother))
  · intro hother
    exact same_symm (.inl ha) (same_trans ha h (same_symm (.inr hb) hother))

/-- Equal keys find the same. -/
theorem lookup?_congr {α : Type} (entries : List (Raw × α)) : lookup? a entries = lookup? b entries := by
  have hsame : (fun e : Raw × α => same e.1 a) = fun e => same e.1 b :=
    funext fun e => same_congr ha hb h e.1
  exact congrArg (fun p => (entries.find? p).map Prod.snd) hsame

end EqualKeys

/-- What is inserted under a key does not matter to another key. -/
theorem lookup?_insertEntry_of_ne {α : Type} {a b : Raw} (ha : a.isKey = true)
    (h : ¬same a b = true) (value : α) (entries : List (Raw × α)) :
    lookup? b (insertEntry a value entries) = lookup? b entries := by
  induction entries with
  | nil => simp [insertEntry, lookup?, h]
  | cons e entries ih =>
    obtain ⟨other, held⟩ := e
    rw [insertEntry]
    split
    · rename_i hother
      -- the entry keeps its key, which the other key does not equal, either
      have hne : ¬same other b = true := fun hb =>
        h (same_trans ha (same_symm (.inr ha) hother) hb)
      simp [lookup?, hne]
    · rw [lookup?, lookup?, List.find?_cons, List.find?_cons]
      split
      · rfl
      · exact ih

/-! ## Distinct keys -/

/-- A key is added unless an equal one is there. -/
theorem map_fst_insertEntry {α : Type} (key : Raw) (value : α) (entries : List (Raw × α)) :
    (insertEntry key value entries).map Prod.fst =
      if (entries.map Prod.fst).any (same · key) then entries.map Prod.fst else entries.map Prod.fst ++ [key] := by
  induction entries with
  | nil => rfl
  | cons e entries ih =>
    obtain ⟨other, held⟩ := e
    rw [insertEntry]
    cases hother : same other key with
    | true => simp [hother]
    | false =>
      simp only [Bool.false_eq_true, if_false, List.map_cons, ih, List.any_cons, hother, Bool.false_or]
      split <;> rfl

variable {key : Raw} {keys : List Raw} {held : List (Raw × Unit)}

theorem mem_foldl_insertEntry (h : key ∈ held.map Prod.fst) :
    key ∈ (keys.foldl (fun held key => insertEntry key () held) held).map Prod.fst := by
  induction keys generalizing held with
  | nil => exact h
  | cons other keys ih =>
    refine ih ?_
    rw [map_fst_insertEntry]
    split
    · exact h
    · exact List.mem_append_left _ h

theorem mem_of_mem_foldl_insertEntry
    (h : key ∈ (keys.foldl (fun held key => insertEntry key () held) held).map Prod.fst) :
    key ∈ held.map Prod.fst ∨ key ∈ keys := by
  induction keys generalizing held with
  | nil => exact .inl h
  | cons other keys ih =>
    obtain hheld | hkeys := ih h
    · rw [map_fst_insertEntry] at hheld
      split at hheld
      · exact .inl hheld
      · obtain hheld | hother := List.mem_append.1 hheld
        · exact .inl hheld
        · exact .inr (List.mem_cons.2 (.inl (List.mem_singleton.1 hother)))
    · exact .inr (List.mem_cons_of_mem _ hkeys)

theorem exists_same_of_mem_foldl_insertEntry (h : key ∈ keys) :
    ∃ other ∈ (keys.foldl (fun held key => insertEntry key () held) held).map Prod.fst,
      other = key ∨ same other key = true := by
  induction keys generalizing held with
  | nil => cases h
  | cons first keys ih =>
    rw [List.foldl_cons]
    obtain rfl | hkeys := List.mem_cons.1 h
    · have hinserted := map_fst_insertEntry key () held
      split at hinserted
      · rename_i hany
        obtain ⟨other, hother, hsame⟩ := List.any_eq_true.1 hany
        exact ⟨other, mem_foldl_insertEntry (hinserted ▸ hother), .inr hsame⟩
      · have hkey := List.mem_append_right (held.map Prod.fst) (List.mem_singleton_self key)
        exact ⟨key, mem_foldl_insertEntry (hinserted ▸ hkey), .inl rfl⟩
    · exact ih hkeys

theorem mem_of_mem_distinct (h : key ∈ distinct keys) : key ∈ keys := by
  obtain hnil | hkeys := mem_of_mem_foldl_insertEntry h
  · cases hnil
  · exact hkeys

/-- Each key stands among the distinct ones, or else one that is equal to it. -/
theorem exists_same_of_mem_distinct (h : key ∈ keys) :
    ∃ other ∈ distinct keys, other = key ∨ same other key = true :=
  exists_same_of_mem_foldl_insertEntry h

/-- A text is equal to no other value. -/
theorem eq_text_of_same {s : String} {r : Raw} (h : same (.text s) r = true) : r = .text s := by
  cases sameAs_of_same h with
  | number left _ => cases left
  | one _ => rfl

end DocSchema.Raw
