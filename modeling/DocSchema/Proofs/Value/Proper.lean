import DocSchema.Value.Conversion

/-!
# Proper value trees

A value tree is proper when every node holds a payload of its kind and no object has a key twice.
Values of plain data are proper, because a mapping has each of its keys once.

- `isProper_of_ofRaw`: what plain data is converted to is proper.
-/

namespace DocSchema

namespace Value

mutual
/-- Whether every node of a tree holds a payload of its kind and no object has a key twice. -/
def isProper : Value → Bool
  | .sequence items => isProperList items
  | .map entries => decide (entries.map Prod.fst).Nodup && isProperEntries entries
  | .unfit _ _ => false
  | _ => true
/-- Whether trees are proper. -/
def isProperList : List Value → Bool
  | [] => true
  | item :: items => isProper item && isProperList items
/-- Whether the trees below some entries are proper. -/
def isProperEntries : List (String × Value) → Bool
  | [] => true
  | (_, value) :: entries => isProper value && isProperEntries entries
end

theorem isProperList_iff {items : List Value} :
    isProperList items = true ↔ ∀ v ∈ items, v.isProper = true := by
  induction items with
  | nil => simp [isProperList]
  | cons v items ih => simp [isProperList, ih]

theorem isProperEntries_iff {entries : List (String × Value)} :
    isProperEntries entries = true ↔ ∀ e ∈ entries, e.2.isProper = true := by
  induction entries with
  | nil => simp [isProperEntries]
  | cons e entries ih =>
    obtain ⟨key, value⟩ := e
    simp [isProperEntries, ih]

end Value

namespace Raw

mutual
/-- Whether no mapping in a raw value has a text as a key twice. -/
def hasDistinctKeys : Raw → Bool
  | .list items | .tuple items => hasDistinctKeysList items
  | .map entries =>
    decide (entries.filterMap fun e => e.1.text?).Nodup && hasDistinctKeysEntries entries
  | _ => true
/-- Whether no mapping in raw values has a text as a key twice. -/
def hasDistinctKeysList : List Raw → Bool
  | [] => true
  | item :: items => hasDistinctKeys item && hasDistinctKeysList items
/-- Whether no mapping in the values of entries has a text as a key twice. -/
def hasDistinctKeysEntries : List (Raw × Raw) → Bool
  | [] => true
  | (_, value) :: entries => hasDistinctKeys value && hasDistinctKeysEntries entries
end

end Raw

/-! ## Conversions that may fail -/

/-- The step of a conversion that went on, and where it went on from. -/
theorem exists_of_bind_ok {α β ε : Type} {x : Except ε α} {f : α → Except ε β} {b : β}
    (h : x >>= f = .ok b) : ∃ a, x = .ok a ∧ f a = .ok b := by
  cases x with
  | error e => cases h
  | ok a => exact ⟨a, rfl, h⟩

theorem exists_of_map_ok {α β ε : Type} {x : Except ε α} {f : α → β} {b : β} (h : x.map f = .ok b) :
    ∃ a, x = .ok a ∧ f a = b := by
  cases x with
  | error e => cases h
  | ok a => exact ⟨a, rfl, Except.ok.inj h⟩

/-- Elements are converted one by one. -/
theorem mapM_eq_ok_iff {α β ε : Type} {f : α → Except ε β} {as : List α} {bs : List β} :
    as.mapM f = .ok bs ↔ as.map f = bs.map .ok := by
  induction as generalizing bs with
  | nil =>
    rw [List.mapM_nil, List.map_nil, eq_comm (a := []), List.map_eq_nil_iff]
    exact ⟨fun h => (Except.ok.inj h).symm, fun h => h ▸ rfl⟩
  | cons a as ih =>
    rw [List.mapM_cons, List.map_cons]
    constructor
    · intro h
      obtain ⟨b, hb, h⟩ := exists_of_bind_ok h
      obtain ⟨bs', hbs, h⟩ := exists_of_bind_ok h
      obtain rfl := Except.ok.inj h
      rw [List.map_cons, hb, ih.1 hbs]
    · intro h
      cases bs with
      | nil => cases h
      | cons b bs =>
        rw [List.map_cons, List.cons.injEq] at h
        rw [h.1, ih.2 h.2]
        rfl

/-- A list is not converted because of its first element that is not. -/
theorem mapM_eq_error_iff {α β ε : Type} {f : α → Except ε β} {as : List α} {e : ε} :
    as.mapM f = .error e ↔
      ∃ before a after, as = before ++ a :: after ∧ (∀ x ∈ before, ∃ b, f x = .ok b) ∧ f a = .error e := by
  induction as with
  | nil =>
    refine iff_of_false (fun h => by cases h) ?_
    rintro ⟨before, a, after, h, -⟩
    exact List.append_ne_nil_of_right_ne_nil before (List.cons_ne_nil a after) h.symm
  | cons x as ih =>
    rw [List.mapM_cons]
    cases hx : f x with
    | error d =>
      constructor
      · intro h
        cases h
        exact ⟨[], x, as, rfl, fun _ h => absurd h List.not_mem_nil, hx⟩
      · rintro ⟨before, a, after, h, hbefore, ha⟩
        cases before with
        | nil =>
          obtain ⟨rfl, rfl⟩ := List.cons.inj h
          cases hx.symm.trans ha
          rfl
        | cons y before =>
          obtain ⟨rfl, -⟩ := List.cons.inj h
          obtain ⟨b, hb⟩ := hbefore x List.mem_cons_self
          cases hx.symm.trans hb
    | ok b =>
      have hrest : (do let b ← Except.ok b; let bs ← as.mapM f; pure (b :: bs)) = Except.error e ↔
          as.mapM f = .error e := by
        cases as.mapM f with
        | error d => exact Iff.rfl
        | ok bs => exact iff_of_false (fun h => by cases h) (fun h => by cases h)
      refine hrest.trans (ih.trans ?_)
      constructor
      · rintro ⟨before, a, after, rfl, hbefore, ha⟩
        exact ⟨x :: before, a, after, rfl, List.forall_mem_cons.2 ⟨⟨b, hx⟩, hbefore⟩, ha⟩
      · rintro ⟨before, a, after, h, hbefore, ha⟩
        cases before with
        | nil =>
          obtain ⟨rfl, -⟩ := List.cons.inj h
          cases hx.symm.trans ha
        | cons y before =>
          obtain ⟨-, rfl⟩ := List.cons.inj h
          exact ⟨before, a, after, rfl, fun z hz => hbefore z (List.mem_cons_of_mem y hz), ha⟩

/-- What a list is converted to comes from its elements. -/
theorem exists_of_mapM_ok {α β ε : Type} {f : α → Except ε β} {as : List α} {bs : List β}
    (h : as.mapM f = .ok bs) {b : β} (hb : b ∈ bs) : ∃ a ∈ as, f a = .ok b := by
  refine List.mem_map.1 ?_
  rw [mapM_eq_ok_iff.1 h]
  exact List.mem_map_of_mem hb

/-- What a list is converted to is converted in any order. -/
theorem mapM_perm {α β ε : Type} {f : α → Except ε β} {as as' : List α} (hp : as.Perm as') {bs : List β}
    (h : as.mapM f = .ok bs) : ∃ bs', as'.mapM f = .ok bs' ∧ bs.Perm bs' := by
  induction hp generalizing bs with
  | nil => exact ⟨bs, h, .refl _⟩
  | cons a _ ih =>
    rw [mapM_eq_ok_iff, List.map_cons, eq_comm] at h
    obtain ⟨b, bs, rfl, hb, hbs⟩ := List.map_eq_cons_iff.1 h
    obtain ⟨bs', hbs', hp⟩ := ih (mapM_eq_ok_iff.2 hbs.symm)
    refine ⟨b :: bs', mapM_eq_ok_iff.2 ?_, hp.cons b⟩
    rw [List.map_cons, List.map_cons, hb, mapM_eq_ok_iff.1 hbs']
  | swap a a' as =>
    rw [mapM_eq_ok_iff, List.map_cons, List.map_cons, eq_comm] at h
    obtain ⟨b, bs, rfl, hb, h⟩ := List.map_eq_cons_iff.1 h
    obtain ⟨b', bs, rfl, hb', hbs⟩ := List.map_eq_cons_iff.1 h
    refine ⟨b' :: b :: bs, mapM_eq_ok_iff.2 ?_, .swap b' b bs⟩
    rw [List.map_cons, List.map_cons, List.map_cons, List.map_cons, hb, hb', hbs]
  | trans _ _ ih₁ ih₂ =>
    obtain ⟨bs', hbs', hp⟩ := ih₁ h
    obtain ⟨bs'', hbs'', hp'⟩ := ih₂ hbs'
    exact ⟨bs'', hbs'', hp.trans hp'⟩

/-! ## Converted values -/

namespace Value

/-- Whether a node is a scalar that is not null. -/
def isScalar : Value → Bool
  | .bool _ | .int _ | .float _ | .string _ | .identifier _ | .binary _ => true
  | _ => false

theorem isProper_of_isScalar {v : Value} (h : v.isScalar = true) : v.isProper = true := by
  cases v with
  | null | sequence _ | map _ | unfit _ _ => cases h
  | _ => rfl

theorem isScalar_ofPayload (raw : Raw) : (ofPayload raw).isScalar = true := by
  cases raw <;> rfl

theorem isScalar_of_unwrapText [Stack] {depth : Int} {make : String → Value} {raw : Raw} {v : Value}
    (hmake : ∀ s, (make s).isScalar = true) (h : unwrapText depth make raw = .ok v) : v.isScalar = true := by
  rw [unwrapText] at h
  split at h
  · cases h
    exact hmake _
  · cases h

theorem isScalar_of_unwrapNumber [Stack] {α : Type} {make : α → Value} {depth : Int} {key : String} {raw : Raw}
    {n : Except NumberFault α} {v : Value} (hmake : ∀ a, (make a).isScalar = true)
    (h : unwrapNumber depth key raw (n.map make) = .ok v) : v.isScalar = true := by
  cases n with
  | ok a =>
    cases h
    exact hmake a
  | error fault =>
    simp only [Except.map, unwrapNumber] at h
    split at h <;> cases h

/-- A wrapper stands for a scalar. -/
theorem isScalar_of_unwrap [Stack] {depth : Int} {key : String} {wrapper : Wrapper} {raw : Raw} {v : Value}
    (h : unwrap depth key wrapper raw = .ok v) : v.isScalar = true := by
  cases wrapper with
  | identifier => exact isScalar_of_unwrapText (fun _ => rfl) h
  | binary =>
    cases h
    exact isScalar_ofPayload raw
  | text =>
    simp only [unwrap] at h
    split at h
    · cases h
      rfl
    · exact isScalar_of_unwrapText (fun _ => rfl) h
    · exact isScalar_of_unwrapText (fun _ => rfl) h
  | int => exact isScalar_of_unwrapNumber (fun _ => rfl) h
  | float => exact isScalar_of_unwrapNumber (fun _ => rfl) h

theorem isScalar_of_ofDecimalText {text : String} {v : Value} (h : ofDecimalText text = .ok v) :
    v.isScalar = true := by
  rw [ofDecimalText] at h
  split at h <;> cases h
  rfl

/-- The keys of converted entries are the texts that the keys were. -/
theorem map_fst_of_ofRawEntries {stack : Stack} {depth : Int} {entries : List (Raw × Raw)}
    {values : List (String × Value)} (h : ofRawEntries depth entries = .ok values) :
    values.map Prod.fst = entries.filterMap fun e => e.1.text? := by
  induction entries generalizing values with
  | nil =>
    rw [ofRawEntries] at h
    cases h
    rfl
  | cons e entries ih =>
    obtain ⟨key, raw⟩ := e
    rw [ofRawEntries] at h
    split at h
    · cases h
    · rename_i name hname
      obtain ⟨value, -, h⟩ := exists_of_bind_ok h
      obtain ⟨rest, hrest, h⟩ := exists_of_bind_ok h
      cases h
      rw [List.map_cons, ih hrest]
      exact (List.filterMap_cons_some (f := fun e : Raw × Raw => e.1.text?) hname).symm

mutual
theorem isProper_of_ofRaw [stack : Stack] : ∀ (r : Raw) (depth : Int) (v : Value), r.isPlain = true →
    r.hasDistinctKeys = true → ofRaw depth r = .ok v → v.isProper = true
  | .list items, depth, v, hp, hd, h | .tuple items, depth, v, hp, hd, h => by
    rw [ofRaw] at h
    split at h
    · cases h
      rfl
    · split at h
      · obtain ⟨values, hi, rfl⟩ := exists_of_map_ok h
        rw [isProper]
        exact @isProperList_of_ofRawItems (stack.inside _) items _ values (by simpa [Raw.isPlain] using hp)
          (by simpa [Raw.hasDistinctKeys] using hd) hi
      · cases h
  | .map entries, depth, v, hp, hd, h => by
    rw [ofRaw] at h
    split at h
    · exact isProper_of_isScalar (isScalar_of_unwrap h)
    · split at h
      · cases h
        rfl
      · split at h
        · obtain ⟨values, hi, rfl⟩ := exists_of_map_ok h
          rw [Raw.hasDistinctKeys, Bool.and_eq_true, decide_eq_true_eq] at hd
          rw [isProper, Bool.and_eq_true, decide_eq_true_eq, map_fst_of_ofRawEntries hi]
          exact ⟨hd.1, @isProperEntries_of_ofRawEntries (stack.inside _) entries _ values
            (by simpa [Raw.isPlain] using hp) hd.2 hi⟩
        · cases h
  | .decimal d, depth, v, _, _, h | .wideDecimal d, depth, v, _, _, h => by
    rw [ofRaw] at h
    exact isProper_of_isScalar (isScalar_of_ofDecimalText h)
  | .built kind payload, _, _, hp, _, _ => by simp [Raw.isPlain] at hp
  | .null, _, _, _, _, h | .bool _, _, _, _, _, h | .int _, _, _, _, _, h | .long _, _, _, _, _, h
  | .float _, _, _, _, _, h | .text _, _, _, _, _, h | .code _, _, _, _, _, h
  | .identifier _, _, _, _, _, h | .bytes _ _, _, _, _, _, h | .moment _, _, _, _, _, h
  | .date _, _, _, _, _, h | .uuid _, _, _, _, _, h | .set _, _, _, _, _, h
  | .foreign _, _, _, _, _, h => by
    rw [ofRaw] at h
    cases h
    rfl
theorem isProperList_of_ofRawItems [Stack] : ∀ (items : List Raw) (depth : Int) (values : List Value),
    Raw.isPlainList items = true → Raw.hasDistinctKeysList items = true →
    ofRawItems depth items = .ok values → isProperList values = true
  | [], _, _, _, _, h => by
    rw [ofRawItems] at h
    cases h
    rfl
  | item :: items, depth, values, hp, hd, h => by
    rw [Raw.isPlainList, Bool.and_eq_true] at hp
    rw [Raw.hasDistinctKeysList, Bool.and_eq_true] at hd
    rw [ofRawItems] at h
    obtain ⟨value, hvalue, h⟩ := exists_of_bind_ok h
    obtain ⟨rest, hrest, h⟩ := exists_of_bind_ok h
    cases h
    rw [isProperList, Bool.and_eq_true]
    exact ⟨isProper_of_ofRaw item depth value hp.1 hd.1 hvalue,
      isProperList_of_ofRawItems items depth rest hp.2 hd.2 hrest⟩
theorem isProperEntries_of_ofRawEntries [Stack] : ∀ (entries : List (Raw × Raw)) (depth : Int)
    (values : List (String × Value)), Raw.isPlainEntries entries = true →
    Raw.hasDistinctKeysEntries entries = true → ofRawEntries depth entries = .ok values →
    isProperEntries values = true
  | [], _, _, _, _, h => by
    rw [ofRawEntries] at h
    cases h
    rfl
  | (key, raw) :: entries, depth, values, hp, hd, h => by
    simp only [Raw.isPlainEntries, Bool.and_eq_true] at hp
    rw [Raw.hasDistinctKeysEntries, Bool.and_eq_true] at hd
    rw [ofRawEntries] at h
    split at h
    · cases h
    · obtain ⟨value, hvalue, h⟩ := exists_of_bind_ok h
      obtain ⟨rest, hrest, h⟩ := exists_of_bind_ok h
      cases h
      rw [isProperEntries, Bool.and_eq_true]
      exact ⟨isProper_of_ofRaw raw depth value hp.1.2 hd.1 hvalue,
        isProperEntries_of_ofRawEntries entries depth rest hp.2 hd.2 hrest⟩
end

end Value

end DocSchema
