import DocSchema.Proofs.Value.Proper

/-!
# The shape of converted values

A conversion opens containers, that is sequences and mappings that are no wrappers, down to the greatest depth.
What it comes to on its way stands at a place, a list of indices, and the value of it stands at the same place of
the tree. A container at the greatest depth is closed: it becomes a leaf, and what it holds does not count.

- `ofRaw_sequence`, `ofRaw_map`, `ofRaw_closed`: what becomes of a container above the greatest depth, and at it.
- `ofRaw_opened_sequence`, `ofRaw_opened_map`, `ofRaw_unopened`: the same on any stack, where there may be no room.
- `map_at?`: a tree has the values of what its conversion comes to, each in its place.
- `ofRaw_replacing`: a closed container may be replaced by any other.
- `ofRaw_shape`: the shape of a converted value.
-/

namespace DocSchema

namespace Raw

/-- Whether a value is a container that is opened if it is not too deep: a sequence, or a mapping that is no
wrapper. -/
def isContainer : Raw → Bool
  | .list _ | .tuple _ => true
  | .map entries => (Value.wrapper? entries).isNone
  | _ => false

/-- The values that a container holds: the items of a sequence, the values of a mapping. -/
def held : Raw → List Raw
  | .list items | .tuple items => items
  | .map entries => entries.map Prod.snd
  | _ => []

/-- What a conversion from a depth comes to at a place. -/
def met? (depth : Int) : List Nat → Raw → Option Raw
  | [], r => some r
  | i :: place, r =>
    if r.isContainer ∧ depth < Value.maxDepth then r.held[i]?.bind (met? (depth + 1) place) else none

/-- A value with another one in the place of a part. -/
def replacing : Raw → List Nat → Raw → Raw
  | _, [], other => other
  | .list items, i :: place, other => .list (items.modify i (·.replacing place other))
  | .tuple items, i :: place, other => .tuple (items.modify i (·.replacing place other))
  | .map entries, i :: place, other =>
    .map (entries.modify i fun e => (e.1, e.2.replacing place other))
  | r, _ :: _, _ => r

theorem isPlainList_iff {items : List Raw} : isPlainList items = true ↔ ∀ r ∈ items, r.IsPlain := by
  induction items with
  | nil => simp [isPlainList]
  | cons r items ih => simp [isPlainList, ih]

theorem isPlainEntries_iff {entries : List (Raw × Raw)} :
    isPlainEntries entries = true ↔ ∀ e ∈ entries, e.1.IsPlain ∧ e.2.IsPlain := by
  induction entries with
  | nil => simp [isPlainEntries]
  | cons e entries ih =>
    obtain ⟨key, value⟩ := e
    simp [isPlainEntries, ih]

end Raw

namespace Value

/-- The values right below a node. -/
def parts : Value → List Value
  | .sequence items => items
  | .map entries => entries.map Prod.snd
  | _ => []

/-- The value at a place of a tree. -/
def at? : List Nat → Value → Option Value
  | [], v => some v
  | i :: place, v => v.parts[i]?.bind (at? place)

mutual
/-- The number of sequences and mappings that stand one inside of the other. -/
def nesting : Value → Nat
  | .sequence items => nestingOfItems items + 1
  | .map entries => nestingOfEntries entries + 1
  | _ => 0
/-- The greatest nesting of some values. -/
def nestingOfItems : List Value → Nat
  | [] => 0
  | item :: items => max (nesting item) (nestingOfItems items)
/-- The greatest nesting of the values of some entries. -/
def nestingOfEntries : List (String × Value) → Nat
  | [] => 0
  | (_, value) :: entries => max (nesting value) (nestingOfEntries entries)
end

/-- The entry that an entry of a mapping becomes, whose key must be text. -/
def ofRawEntry [Stack] (depth : Int) (e : Raw × Raw) : Except DocumentFault (String × Value) :=
  match e.1.text? with
  | none => .error (.showing depth e.1 (.keyNotText e.1.shortTypeName))
  | some name => (ofRaw depth e.2).map (name, ·)

variable {depth : Int} {r : Raw} {v : Value}

/-! ## One step of a conversion -/

theorem ofRawItems_eq_mapM {stack : Stack} (depth : Int) (items : List Raw) :
    ofRawItems depth items = items.mapM (ofRaw depth) := by
  induction items with
  | nil => rw [ofRawItems]; rfl
  | cons item items ih => rw [ofRawItems, List.mapM_cons, ih]; rfl

theorem ofRawEntries_eq_mapM {stack : Stack} (depth : Int) (entries : List (Raw × Raw)) :
    ofRawEntries depth entries = entries.mapM (ofRawEntry depth) := by
  induction entries with
  | nil => rw [ofRawEntries]; rfl
  | cons e entries ih =>
    obtain ⟨key, raw⟩ := e
    rw [ofRawEntries, List.mapM_cons, ih, ofRawEntry]
    split
    · rename_i hkey
      rw [hkey]
      rfl
    · rename_i name hkey
      rw [hkey]
      dsimp only
      cases ofRaw depth raw <;> rfl

theorem ofRaw_closed [Stack] (hr : r.isContainer = true) (hdepth : maxDepth ≤ depth) : ofRaw depth r = .ok untyped := by
  cases r with
  | list items => rw [ofRaw, if_pos hdepth]
  | tuple items => rw [ofRaw, if_pos hdepth]
  | map entries =>
    rw [ofRaw, Option.isNone_iff_eq_none.1 hr]
    exact if_pos hdepth
  | _ => cases hr

theorem ofRaw_opened_sequence [stack : Stack] (hdepth : depth < maxDepth) {items : List Raw}
    (hr : r = .list items ∨ r = .tuple items) (hopens : Stack.opens [] depth r = true) :
    ofRaw depth r = (items.mapM (@ofRaw (stack.inside r) (depth + 1))).map .sequence := by
  obtain rfl | rfl := hr <;>
    rw [ofRaw, if_neg (Int.not_le.2 hdepth), if_pos hopens, ofRawItems_eq_mapM]

theorem ofRaw_opened_map [stack : Stack] (hdepth : depth < maxDepth) {entries : List (Raw × Raw)}
    (h : wrapper? entries = none) (hopens : Stack.opens [] depth (.map entries) = true) :
    ofRaw depth (.map entries) =
      (entries.mapM (@ofRawEntry (stack.inside (.map entries)) (depth + 1))).map .map := by
  rw [ofRaw, h, ← ofRawEntries_eq_mapM]
  exact (if_neg (Int.not_le.2 hdepth)).trans (if_pos hopens)

/-- A container for which there is no room is not gone into. -/
theorem ofRaw_unopened [Stack] (hr : r.isContainer = true) (hdepth : depth < maxDepth)
    (hopens : Stack.opens [] depth r = false) : ofRaw depth r = .error (.tooDeep .converted) := by
  have hfull : ¬Stack.opens [] depth r = true := by simp [hopens]
  cases r with
  | list items => rw [ofRaw, if_neg (Int.not_le.2 hdepth), if_neg hfull]
  | tuple items => rw [ofRaw, if_neg (Int.not_le.2 hdepth), if_neg hfull]
  | map entries =>
    rw [ofRaw, Option.isNone_iff_eq_none.1 hr]
    exact (if_neg (Int.not_le.2 hdepth)).trans (if_neg hfull)
  | _ => cases hr

theorem ofRaw_sequence (hdepth : depth < maxDepth) {items : List Raw} (hr : r = .list items ∨ r = .tuple items) :
    ofRaw depth r = (items.mapM (ofRaw (depth + 1))).map .sequence :=
  ofRaw_opened_sequence hdepth hr rfl

theorem ofRaw_map (hdepth : depth < maxDepth) {entries : List (Raw × Raw)} (h : wrapper? entries = none) :
    ofRaw depth (.map entries) = (entries.mapM (ofRawEntry (depth + 1))).map .map :=
  ofRaw_opened_map hdepth h rfl

theorem ofRaw_wrapper [Stack] {entries : List (Raw × Raw)} {key : String} {wrapper : Wrapper} {raw : Raw}
    (h : wrapper? entries = some (key, wrapper, raw)) :
    ofRaw depth (.map entries) = unwrap depth key wrapper raw := by
  rw [ofRaw, h]

/-- The value of a sequence above the greatest depth has the values of its items. -/
theorem sequence_of_ofRaw (hdepth : depth < maxDepth) {items : List Raw}
    (hr : r = .list items ∨ r = .tuple items) (h : ofRaw depth r = .ok v) :
    ∃ values, v = .sequence values ∧ items.map (ofRaw (depth + 1)) = values.map .ok := by
  rw [ofRaw_sequence hdepth hr] at h
  obtain ⟨values, hvalues, rfl⟩ := exists_of_map_ok h
  exact ⟨values, rfl, mapM_eq_ok_iff.1 hvalues⟩

/-- Entries are converted to entries under the texts that their keys are. -/
theorem map_ofRawEntry_ok {entries : List (Raw × Raw)} {values : List (String × Value)}
    (h : entries.map (ofRawEntry depth) = values.map .ok) :
    entries.map (fun e => (e.1.text?, ofRaw depth e.2)) =
      values.map fun (e : String × Value) => (some e.1, .ok e.2) := by
  induction entries generalizing values with
  | nil =>
    cases values with
    | nil => rfl
    | cons _ _ => cases h
  | cons e entries ih =>
    cases values with
    | nil => cases h
    | cons value values =>
      obtain ⟨hvalue, hvalues⟩ := List.cons.inj h
      rw [List.map_cons, List.map_cons, ih hvalues]
      congr 1
      rw [ofRawEntry] at hvalue
      split at hvalue
      · cases hvalue
      · rename_i name hname
        obtain ⟨w, hw, rfl⟩ := exists_of_map_ok hvalue
        rw [hname, hw]

/-- The value of a mapping above the greatest depth has the values of its entries. -/
theorem map_of_ofRaw (hdepth : depth < maxDepth) {entries : List (Raw × Raw)} (hr : wrapper? entries = none)
    (h : ofRaw depth (.map entries) = .ok v) :
    ∃ values, v = .map values ∧ entries.map (fun e => (e.1.text?, ofRaw (depth + 1) e.2)) =
      values.map fun (e : String × Value) => (some e.1, .ok e.2) := by
  rw [ofRaw_map hdepth hr] at h
  obtain ⟨values, hvalues, rfl⟩ := exists_of_map_ok h
  exact ⟨values, rfl, map_ofRawEntry_ok (mapM_eq_ok_iff.1 hvalues)⟩

/-- What is no container becomes null or a scalar. -/
theorem isScalar_of_ofRaw (hplain : r.IsPlain) (hr : r.isContainer = false) (h : ofRaw depth r = .ok v) :
    v = .null ∨ v.isScalar = true := by
  cases r with
  | list items => cases hr
  | tuple items => cases hr
  | built kind payload => cases hplain
  | map entries =>
    obtain ⟨⟨key, wrapper, raw⟩, hwrapper⟩ := Option.isSome_iff_exists.1 (Option.isNone_eq_false_iff.1 hr)
    rw [ofRaw_wrapper hwrapper] at h
    exact .inr (isScalar_of_unwrap h)
  | decimal d =>
    rw [ofRaw] at h
    exact .inr (isScalar_of_ofDecimalText h)
  | wideDecimal d =>
    rw [ofRaw] at h
    exact .inr (isScalar_of_ofDecimalText h)
  | null =>
    rw [ofRaw] at h
    exact .inl (Except.ok.inj h).symm
  | _ =>
    rw [ofRaw] at h
    cases h
    exact .inr rfl

theorem parts_of_isScalar (h : v = .null ∨ v.isScalar = true) : v.parts = [] := by
  cases v with
  | sequence items => simp [isScalar] at h
  | map entries => simp [isScalar] at h
  | _ => rfl

/-- A conversion goes on with what a container holds, unless it is closed. -/
theorem parts_of_ofRaw (hplain : r.IsPlain) (h : ofRaw depth r = .ok v) :
    v.parts.map .ok =
      if r.isContainer ∧ depth < maxDepth then r.held.map (ofRaw (depth + 1)) else [] := by
  split
  · rename_i hopen
    obtain ⟨hr, hdepth⟩ := hopen
    cases r with
    | list items =>
      obtain ⟨values, rfl, hvalues⟩ := sequence_of_ofRaw hdepth (.inl rfl) h
      exact hvalues.symm
    | tuple items =>
      obtain ⟨values, rfl, hvalues⟩ := sequence_of_ofRaw hdepth (.inr rfl) h
      exact hvalues.symm
    | map entries =>
      obtain ⟨values, rfl, hvalues⟩ := map_of_ofRaw hdepth (Option.isNone_iff_eq_none.1 hr) h
      have hsnd := congrArg (List.map Prod.snd) hvalues
      rw [List.map_map, List.map_map] at hsnd
      rw [parts, Raw.held, List.map_map, List.map_map]
      exact hsnd.symm
    | _ => cases hr
  · rename_i hclosed
    have hsingle : v.parts = [] := by
      cases hr : r.isContainer with
      | true =>
        rw [ofRaw_closed hr (Int.not_lt.1 fun hdepth => hclosed ⟨hr, hdepth⟩)] at h
        cases h
        rfl
      | false => exact parts_of_isScalar (isScalar_of_ofRaw hplain hr h)
    rw [hsingle]
    rfl

/-! ## Places -/

theorem isPlain_of_held (hplain : r.IsPlain) {part : Raw} (hpart : part ∈ r.held) : part.IsPlain := by
  cases r with
  | list items => exact Raw.isPlainList_iff.1 hplain part hpart
  | tuple items => exact Raw.isPlainList_iff.1 hplain part hpart
  | map entries =>
    obtain ⟨e, he, rfl⟩ := List.mem_map.1 hpart
    exact (Raw.isPlainEntries_iff.1 hplain e he).2
  | _ => cases hpart

theorem isPlain_of_met? (hplain : r.IsPlain) {place : List Nat} {part : Raw}
    (h : r.met? depth place = some part) : part.IsPlain := by
  induction place generalizing depth r with
  | nil => exact Option.some.inj h ▸ hplain
  | cons i place ih =>
    rw [Raw.met?] at h
    split at h
    · obtain ⟨inner, hinner, h⟩ := Option.bind_eq_some_iff.1 h
      exact ih (isPlain_of_held hplain (List.mem_of_getElem? hinner)) h
    · cases h

/-- A tree has at each place the value of what its conversion comes to there, and no value where it comes to
nothing. -/
theorem map_at? (hplain : r.IsPlain) (h : ofRaw depth r = .ok v) (place : List Nat) :
    (v.at? place).map .ok = (r.met? depth place).map (ofRaw (depth + place.length)) := by
  induction place generalizing depth r v with
  | nil => simp [at?, Raw.met?, h]
  | cons i place ih =>
    have hparts := parts_of_ofRaw hplain h
    have hdeeper : depth + 1 + place.length = depth + (i :: place).length := by
      rw [List.length_cons]
      omega
    split at hparts
    · rename_i hopen
      have hindex := congrArg (fun l : List (Except DocumentFault Value) => l[i]?) hparts
      simp only [List.getElem?_map] at hindex
      rw [at?, Raw.met?, if_pos hopen]
      cases hheld : r.held[i]? with
      | none =>
        rw [hheld] at hindex
        rw [Option.map_eq_none_iff.1 hindex]
        rfl
      | some part =>
        rw [hheld, Option.map_some] at hindex
        obtain ⟨x, hx, hpart⟩ := Option.map_eq_some_iff.1 hindex
        rw [hx, Option.bind_some, Option.bind_some, ← hdeeper]
        exact ih (isPlain_of_held hplain (List.mem_of_getElem? hheld)) hpart.symm
    · rename_i hclosed
      rw [at?, Raw.met?, if_neg hclosed, List.map_eq_nil_iff.1 hparts]
      rfl

theorem at?_of_met? (hplain : r.IsPlain) (h : ofRaw depth r = .ok v) {place : List Nat} {part : Raw}
    (hmet : r.met? depth place = some part) :
    ∃ w, v.at? place = some w ∧ ofRaw (depth + place.length) part = .ok w := by
  have hplace := map_at? hplain h place
  rw [hmet] at hplace
  obtain ⟨w, hw, hpart⟩ := Option.map_eq_some_iff.1 hplace
  exact ⟨w, hw, hpart.symm⟩

theorem met?_of_at? (hplain : r.IsPlain) (h : ofRaw depth r = .ok v) {place : List Nat} {w : Value}
    (hw : v.at? place = some w) :
    ∃ part, r.met? depth place = some part ∧ ofRaw (depth + place.length) part = .ok w := by
  have hplace := map_at? hplain h place
  rw [hw] at hplace
  exact Option.map_eq_some_iff.1 hplace.symm

/-! ## Closed containers -/

/-- Whether a mapping is a wrapper depends on its keys only. -/
theorem wrapper?_modify_eq_none_iff {entries : List (Raw × Raw)} {i : Nat} {f : Raw → Raw} :
    wrapper? (entries.modify i fun e => (e.1, f e.2)) = none ↔ wrapper? entries = none := by
  match entries, i with
  | [], _ => rw [List.modify_nil]
  | [(key, raw)], 0 =>
    rw [List.modify_zero_cons]
    cases hkey : key.text? with
    | none => simp [wrapper?, hkey]
    | some name => cases hwrapper : Wrapper.ofKey? name <;> simp [wrapper?, hkey, hwrapper]
  | [e], i + 1 => rw [List.modify_succ_cons, List.modify_nil]
  | e :: e' :: entries, 0 => exact iff_of_true rfl rfl
  | e :: e' :: entries, 1 => exact iff_of_true rfl rfl
  | e :: e' :: entries, i + 2 => exact iff_of_true rfl rfl

theorem mapM_modify {α β ε : Type} {f : α → Except ε β} {g : α → α} {as : List α} {i : Nat}
    (h : ∀ a, as[i]? = some a → f (g a) = f a) : (as.modify i g).mapM f = as.mapM f := by
  induction as generalizing i with
  | nil => cases i <;> rfl
  | cons a as ih =>
    cases i with
    | zero => rw [List.modify_zero_cons, List.mapM_cons, List.mapM_cons, h a rfl]
    | succ i => rw [List.modify_succ_cons, List.mapM_cons, List.mapM_cons, ih h]

/-- **Closed containers do not count.** A container at the greatest depth may be replaced by any other container:
the conversion succeeds or fails as before, with the same tree or the same fault. -/
theorem ofRaw_replacing {place : List Nat} {part other : Raw} (hmet : r.met? depth place = some part)
    (hpart : part.isContainer = true) (hclosed : maxDepth ≤ depth + place.length)
    (hother : other.isContainer = true) : ofRaw depth (r.replacing place other) = ofRaw depth r := by
  induction place generalizing depth r with
  | nil =>
    obtain rfl := Option.some.inj hmet
    have hdepth : maxDepth ≤ depth := by simpa using hclosed
    rw [Raw.replacing, ofRaw_closed hother hdepth, ofRaw_closed hpart hdepth]
  | cons i place ih =>
    rw [Raw.met?] at hmet
    split at hmet
    · rename_i hopen
      obtain ⟨hr, hdepth⟩ := hopen
      obtain ⟨inner, hinner, hmet⟩ := Option.bind_eq_some_iff.1 hmet
      have hdeeper : maxDepth ≤ depth + 1 + place.length := by
        rw [List.length_cons] at hclosed
        omega
      have hkept := ih hmet hdeeper
      cases r with
      | list items =>
        rw [Raw.replacing, ofRaw_sequence hdepth (.inl rfl), ofRaw_sequence hdepth (.inl rfl), mapM_modify]
        intro item hitem
        obtain rfl := Option.some.inj (hitem.symm.trans hinner)
        exact hkept
      | tuple items =>
        rw [Raw.replacing, ofRaw_sequence hdepth (.inr rfl), ofRaw_sequence hdepth (.inr rfl), mapM_modify]
        intro item hitem
        obtain rfl := Option.some.inj (hitem.symm.trans hinner)
        exact hkept
      | map entries =>
        have hunwrapped := Option.isNone_iff_eq_none.1 hr
        have hkeys := (wrapper?_modify_eq_none_iff (i := i) (f := (·.replacing place other))).2 hunwrapped
        rw [Raw.replacing, ofRaw_map hdepth hkeys, ofRaw_map hdepth hunwrapped, mapM_modify]
        intro e he
        rw [Raw.held, List.getElem?_map, he] at hinner
        obtain rfl := Option.some.inj hinner
        rw [ofRawEntry, ofRawEntry, hkept]
      | _ => cases hr
    · cases hmet

/-! ## The shape -/

theorem nestingOfItems_le {items : List Value} {n : Nat} (h : ∀ w ∈ items, w.nesting ≤ n) :
    nestingOfItems items ≤ n := by
  induction items with
  | nil => exact Nat.zero_le n
  | cons w items ih =>
    rw [List.forall_mem_cons] at h
    exact Nat.max_le.2 ⟨h.1, ih h.2⟩

theorem nestingOfEntries_le {entries : List (String × Value)} {n : Nat}
    (h : ∀ e ∈ entries, e.2.nesting ≤ n) : nestingOfEntries entries ≤ n := by
  induction entries with
  | nil => exact Nat.zero_le n
  | cons e entries ih =>
    rw [List.forall_mem_cons] at h
    exact Nat.max_le.2 ⟨h.1, ih h.2⟩

theorem nesting_le_of_parts {n : Nat} (h : ∀ w ∈ v.parts, w.nesting ≤ n) : v.nesting ≤ n + 1 := by
  cases v with
  | sequence items => exact Nat.succ_le_succ (nestingOfItems_le h)
  | map entries =>
    exact Nat.succ_le_succ (nestingOfEntries_le fun e he => h e.2 (List.mem_map_of_mem he))
  | _ => exact Nat.zero_le _

theorem nesting_of_isScalar (h : v = .null ∨ v.isScalar = true) : v.nesting = 0 := by
  cases v with
  | sequence items => simp [isScalar] at h
  | map entries => simp [isScalar] at h
  | _ => rfl

/-- A tree has at most as many levels as there are depths left. -/
theorem nesting_le_of_ofRaw (levels : Nat) (hplain : r.IsPlain) (h : ofRaw depth r = .ok v)
    (hlevels : maxDepth ≤ depth + levels) : v.nesting ≤ levels := by
  induction levels generalizing depth r v with
  | zero =>
    cases hr : r.isContainer with
    | true =>
      rw [ofRaw_closed hr (by simpa using hlevels)] at h
      cases h
      exact Nat.le_refl 0
    | false => exact Nat.le_of_eq (nesting_of_isScalar (isScalar_of_ofRaw hplain hr h))
  | succ levels ih =>
    refine nesting_le_of_parts fun w hw => ?_
    obtain ⟨i, hi⟩ := List.mem_iff_getElem?.1 hw
    have hplace : v.at? [i] = some w := by simp [at?, hi]
    obtain ⟨part, hmet, hpart⟩ := met?_of_at? hplain h hplace
    refine ih (isPlain_of_met? hplain hmet) hpart ?_
    simp only [List.length_singleton] at *
    omega

/-- A mapping of a tree is no wrapper. -/
theorem ofKey?_eq_none_of_ofRaw (hplain : r.IsPlain) {key : String} {w : Value}
    (h : ofRaw depth r = .ok (.map [(key, w)])) : Wrapper.ofKey? key = none := by
  cases hr : r.isContainer with
  | false =>
    obtain hnull | hscalar := isScalar_of_ofRaw hplain hr h
    · cases hnull
    · cases hscalar
  | true =>
    obtain hclosed | hdepth := Int.lt_or_le depth maxDepth |>.symm
    · rw [ofRaw_closed hr hclosed] at h
      cases h
    cases r with
    | list items =>
      obtain ⟨values, hv, -⟩ := sequence_of_ofRaw hdepth (.inl rfl) h
      cases hv
    | tuple items =>
      obtain ⟨values, hv, -⟩ := sequence_of_ofRaw hdepth (.inr rfl) h
      cases hv
    | map entries =>
      have hunwrapped := Option.isNone_iff_eq_none.1 hr
      obtain ⟨values, hv, hvalues⟩ := map_of_ofRaw hdepth hunwrapped h
      obtain rfl := Value.map.inj hv
      obtain ⟨e, rfl, he⟩ := List.map_eq_singleton_iff.1 hvalues
      cases hkey : Wrapper.ofKey? key with
      | none => rfl
      | some wrapper =>
        have hwrapped : wrapper? [e] = some (key, wrapper, e.2) := by
          simp [wrapper?, (Prod.mk.inj he).1, hkey]
        cases hwrapped.symm.trans hunwrapped
    | _ => cases hr

/-- How the value of a raw value that stands at a depth is made up. -/
structure Shaped (depth : Int) (r : Raw) (v : Value) : Prop where
  /-- As many sequences and mappings stand one inside of the other as there are depths left, or fewer. -/
  nesting_le : v.nesting ≤ maxDepth - depth
  /-- No mapping is a wrapper. -/
  unwrapped : ∀ place key w, v.at? place = some (.map [(key, w)]) → Wrapper.ofKey? key = none
  /-- A sequence above the greatest depth keeps its items, each converted at the next depth. -/
  sequence : ∀ place part items, r.met? depth place = some part → part = .list items ∨ part = .tuple items →
    depth + place.length < maxDepth →
    ∃ values, v.at? place = some (.sequence values) ∧
      items.map (ofRaw (depth + place.length + 1)) = values.map .ok
  /-- A mapping above the greatest depth keeps its keys, which are texts, each with its value converted at the
  next depth. -/
  mapping : ∀ place entries, r.met? depth place = some (.map entries) → wrapper? entries = none →
    depth + place.length < maxDepth →
    ∃ values, v.at? place = some (.map values) ∧
      entries.map (fun e => (e.1.text?, ofRaw (depth + place.length + 1) e.2)) =
        values.map fun (e : String × Value) => (some e.1, .ok e.2)
  /-- A container at the greatest depth is a leaf. -/
  closed : ∀ place part, r.met? depth place = some part → part.isContainer = true →
    depth + place.length = maxDepth → v.at? place = some untyped

/-- **The shape of a value.** What is converted from a depth on has the shape of the raw value, and neither the
success of the conversion nor its result depends on what the containers at the greatest depth hold. -/
theorem ofRaw_shape (hplain : r.IsPlain) (hdepth : depth ≤ maxDepth) :
    (∀ v, ofRaw depth r = .ok v → Shaped depth r v) ∧
      ∀ place part other, r.met? depth place = some part → part.isContainer = true →
        depth + place.length = maxDepth → other.isContainer = true →
        ofRaw depth (r.replacing place other) = ofRaw depth r := by
  refine ⟨fun v h => ?_, fun place part other hmet hpart hclosed hother =>
    ofRaw_replacing hmet hpart (Int.le_of_eq hclosed.symm) hother⟩
  refine { nesting_le := ?_, unwrapped := ?_, sequence := ?_, mapping := ?_, closed := ?_ }
  · have hlevels := nesting_le_of_ofRaw (maxDepth - depth).toNat hplain h (by omega)
    omega
  · intro place key w hw
    obtain ⟨part, hmet, hpart⟩ := met?_of_at? hplain h hw
    exact ofKey?_eq_none_of_ofRaw (isPlain_of_met? hplain hmet) hpart
  · intro place part items hmet hitems hopen
    obtain ⟨w, hw, hpart⟩ := at?_of_met? hplain h hmet
    obtain ⟨values, rfl, hvalues⟩ := sequence_of_ofRaw hopen hitems hpart
    exact ⟨values, hw, hvalues⟩
  · intro place entries hmet hunwrapped hopen
    obtain ⟨w, hw, hpart⟩ := at?_of_met? hplain h hmet
    obtain ⟨values, rfl, hvalues⟩ := map_of_ofRaw hopen hunwrapped hpart
    exact ⟨values, hw, hvalues⟩
  · intro place part hmet hpart hclosed
    obtain ⟨w, hw, hvalue⟩ := at?_of_met? hplain h hmet
    rw [ofRaw_closed hpart (Int.le_of_eq hclosed.symm)] at hvalue
    rw [hw, Except.ok.inj hvalue]

/-- A sequence at the last depth but one keeps its three items: a mapping with a key that is no text, and with a
wrapper of no number, becomes a leaf as well as an empty sequence in its place, and a wrapper is still unwrapped. -/
theorem ofRaw_shape_deepest :
    let r := Raw.list [.map [(.int 1, .map [(.text "$numberInt", .text "seven")])],
      .map [(.text "$oid", .text "5f")], .tuple [.bool true]]
    let v := Value.sequence [untyped, .identifier "5f", untyped]
    r.IsPlain ∧ 99 ≤ maxDepth ∧ ofRaw 99 r = .ok v ∧ Shaped 99 r v ∧
      ofRaw 99 (r.replacing [0] (.list [])) = ofRaw 99 r := by
  intro r v
  have hvalue : ofRaw 99 r = .ok v := rfl
  have hshape := @ofRaw_shape 99 r rfl (by decide)
  exact ⟨rfl, by decide, hvalue, hshape.1 v hvalue, hshape.2 [0] _ (.list []) rfl rfl rfl rfl⟩

end Value

end DocSchema
