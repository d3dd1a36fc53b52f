import DocSchema.Schema.Merge

/-!
# Events of a merge

A merge changes the state of a run in small steps, each of which is an event: an object counted, a
field seen, a nested object noted. The state is described by what can be looked up in it, the fields
of each owner (`Accumulator.field?`) and the contexts without their fields (`Accumulator.head?`), and
each event by what it does to these, so that no later proof opens a merge.

- `Event.apply`, `Event.Enabled`: what an event changes, and when a merge may come to it.
- `Event.apply_eq`: which parts of a state an event may change at all.
- `field?_field`, `field?_nested`, `head?_nested`, `collisions_nested`: what can be looked up after it.
- `Run`: events one after the other; `Run.induct` is the induction along them.
-/

namespace DocSchema

/-- A context without its fields. -/
def TypeContext.bare (c : TypeContext) : TypeContext :=
  { c with fields := .empty }

namespace Accumulator

/-- What is known of a field of an owner. -/
def field? (a : Accumulator) (owner : Owner) (key : String) : Option FieldStats :=
  (a.context? owner).bind fun c => c.fields.get? key

/-- The context of an owner without its fields. -/
def head? (a : Accumulator) (owner : Owner) : Option TypeContext :=
  (a.context? owner).map TypeContext.bare

theorem head?_of_context? {a : Accumulator} {o : Owner} {c : TypeContext} (h : a.context? o = some c) :
    a.head? o = some c.bare := by
  rw [head?, h, Option.map_some]

/-! ## Looking up after a change -/

section Lookup

variable (a : Accumulator) (owner other : Owner) (key k path : String)

theorem context?_modifyContext (f : TypeContext → TypeContext) :
    (a.modifyContext owner f).context? other =
      if other = owner then (a.context? owner).map f else a.context? other := by
  by_cases h : other = owner
  · rw [if_pos h, h, context_modifyContext_self]
  · rw [if_neg h]
    cases owner <;> cases other <;> simp_all [modifyContext, context?, Table.get?_modify]

theorem head?_updateField (f : FieldStats → FieldStats) :
    (a.modifyContext owner fun c => c.updateField key path f).head? other = a.head? other := by
  rw [head?, context?_modifyContext]
  split
  · rename_i h
    rw [h, Option.map_map]
    rfl
  · rfl

theorem field?_updateField (f : FieldStats → FieldStats) :
    (a.modifyContext owner fun c => c.updateField key path f).field? other k =
      if other = owner ∧ k = key then
        (a.context? owner).map fun c => f ((c.fields.get? key).getD { path })
      else a.field? other k := by
  rw [field?, context?_modifyContext]
  by_cases ho : other = owner
  · subst ho
    rw [if_pos rfl, field?]
    cases a.context? other with
    | none => simp
    | some c => by_cases hk : k = key <;> simp [TypeContext.updateField, Table.get?_upsert, hk]
  · simp [ho, field?]

theorem head?_observe (populated : Bool) :
    (a.modifyContext owner fun c => c.observe populated).head? other =
      if other = owner then (a.head? owner).map fun c => c.observe populated else a.head? other := by
  rw [head?, context?_modifyContext]
  by_cases h : other = owner
  · rw [if_pos h, if_pos h, head?, Option.map_map, Option.map_map]
    rfl
  · rw [if_neg h, if_neg h, head?]

theorem field?_observe (populated : Bool) :
    (a.modifyContext owner fun c => c.observe populated).field? other k = a.field? other k := by
  rw [field?, context?_modifyContext]
  split
  · rename_i h
    subst h
    rw [field?]
    cases a.context? other <;> rfl
  · rfl

theorem context?_claim (typeName parent : String) :
    (a.claim typeName path parent).1.context? other =
      if other = .nested typeName then
        some ((a.context? other).getD { name := typeName, path, parent? := some parent })
      else a.context? other := by
  cases hc : a.nested.get? typeName with
  | none =>
    simp only [claim, hc]
    cases other with
    | root => rfl
    | nested n => by_cases h : n = typeName <;> simp [context?, Table.get?_insert, h, hc]
  | some c =>
    have ha : (a.claim typeName path parent).1.context? other = a.context? other := by
      simp only [claim, hc]
      split
      · rfl
      · split <;> cases other <;> rfl
    rw [ha]
    split
    · rename_i h
      subst h
      simp [context?, hc]
    · rfl

theorem head?_claim (typeName parent : String) :
    (a.claim typeName path parent).1.head? other =
      if other = .nested typeName then
        some ((a.head? other).getD { name := typeName, path, parent? := some parent })
      else a.head? other := by
  rw [head?, context?_claim]
  split
  · rw [head?]
    cases a.context? other <;> rfl
  · rfl

theorem field?_claim (typeName parent : String) :
    (a.claim typeName path parent).1.field? other k = a.field? other k := by
  rw [field?, context?_claim]
  split
  · rw [field?]
    cases a.context? other <;> rfl
  · rfl

theorem field?_isSome_of_owner {a : Accumulator} {owner : Owner} {key : String}
    (h : (a.field? owner key).isSome) : (a.context? owner).isSome := by
  rw [field?] at h
  cases hc : a.context? owner with
  | none => simp [hc] at h
  | some c => rfl

theorem head?_isSome : (a.head? owner).isSome = (a.context? owner).isSome := by
  simp [head?]

theorem collisions_claim (typeName parent : String) :
    (a.claim typeName path parent).1.collisions =
      match a.head? (.nested typeName) with
      | some c =>
        if c.path = path ∨ a.isReported typeName path then a.collisions
        else a.collisions ++ [⟨typeName, c.path, path⟩]
      | none => a.collisions := by
  rw [head?, context?]
  cases hc : a.nested.get? typeName with
  | none => simp [claim, hc, collisions]
  | some c =>
    simp only [claim, hc, Option.map_some, TypeContext.bare]
    by_cases hp : c.path = path
    · simp [hp]
    · by_cases hr : a.isReported typeName path <;> simp [hp, hr, collisions, CollisionLog.add]

theorem claim_granted_iff_head? {a : Accumulator} {typeName path parent : String} :
    (a.claim typeName path parent).2 = true ↔
      ∀ c, a.head? (.nested typeName) = some c → c.path = path := by
  rw [claim_granted_iff]
  constructor
  · intro h c hc
    obtain ⟨d, hd, rfl⟩ := Option.map_eq_some_iff.1 hc
    exact h d hd
  · intro h c hc
    exact h c.bare (head?_of_context? hc)

/-- A change of a context leaves all but the contexts as it is. -/
theorem modifyContext_eq (f : TypeContext → TypeContext) :
    ∃ root nested, a.modifyContext owner f = { a with root, nested } := by
  cases owner with
  | root => exact ⟨_, a.nested, rfl⟩
  | nested name => exact ⟨a.root, _, rfl⟩

theorem claim_eq (typeName parent : String) :
    ∃ nested log, (a.claim typeName path parent).1 = { a with nested, log } := by
  rw [claim]
  split
  · exact ⟨_, a.log, rfl⟩
  · split
    · exact ⟨a.nested, a.log, rfl⟩
    · split
      · exact ⟨a.nested, a.log, rfl⟩
      · exact ⟨a.nested, _, rfl⟩

theorem log_modifyContext (f : TypeContext → TypeContext) :
    (a.modifyContext owner f).log = a.log := by
  obtain ⟨r, n, h⟩ := a.modifyContext_eq owner f
  rw [h]

theorem collisions_modifyContext (f : TypeContext → TypeContext) :
    (a.modifyContext owner f).collisions = a.collisions := by
  rw [collisions, log_modifyContext, collisions]

theorem emptyCount_recordEmptyInstance (p : String) :
    (a.recordEmptyInstance path).emptyCount p = a.emptyCount p + if p = path then 1 else 0 := by
  rw [recordEmptyInstance, emptyCount, emptyCount, Table.get?_upsert]
  split
  · rename_i h
    rw [h]
    rfl
  · rfl

end Lookup

end Accumulator

namespace Schema

/-! ## Events -/

/-- One step of a merge. -/
inductive Event
  /-- A document is counted. -/
  | document (populated : Bool)
  /-- A field of an owner is seen, at a logical path. -/
  | field (owner : Owner) (key path : String) (isNull isArray : Bool) (kinds : KindSet)
  /-- A field of an owner holds an object without fields. -/
  | empty (owner : Owner) (key : String)
  /-- A field of an owner holds an object with fields. -/
  | nested (owner : Owner) (key : String)
  /-- A document has been merged. -/
  | finish
  /-- A canonical path is recorded. -/
  | record (path : String)
  deriving DecidableEq

/-- Notes an object without fields in a field of an owner. -/
def noteEmpty (a : Accumulator) (owner : Owner) (key : String) : Accumulator :=
  let path := knownPath a owner key
  (a.modifyContext owner fun c => c.updateField key path (·.seeEmpty (some .untyped))).recordEmptyInstance path

/-- Notes an object with fields in a field of an owner, and counts it in the context of its type
unless the name of the type is refused. -/
def enter (a : Accumulator) (owner : Owner) (key : String) : Accumulator × Bool :=
  let path := knownPath a owner key
  let typeName := Naming.nestedTypeName (a.ownerName owner) key
  let noted := a.modifyContext owner fun c => c.updateField key path (·.seeNested typeName)
  let (claimed, granted) := noted.claim typeName path (a.ownerName owner)
  (if granted then claimed.modifyContext (.nested typeName) (·.observe true) else claimed, granted)

namespace Event

/-- The state after an event. -/
def apply (a : Accumulator) : Event → Accumulator
  | .document populated => a.modifyContext .root fun c => c.observe populated
  | .field owner key path isNull isArray kinds =>
    a.modifyContext owner fun c => c.updateField key path fun s => s.see isNull isArray kinds
  | .empty owner key => noteEmpty a owner key
  | .nested owner key => (enter a owner key).1
  | .finish => { a with documentsMerged := a.documentsMerged + 1 }
  | .record path => { a with seenPaths := Accumulator.addPath a.seenPaths path }

/-- Whether a merge may come to an event: the owner of a field has a context, a field that holds an
object has been seen with a value, and no leaf has the kind of nested objects. -/
def Enabled (a : Accumulator) : Event → Prop
  | .field owner _ _ _ _ kinds => (a.context? owner).isSome ∧ kinds.contains .nested = false
  | .empty owner key | .nested owner key => ∃ s, a.field? owner key = some s ∧ 0 < s.nonNull
  | _ => True

end Event

/-- Events that a merge may go through one after the other, from a state to another. -/
inductive Run : Accumulator → List Event → Accumulator → Prop
  | nil (a : Accumulator) : Run a [] a
  | cons {a b : Accumulator} {e : Event} {es : List Event} (enabled : e.Enabled a)
      (rest : Run (e.apply a) es b) : Run a (e :: es) b

namespace Event

variable {a : Accumulator} {o owner : Owner} {k key : String}

/-! ## What an event changes -/

theorem field?_document (populated : Bool) :
    ((Event.document populated).apply a).field? o k = a.field? o k :=
  Accumulator.field?_observe ..

theorem field?_field {path : String} {isNull isArray : Bool} {kinds : KindSet}
    (h : (a.context? owner).isSome) :
    ((Event.field owner key path isNull isArray kinds).apply a).field? o k =
      if o = owner ∧ k = key then some (((a.field? owner key).getD { path }).see isNull isArray kinds)
      else a.field? o k := by
  obtain ⟨c, hc⟩ := Option.isSome_iff_exists.1 h
  rw [apply, Accumulator.field?_updateField]
  simp [Accumulator.field?, hc]

/-- A change of a field that is there. -/
theorem field?_updateField_of_isSome (path : String) (f : FieldStats → FieldStats)
    (h : (a.field? owner key).isSome) :
    (a.modifyContext owner fun c => c.updateField key path f).field? o k =
      if o = owner ∧ k = key then (a.field? owner key).map f else a.field? o k := by
  rw [Accumulator.field?_updateField]
  obtain ⟨c, hc⟩ := Option.isSome_iff_exists.1 (Accumulator.field?_isSome_of_owner h)
  rw [Accumulator.field?, hc, Option.bind_some] at h
  obtain ⟨s, hs⟩ := Option.isSome_iff_exists.1 h
  simp [Accumulator.field?, hc, hs]

theorem field?_empty (h : (a.field? owner key).isSome) :
    ((Event.empty owner key).apply a).field? o k =
      if o = owner ∧ k = key then (a.field? owner key).map (·.seeEmpty (some .untyped)) else a.field? o k := by
  rw [← field?_updateField_of_isSome (knownPath a owner key) (·.seeEmpty (some .untyped)) h, apply, noteEmpty]
  cases o <;> rfl

theorem field?_nested (h : (a.field? owner key).isSome) :
    ((Event.nested owner key).apply a).field? o k =
      if o = owner ∧ k = key then
        (a.field? owner key).map (·.seeNested (Naming.nestedTypeName (a.ownerName owner) key))
      else a.field? o k := by
  rw [← field?_updateField_of_isSome (knownPath a owner key)
    (·.seeNested (Naming.nestedTypeName (a.ownerName owner) key)) h]
  simp only [apply, enter]
  split
  · rw [Accumulator.field?_observe, Accumulator.field?_claim]
  · rw [Accumulator.field?_claim]

/-- The type name that an object in a field has is granted if it is new or has the path of the field. -/
theorem granted_iff : (enter a owner key).2 = true ↔
    ∀ c, a.head? (.nested (Naming.nestedTypeName (a.ownerName owner) key)) = some c →
      c.path = knownPath a owner key := by
  rw [← Accumulator.head?_updateField a owner _ key (knownPath a owner key)
    (·.seeNested (Naming.nestedTypeName (a.ownerName owner) key))]
  exact Accumulator.claim_granted_iff_head?

theorem head?_nested :
    ((Event.nested owner key).apply a).head? o =
      let typeName := Naming.nestedTypeName (a.ownerName owner) key
      let path := knownPath a owner key
      if o = .nested typeName then
        let c := (a.head? o).getD { name := typeName, path, parent? := some (a.ownerName owner) }
        some (if c.path = path then c.observe true else c)
      else a.head? o := by
  have hg := @granted_iff a owner key
  simp only [apply]
  rw [enter] at hg ⊢
  generalize hT : Naming.nestedTypeName (a.ownerName owner) key = typeName at hg ⊢
  generalize hP : knownPath a owner key = path at hg ⊢
  simp only at hg ⊢
  by_cases ho : o = .nested typeName
  · subst ho
    simp only [if_true]
    split
    · rename_i h
      rw [Accumulator.head?_observe, if_pos rfl, Accumulator.head?_claim, if_pos rfl,
        Accumulator.head?_updateField]
      cases hc : a.head? (.nested typeName) with
      | none => simp
      | some c => simp [hg.1 h c hc]
    · rename_i h
      rw [Accumulator.head?_claim, if_pos rfl, Accumulator.head?_updateField]
      cases hc : a.head? (.nested typeName) with
      | none => simp [hc] at hg; exact absurd hg h
      | some c =>
        have hne : c.path ≠ path := fun hp => h (hg.2 fun d hd => by
          rw [hc, Option.some.injEq] at hd
          rw [← hd, hp])
        simp [hne]
  · split
    · rw [Accumulator.head?_observe, if_neg ho, Accumulator.head?_claim, if_neg ho,
        Accumulator.head?_updateField]
    · rw [Accumulator.head?_claim, if_neg ho, Accumulator.head?_updateField]

theorem collisions_nested :
    ((Event.nested owner key).apply a).collisions =
      let typeName := Naming.nestedTypeName (a.ownerName owner) key
      let path := knownPath a owner key
      match a.head? (.nested typeName) with
      | some c =>
        if c.path = path ∨ a.isReported typeName path then a.collisions
        else a.collisions ++ [⟨typeName, c.path, path⟩]
      | none => a.collisions := by
  have hn := a.log_modifyContext owner fun c =>
    c.updateField key (knownPath a owner key)
      (·.seeNested (Naming.nestedTypeName (a.ownerName owner) key))
  simp only [apply, enter]
  split
  · rw [Accumulator.collisions_modifyContext, Accumulator.collisions_claim,
      Accumulator.head?_updateField, Accumulator.isReported, Accumulator.collisions, hn]
    rfl
  · rw [Accumulator.collisions_claim, Accumulator.head?_updateField, Accumulator.isReported,
      Accumulator.collisions, hn]
    rfl

/-- An object with fields is noted in the contexts and in what was refused, and nowhere else. -/
theorem nested_eq : ∃ root nested log,
    (Event.nested owner key).apply a = { a with root, nested, log } := by
  simp only [apply, enter]
  generalize knownPath a owner key = path
  generalize Naming.nestedTypeName (a.ownerName owner) key = typeName
  obtain ⟨r, n, h⟩ := a.modifyContext_eq owner fun c => c.updateField key path (·.seeNested typeName)
  rw [h]
  obtain ⟨n', l, hc⟩ := Accumulator.claim_eq { a with root := r, nested := n } path typeName
    (a.ownerName owner)
  split
  · rw [hc]
    obtain ⟨r', n'', hm⟩ := Accumulator.modifyContext_eq
      { a with root := r, nested := n', log := l } (.nested typeName) (·.observe true)
    exact ⟨r', n'', l, hm⟩
  · exact ⟨r, n', l, hc⟩

/-- Besides the contexts, an event changes what was refused only if it is about an object with fields,
the counts of empty objects only if it is about one of them, and the rest only at the end of a
document. -/
theorem apply_eq (e : Event) : ∃ root nested log emptyInstances,
    e.apply a = { a with
      root, nested, log, emptyInstances
      documentsMerged := a.documentsMerged + match e with
        | .finish => 1
        | _ => 0
      seenPaths := match e with
        | .record path => Accumulator.addPath a.seenPaths path
        | _ => a.seenPaths } ∧
      ((∀ o k, e ≠ .nested o k) → log = a.log) ∧
      ((∀ o k, e ≠ .empty o k) → emptyInstances = a.emptyInstances) := by
  cases e with
  | field owner key path isNull isArray kinds =>
    obtain ⟨r, n, h⟩ := a.modifyContext_eq owner fun c =>
      c.updateField key path fun s => s.see isNull isArray kinds
    exact ⟨r, n, _, _, h, fun _ => rfl, fun _ => rfl⟩
  | empty owner key =>
    obtain ⟨r, n, h⟩ := a.modifyContext_eq owner fun c =>
      c.updateField key (knownPath a owner key) (·.seeEmpty (some .untyped))
    rw [apply, noteEmpty, h]
    exact ⟨r, n, _, _, rfl, fun _ => rfl, fun hne => absurd rfl (hne owner key)⟩
  | nested owner key =>
    obtain ⟨r, n, l, h⟩ := @nested_eq a owner key
    exact ⟨r, n, l, _, h, fun hne => absurd rfl (hne owner key), fun _ => rfl⟩
  | _ => exact ⟨_, _, _, _, rfl, fun _ => rfl, fun _ => rfl⟩

theorem emptyCount_empty (p : String) :
    ((Event.empty owner key).apply a).emptyCount p =
      a.emptyCount p + if p = knownPath a owner key then 1 else 0 := by
  rw [apply, noteEmpty, Accumulator.emptyCount_recordEmptyInstance]
  obtain ⟨r, n, h⟩ := a.modifyContext_eq owner fun c =>
    c.updateField key (knownPath a owner key) (·.seeEmpty (some .untyped))
  rw [h]
  rfl

theorem head?_empty : ((Event.empty owner key).apply a).head? o = a.head? o := by
  rw [← Accumulator.head?_updateField a owner o key (knownPath a owner key) (·.seeEmpty (some .untyped))]
  cases o <;> rfl

theorem head?_field {path : String} {isNull isArray : Bool} {kinds : KindSet} :
    ((Event.field owner key path isNull isArray kinds).apply a).head? o = a.head? o :=
  Accumulator.head?_updateField ..

/-- The context of the top-level type counts documents, and changes no further. -/
theorem rootBare_apply (e : Event) : (e.apply a).root.bare =
    match e with
    | .document populated => a.root.bare.observe populated
    | _ => a.root.bare := by
  have hroot (b : Accumulator) (h : b.head? .root = a.head? .root) : b.root.bare = a.root.bare := by
    simpa [Accumulator.head?, Accumulator.context?] using h
  cases e with
  | field owner key path isNull isArray kinds => exact hroot _ head?_field
  | empty owner key => exact hroot _ head?_empty
  | nested owner key => exact hroot _ (by simp [head?_nested])
  | _ => rfl

/-- The name of the top-level type stays. -/
theorem rootName_apply (e : Event) : (e.apply a).root.name = a.root.name := by
  have h := congrArg TypeContext.name (rootBare_apply (a := a) e)
  cases e <;> exact h

/-- The path of the top-level type stays. -/
theorem rootPath_apply (e : Event) : (e.apply a).root.path = a.root.path := by
  have h := congrArg TypeContext.path (rootBare_apply (a := a) e)
  cases e <;> exact h

/-- The collection stays. -/
theorem collection_apply (e : Event) : (e.apply a).collection = a.collection := by
  obtain ⟨r, n, l, i, h, -⟩ := apply_eq (a := a) e
  rw [h]

theorem ownerName_apply (e : Event) (o : Owner) : (e.apply a).ownerName o = a.ownerName o := by
  cases o with
  | root => exact rootName_apply e
  | nested name => rfl

/-- Only an object without fields is counted at its path. -/
theorem emptyInstances_apply {e : Event} (he : ∀ owner key, e ≠ .empty owner key) :
    (e.apply a).emptyInstances = a.emptyInstances := by
  obtain ⟨r, n, l, i, h, -, hi⟩ := apply_eq (a := a) e
  rw [h]
  exact hi he

/-- Only an object with fields can be refused a name. -/
theorem collisions_apply {e : Event} (he : ∀ owner key, e ≠ .nested owner key) :
    (e.apply a).collisions = a.collisions := by
  obtain ⟨r, n, l, i, h, hl, -⟩ := apply_eq (a := a) e
  rw [h]
  exact congrArg CollisionLog.entries (hl he)

theorem documentsMerged_apply (e : Event) : (e.apply a).documentsMerged = a.documentsMerged +
    match e with
    | .finish => 1
    | _ => 0 := by
  obtain ⟨r, n, l, i, h, -⟩ := apply_eq (a := a) e
  rw [h]

theorem mem_seenPaths_apply (e : Event) (p : String) :
    p ∈ (e.apply a).seenPaths ↔ p ∈ a.seenPaths ∨ e = .record p := by
  obtain ⟨r, n, l, i, h, -⟩ := apply_eq (a := a) e
  rw [h]
  cases e with
  | record path =>
    simp only [Accumulator.addPath, record.injEq]
    split
    · rename_i hin
      exact ⟨Or.inl, fun h => h.elim id fun h => h ▸ hin⟩
    · rw [List.mem_cons, or_comm, eq_comm]
  | _ => simp

/-- What is refused is a name that another path has. -/
theorem mem_collisions_apply {e : Event} {d : Collision} (h : d ∈ (e.apply a).collisions) :
    d ∈ a.collisions ∨ ∃ owner key c, e = .nested owner key ∧
      a.head? (.nested (Naming.nestedTypeName (a.ownerName owner) key)) = some c ∧
      c.path ≠ knownPath a owner key ∧
      d = ⟨Naming.nestedTypeName (a.ownerName owner) key, c.path, knownPath a owner key⟩ := by
  by_cases hne : ∃ owner key, e = .nested owner key
  · obtain ⟨owner, key, rfl⟩ := hne
    rw [collisions_nested] at h
    simp only at h
    split at h
    · rename_i c hc
      split at h
      · exact .inl h
      · rename_i hn
        rcases List.mem_append.1 h with h | h
        · exact .inl h
        · exact .inr ⟨owner, key, c, rfl, hc, fun hp => hn (.inl hp), List.mem_singleton.1 h⟩
    · exact .inl h
  · rw [collisions_apply fun owner key he => hne ⟨owner, key, he⟩] at h
    exact .inl h

/-! ## What every event keeps -/

/-- A field that is there stays, under the path it had, and has no fewer values. -/
theorem field?_mono {s : FieldStats} (e : Event) (he : e.Enabled a) (h : a.field? o k = some s) :
    ∃ t, (e.apply a).field? o k = some t ∧ t.path = s.path ∧ s.nonNull ≤ t.nonNull := by
  cases e with
  | document populated => exact ⟨s, (field?_document populated).trans h, rfl, Nat.le_refl _⟩
  | field owner key path isNull isArray kinds =>
    rw [field?_field he.1]
    split
    · rename_i hok
      rw [← hok.1, ← hok.2, h]
      refine ⟨_, rfl, ?_, ?_⟩ <;> cases isNull <;> simp [FieldStats.see]
    · exact ⟨s, h, rfl, Nat.le_refl _⟩
  | empty owner key =>
    obtain ⟨t, ht, _⟩ := he
    rw [field?_empty (by rw [ht]; rfl)]
    split
    · rename_i hok
      rw [← hok.1, ← hok.2, h]
      exact ⟨_, rfl, rfl, Nat.le_refl _⟩
    · exact ⟨s, h, rfl, Nat.le_refl _⟩
  | nested owner key =>
    obtain ⟨t, ht, _⟩ := he
    rw [field?_nested (by rw [ht]; rfl)]
    split
    · rename_i hok
      rw [← hok.1, ← hok.2, h]
      exact ⟨_, rfl, rfl, Nat.le_refl _⟩
    · exact ⟨s, h, rfl, Nat.le_refl _⟩
  | finish => exact ⟨s, h, rfl, Nat.le_refl _⟩
  | record path => exact ⟨s, h, rfl, Nat.le_refl _⟩

/-- A context that is there stays, under the name and the path it had. -/
theorem head?_mono {c : TypeContext} (e : Event) (h : a.head? o = some c) :
    ∃ d, (e.apply a).head? o = some d ∧ d.name = c.name ∧ d.path = c.path ∧ d.parent? = c.parent? := by
  cases e with
  | document populated =>
    rw [apply, Accumulator.head?_observe]
    split
    · rename_i ho
      rw [← ho, h]
      exact ⟨_, rfl, rfl, rfl, rfl⟩
    · exact ⟨c, h, rfl, rfl, rfl⟩
  | field owner key path isNull isArray kinds => exact ⟨c, head?_field.trans h, rfl, rfl, rfl⟩
  | empty owner key => exact ⟨c, head?_empty.trans h, rfl, rfl, rfl⟩
  | nested owner key =>
    simp only [head?_nested, h]
    split
    · refine ⟨_, rfl, ?_⟩
      simp only [Option.getD_some]
      split <;> exact ⟨rfl, rfl, rfl⟩
    · exact ⟨c, rfl, rfl, rfl, rfl⟩
  | finish => exact ⟨c, h, rfl, rfl, rfl⟩
  | record path => exact ⟨c, h, rfl, rfl, rfl⟩

/-- What was refused stays refused. -/
theorem collisions_prefix (e : Event) : a.collisions <+: (e.apply a).collisions := by
  by_cases hne : ∃ owner key, e = .nested owner key
  · obtain ⟨owner, key, rfl⟩ := hne
    rw [collisions_nested]
    simp only
    split
    · split
      · exact List.prefix_rfl
      · exact List.prefix_append _ _
    · exact List.prefix_rfl
  · exact collisions_apply (fun owner key he => hne ⟨owner, key, he⟩) ▸ List.prefix_rfl

end Event

namespace Run

variable {a b c : Accumulator} {es fs : List Event}

/-! ## Runs -/

theorem single {e : Event} (h : e.Enabled a) : Run a [e] (e.apply a) :=
  .cons h (.nil _)

theorem append (h : Run a es b) (h' : Run b fs c) : Run a (es ++ fs) c := by
  induction h with
  | nil => exact h'
  | cons enabled _ ih => exact .cons enabled (ih h')

/-- What holds of a state together with the events that led to it, if each event keeps it, holds
after a run with the events of the run added. -/
theorem induct {P : Accumulator → List Event → Prop} {past : List Event} (h : Run a es b)
    (hstep : ∀ a past (e : Event), P a past → e.Enabled a → P (e.apply a) (past ++ [e]))
    (ha : P a past) : P b (past ++ es) := by
  induction h generalizing past with
  | nil => rwa [List.append_nil]
  | cons enabled _ ih => simpa using ih (hstep _ _ _ ha enabled)

theorem field?_mono {o : Owner} {k : String} {s : FieldStats} (h : Run a es b)
    (hs : a.field? o k = some s) :
    ∃ t, b.field? o k = some t ∧ t.path = s.path ∧ s.nonNull ≤ t.nonNull := by
  induction h generalizing s with
  | nil => exact ⟨s, hs, rfl, Nat.le_refl _⟩
  | cons enabled _ ih =>
    obtain ⟨t, ht, hp, hn⟩ := Event.field?_mono _ enabled hs
    obtain ⟨u, hu, hp', hn'⟩ := ih ht
    exact ⟨u, hu, hp'.trans hp, Nat.le_trans hn hn'⟩

theorem head?_mono {o : Owner} {d : TypeContext} (h : Run a es b) (hd : a.head? o = some d) :
    ∃ d', b.head? o = some d' ∧ d'.name = d.name ∧ d'.path = d.path ∧ d'.parent? = d.parent? := by
  induction h generalizing d with
  | nil => exact ⟨d, hd, rfl, rfl, rfl⟩
  | cons _ _ ih =>
    obtain ⟨t, ht, h₁, h₂, h₃⟩ := Event.head?_mono _ hd
    obtain ⟨u, hu, h₁', h₂', h₃'⟩ := ih ht
    exact ⟨u, hu, h₁'.trans h₁, h₂'.trans h₂, h₃'.trans h₃⟩

theorem context?_isSome {o : Owner} (h : Run a es b) (ho : (a.context? o).isSome) :
    (b.context? o).isSome := by
  rw [← Accumulator.head?_isSome] at ho ⊢
  obtain ⟨c, hc⟩ := Option.isSome_iff_exists.1 ho
  obtain ⟨d, hd, -⟩ := h.head?_mono hc
  rw [hd]
  rfl

theorem rootName (h : Run a es b) : b.root.name = a.root.name := by
  induction h with
  | nil => rfl
  | cons _ _ ih => rw [ih, Event.rootName_apply]

theorem rootPath (h : Run a es b) : b.root.path = a.root.path := by
  induction h with
  | nil => rfl
  | cons _ _ ih => rw [ih, Event.rootPath_apply]

theorem collection (h : Run a es b) : b.collection = a.collection := by
  induction h with
  | nil => rfl
  | cons _ _ ih => rw [ih, Event.collection_apply]

theorem collisions_prefix (h : Run a es b) : a.collisions <+: b.collisions := by
  induction h with
  | nil => exact List.prefix_rfl
  | cons _ _ ih => exact (Event.collisions_prefix _).trans ih

end Run

end Schema

end DocSchema
