import DocSchema.Proofs.Merge.Event

/-!
# The state of a run as a record of its events

Whatever the events of a run were, the state at its end is a record of them: its counts are numbers of
events, the contexts are those that objects with fields asked for, and what was refused is what asked
for a name that was taken. The events come in any order, so a statement about the state that follows
from the record does not depend on the order in which documents came.

- `RecordsField`: what the events say about one field of an owner.
- `Records`: what they say about the whole state.
- `Records.step`, `records_of_run`: an event keeps the record, and so does a run.
-/

namespace DocSchema

/-- What is known of a field of an owner; of a field never seen, nothing. -/
def Accumulator.stats (a : Accumulator) (owner : Owner) (key : String) : FieldStats :=
  (a.field? owner key).getD { path := "" }

namespace Schema

theorem knownPath_eq (a : Accumulator) (owner : Owner) (key : String) :
    knownPath a owner key = (a.stats owner key).path := by
  rw [knownPath, Accumulator.stats, Accumulator.field?]
  cases a.context? owner with
  | none => rfl
  | some c => cases h : c.fields.get? key <;> simp [h]

/-! ## Counting events -/

namespace Event

/-- Whether an event shows a field of an owner with a value that passes a test of being null and of
being an array. -/
def shows (owner : Owner) (key : String) (test : (isNull isArray : Bool) → Bool) : Event → Bool
  | .field o k _ isNull isArray _ => decide (o = owner ∧ k = key) && test isNull isArray
  | _ => false

/-- Whether an event shows a kind of value in a field of an owner. -/
def showsKind (owner : Owner) (key : String) (kind : SemanticType) : Event → Bool
  | .field o k _ isNull _ kinds => decide (o = owner ∧ k = key) && (!isNull && kinds.contains kind)
  | .empty o k => decide (o = owner ∧ k = key) && decide (kind = .untyped)
  | .nested o k => decide (o = owner ∧ k = key) && decide (kind = .nested)
  | _ => false

/-- Whether an event is about a field of an owner. -/
def concerns (owner : Owner) (key : String) : Event → Bool
  | .field o k _ _ _ _ | .empty o k | .nested o k => decide (o = owner ∧ k = key)
  | _ => false

/-- Whether an event counts a document. -/
def isDocument : Event → Bool
  | .document _ => true
  | _ => false

/-- Whether an event ends a document. -/
def isFinish : Event → Bool
  | .finish => true
  | _ => false

/-- Whether an event asks for a type name on behalf of a path. -/
def asksFor (a : Accumulator) (typeName path : String) : Event → Bool
  | .nested o k =>
    decide (Naming.nestedTypeName (a.ownerName o) k = typeName ∧ (a.stats o k).path = path)
  | _ => false

/-- Whether an event shows an object without fields at a path. -/
def emptyAt (a : Accumulator) (path : String) : Event → Bool
  | .empty o k => decide ((a.stats o k).path = path)
  | _ => false

end Event

/-! ## One field -/

/-- What is known of a field of an owner is what events say about it. -/
structure RecordsField (es : List Event) (typeName : String) (o : Owner) (k : String)
    (s : FieldStats) : Prop where
  present : s.present = es.countP (Event.shows o k fun _ _ => true)
  nonNull : s.nonNull = es.countP (Event.shows o k fun isNull _ => !isNull)
  arrays : s.arrays = es.countP (Event.shows o k fun isNull isArray => !isNull && isArray)
  scalars : s.scalars = es.countP (Event.shows o k fun isNull isArray => !isNull && !isArray)
  kinds : ∀ kind, s.kinds.contains kind = es.any (Event.showsKind o k kind)
  nestedType : s.nestedType? = if Event.nested o k ∈ es then some typeName else none

namespace RecordsField

variable {es : List Event} {typeName path : String} {o : Owner} {k : String} {s : FieldStats}

theorem nil : RecordsField [] typeName o k { path } where
  present := rfl
  nonNull := rfl
  arrays := rfl
  scalars := rfl
  kinds _ := KindSet.contains_empty _
  nestedType := rfl

theorem see (h : RecordsField es typeName o k s) (isNull isArray : Bool) (kinds : KindSet) :
    RecordsField (es ++ [.field o k path isNull isArray kinds]) typeName o k
      (s.see isNull isArray kinds) := by
  obtain ⟨h₁, h₂, h₃, h₄, h₅, h₆⟩ := h
  constructor <;> cases isNull <;> cases isArray <;>
    simp_all [FieldStats.see, Event.shows, Event.showsKind]

theorem seeEmpty (h : RecordsField es typeName o k s) :
    RecordsField (es ++ [.empty o k]) typeName o k (s.seeEmpty (some .untyped)) := by
  obtain ⟨h₁, h₂, h₃, h₄, h₅, h₆⟩ := h
  constructor <;> simp_all [FieldStats.seeEmpty, Event.shows, Event.showsKind, Bool.or_comm, eq_comm]

theorem seeNested (h : RecordsField es typeName o k s) :
    RecordsField (es ++ [.nested o k]) typeName o k (s.seeNested typeName) := by
  obtain ⟨h₁, h₂, h₃, h₄, h₅, h₆⟩ := h
  constructor <;> simp_all [FieldStats.seeNested, Event.shows, Event.showsKind, Bool.or_comm, eq_comm]

/-- An event about another field says nothing about this one. -/
theorem skip (h : RecordsField es typeName o k s) {e : Event} (he : e.concerns o k = false) :
    RecordsField (es ++ [e]) typeName o k s := by
  obtain ⟨h₁, h₂, h₃, h₄, h₅, h₆⟩ := h
  have hshows : ∀ test, e.shows o k test = false := fun test => by
    cases e <;> simp_all [Event.shows, Event.concerns]
  have hkind : ∀ kind, e.showsKind o k kind = false := fun kind => by
    cases e <;> simp_all [Event.showsKind, Event.concerns]
  have hne : ¬ Event.nested o k = e := by
    rintro rfl
    simp [Event.concerns] at he
  constructor <;> simp_all

theorem withPath (h : RecordsField es typeName o k s) (path : String) :
    RecordsField es typeName o k { s with path } :=
  ⟨h.present, h.nonNull, h.arrays, h.scalars, h.kinds, h.nestedType⟩

/-- What the events say does not depend on their order. -/
theorem perm {fs : List Event} (h : RecordsField es typeName o k s) (hp : es.Perm fs) :
    RecordsField fs typeName o k s where
  present := h.present.trans (hp.countP_eq _)
  nonNull := h.nonNull.trans (hp.countP_eq _)
  arrays := h.arrays.trans (hp.countP_eq _)
  scalars := h.scalars.trans (hp.countP_eq _)
  kinds kind := (h.kinds kind).trans hp.any_eq
  nestedType := by simpa only [hp.mem_iff] using h.nestedType

/-- Events say all of a field but its path. -/
theorem unique {t : FieldStats} (h : RecordsField es typeName o k s) (h' : RecordsField es typeName o k t)
    (hpath : s.path = t.path) : s = t := by
  have hk : s.kinds = t.kinds := KindSet.ext_contains fun kind => (h.kinds kind).trans (h'.kinds kind).symm
  obtain ⟨_, _, _, _, _, _, _⟩ := s
  obtain ⟨_, _, _, _, _, _, _⟩ := t
  simp only [FieldStats.mk.injEq]
  exact ⟨hpath, hk, h.present.trans h'.present.symm, h.nonNull.trans h'.nonNull.symm,
    h.arrays.trans h'.arrays.symm, h.scalars.trans h'.scalars.symm, h.nestedType.trans h'.nestedType.symm⟩

end RecordsField

/-! ## The whole state -/

/-- The context of a nested type is one that an event asked for, and counts the events that asked for
it on behalf of its path. -/
def ContextRecord (a : Accumulator) (es : List Event) (n : String) (c : TypeContext) : Prop :=
  c.name = n ∧ c.populated = true ∧ c.observations = es.countP (Event.asksFor a n c.path) ∧
    ∃ o k, Event.nested o k ∈ es ∧ n = Naming.nestedTypeName (a.ownerName o) k ∧
      c.path = (a.stats o k).path ∧ c.parent? = some (a.ownerName o)

/-- A state is a record of events. -/
structure Records (a : Accumulator) (es : List Event) : Prop where
  fields : ∀ o k, RecordsField es (Naming.nestedTypeName (a.ownerName o) k) o k (a.stats o k)
  seen : ∀ o k, (a.field? o k).isSome ↔ ∃ path isNull isArray kinds,
    Event.field o k path isNull isArray kinds ∈ es
  path : ∀ o k, (a.field? o k).isSome → ∃ isNull isArray kinds,
    Event.field o k (a.stats o k).path isNull isArray kinds ∈ es
  noted : ∀ e ∈ es, ∀ o k, e.concerns o k = true → (a.field? o k).isSome
  leaves : ∀ o k path isNull isArray kinds,
    Event.field o k path isNull isArray kinds ∈ es → kinds.contains .nested = false
  documents : a.root.observations = es.countP Event.isDocument
  context : ∀ n c, a.head? (.nested n) = some c → ContextRecord a es n c
  asked : ∀ o k, Event.nested o k ∈ es →
    ∃ c, a.head? (.nested (Naming.nestedTypeName (a.ownerName o) k)) = some c ∧
      (c.path = (a.stats o k).path ∨
        ⟨Naming.nestedTypeName (a.ownerName o) k, c.path, (a.stats o k).path⟩ ∈ a.collisions)
  refused : ∀ d ∈ a.collisions, d.firstPath ≠ d.collidingPath ∧
    (∃ c, a.head? (.nested d.typeName) = some c ∧ c.path = d.firstPath) ∧
      ∃ o k, Event.nested o k ∈ es ∧ d.typeName = Naming.nestedTypeName (a.ownerName o) k ∧
        d.collidingPath = (a.stats o k).path
  empties : ∀ path, a.emptyCount path = es.countP (Event.emptyAt a path)
  merged : a.documentsMerged = es.countP Event.isFinish
  recorded : ∀ path, path ∈ a.seenPaths ↔ Event.record path ∈ es

namespace Records

variable {a : Accumulator} {es : List Event} {e : Event}

/-- A field that holds an object has been seen. -/
theorem isSome_of_value {o : Owner} {k : String} (h : ∃ s, a.field? o k = some s ∧ 0 < s.nonNull) :
    (a.field? o k).isSome := by
  obtain ⟨s, hs, -⟩ := h
  rw [hs]
  rfl

/-- The path of a field that was seen stays. -/
theorem stats_path (he : e.Enabled a) {o : Owner} {k : String} (h : (a.field? o k).isSome) :
    ((e.apply a).stats o k).path = (a.stats o k).path := by
  obtain ⟨s, hs⟩ := Option.isSome_iff_exists.1 h
  obtain ⟨t, ht, hp, -⟩ := Event.field?_mono e he hs
  simpa [Accumulator.stats, hs, ht] using hp

theorem field?_isSome_apply (he : e.Enabled a) {o : Owner} {k : String} (h : (a.field? o k).isSome) :
    ((e.apply a).field? o k).isSome := by
  obtain ⟨s, hs⟩ := Option.isSome_iff_exists.1 h
  obtain ⟨t, ht, -⟩ := Event.field?_mono e he hs
  rw [ht]
  rfl

/-- An event asks for the same name, on behalf of the same path, at any later state. -/
theorem asksFor_apply (h : Records a es) (he : e.Enabled a) {f : Event} (hf : f ∈ es)
    (n path : String) : f.asksFor (e.apply a) n path = f.asksFor a n path := by
  cases f with
  | nested o k =>
    have hs := h.noted _ hf o k (by simp [Event.concerns])
    simp only [Event.asksFor, Event.ownerName_apply, stats_path he hs]
  | _ => rfl

theorem emptyAt_apply (h : Records a es) (he : e.Enabled a) {f : Event} (hf : f ∈ es)
    (path : String) : f.emptyAt (e.apply a) path = f.emptyAt a path := by
  cases f with
  | empty o k =>
    have hs := h.noted _ hf o k (by simp [Event.concerns])
    simp only [Event.emptyAt, stats_path he hs]
  | _ => rfl

theorem fields_step (h : Records a es) (he : e.Enabled a) (o : Owner) (k : String) :
    RecordsField (es ++ [e]) (Naming.nestedTypeName ((e.apply a).ownerName o) k) o k
      ((e.apply a).stats o k) := by
  rw [Event.ownerName_apply]
  have hf := h.fields o k
  cases e with
  | field owner key path isNull isArray kinds =>
    rw [Accumulator.stats, Event.field?_field he.1]
    split
    · rename_i hok
      obtain ⟨rfl, rfl⟩ := hok
      refine .see ?_ isNull isArray kinds
      rw [Accumulator.stats] at hf
      cases hs : a.field? o k with
      | none => rw [hs] at hf; exact hf.withPath path
      | some s => rw [hs] at hf; exact hf
    · rename_i hok
      exact hf.skip (by simp [Event.concerns, eq_comm, hok])
  | empty owner key =>
    obtain ⟨s, hs, -⟩ := he
    rw [Accumulator.stats, Event.field?_empty (by rw [hs]; rfl)]
    split
    · rename_i hok
      obtain ⟨rfl, rfl⟩ := hok
      rw [Accumulator.stats, hs] at hf
      rw [hs]
      exact hf.seeEmpty
    · rename_i hok
      exact hf.skip (by simp [Event.concerns, eq_comm, hok])
  | nested owner key =>
    obtain ⟨s, hs, -⟩ := he
    rw [Accumulator.stats, Event.field?_nested (by rw [hs]; rfl)]
    split
    · rename_i hok
      obtain ⟨rfl, rfl⟩ := hok
      rw [Accumulator.stats, hs] at hf
      rw [hs]
      exact hf.seeNested
    · rename_i hok
      exact hf.skip (by simp [Event.concerns, eq_comm, hok])
  | document populated =>
    rw [Accumulator.stats, Event.field?_document]
    exact hf.skip rfl
  | finish => exact hf.skip rfl
  | record path => exact hf.skip rfl

/-- A field is there once an event has shown it. -/
theorem field?_isSome_iff (he : e.Enabled a) (o : Owner) (k : String) :
    ((e.apply a).field? o k).isSome ↔ (a.field? o k).isSome ∨
      ∃ path isNull isArray kinds, e = .field o k path isNull isArray kinds := by
  cases e with
  | field owner key path isNull isArray kinds =>
    rw [Event.field?_field he.1]
    split
    · rename_i hok
      obtain ⟨rfl, rfl⟩ := hok
      exact iff_of_true rfl (.inr ⟨_, _, _, _, rfl⟩)
    · rename_i hok
      refine ⟨.inl, fun h => h.elim id ?_⟩
      rintro ⟨_, _, _, _, h⟩
      cases h
      exact absurd ⟨rfl, rfl⟩ hok
  | empty owner key =>
    rw [Event.field?_empty (isSome_of_value he)]
    split
    · rename_i hok
      rw [hok.1, hok.2, Option.isSome_map]
      simp
    · simp
  | nested owner key =>
    rw [Event.field?_nested (isSome_of_value he)]
    split
    · rename_i hok
      rw [hok.1, hok.2, Option.isSome_map]
      simp
    · simp
  | document populated =>
    rw [Event.field?_document]
    simp
  | _ => exact ⟨.inl, fun h => h.elim id fun ⟨_, _, _, _, h⟩ => by cases h⟩

theorem seen_step (h : Records a es) (he : e.Enabled a) (o : Owner) (k : String) :
    ((e.apply a).field? o k).isSome ↔ ∃ path isNull isArray kinds,
      Event.field o k path isNull isArray kinds ∈ es ++ [e] := by
  rw [field?_isSome_iff he, h.seen]
  simp only [List.mem_append, List.mem_singleton]
  constructor
  · rintro (⟨p, n, r, ks, h⟩ | ⟨p, n, r, ks, h⟩)
    · exact ⟨p, n, r, ks, .inl h⟩
    · exact ⟨p, n, r, ks, .inr h.symm⟩
  · rintro ⟨p, n, r, ks, h | h⟩
    · exact .inl ⟨p, n, r, ks, h⟩
    · exact .inr ⟨p, n, r, ks, h.symm⟩

theorem path_step (h : Records a es) (he : e.Enabled a) (o : Owner) (k : String)
    (hs : ((e.apply a).field? o k).isSome) : ∃ isNull isArray kinds,
      Event.field o k ((e.apply a).stats o k).path isNull isArray kinds ∈ es ++ [e] := by
  by_cases ha : (a.field? o k).isSome
  · obtain ⟨n, r, ks, hm⟩ := h.path o k ha
    rw [stats_path he ha]
    exact ⟨n, r, ks, List.mem_append_left _ hm⟩
  · obtain ⟨p, n, r, ks, rfl⟩ := ((field?_isSome_iff he o k).1 hs).resolve_left ha
    have hp : ((Event.field o k p n r ks).apply a |>.stats o k).path = p := by
      rw [Accumulator.stats, Event.field?_field he.1, if_pos ⟨rfl, rfl⟩, Option.not_isSome_iff_eq_none.1 ha]
      cases n <;> rfl
    rw [hp]
    exact ⟨n, r, ks, by simp⟩

theorem noted_step (h : Records a es) (he : e.Enabled a) : ∀ f ∈ es ++ [e], ∀ o k,
    f.concerns o k = true → ((e.apply a).field? o k).isSome := by
  intro f hf o k hc
  rcases List.mem_append.1 hf with hf | hf
  · exact field?_isSome_apply he (h.noted f hf o k hc)
  · rw [List.mem_singleton] at hf
    subst hf
    rw [field?_isSome_iff he]
    cases f with
    | field owner key path isNull isArray kinds =>
      obtain ⟨rfl, rfl⟩ : owner = o ∧ key = k := by simpa [Event.concerns] using hc
      exact .inr ⟨_, _, _, _, rfl⟩
    | empty owner key | nested owner key =>
      obtain ⟨rfl, rfl⟩ : owner = o ∧ key = k := by simpa [Event.concerns] using hc
      exact .inl (isSome_of_value he)
    | _ => simp [Event.concerns] at hc

theorem documents_step (h : Records a es) :
    (e.apply a).root.observations = (es ++ [e]).countP Event.isDocument := by
  have hr := congrArg TypeContext.observations (Event.rootBare_apply (a := a) e)
  rw [List.countP_append, ← h.documents]
  cases e <;> exact hr

/-- After an event that asks for no name, the same names have been asked for. -/
theorem countP_asksFor_apply (h : Records a es) (he : e.Enabled a) (n path : String) :
    (es ++ [e]).countP (Event.asksFor (e.apply a) n path) =
      es.countP (Event.asksFor a n path) + if e.asksFor (e.apply a) n path then 1 else 0 := by
  rw [List.countP_append, List.countP_singleton]
  congr 1
  exact List.countP_congr fun f hf => by rw [h.asksFor_apply he hf]

/-- The contexts that an event other than an object with fields leaves as they are. -/
theorem head?_nested_apply (n : String) (hne : ∀ owner key, e ≠ .nested owner key) :
    (e.apply a).head? (.nested n) = a.head? (.nested n) := by
  cases e with
  | document populated => simp [Event.apply, Accumulator.head?_observe]
  | field owner key path isNull isArray kinds => exact Event.head?_field
  | empty owner key => exact Event.head?_empty
  | nested owner key => exact absurd rfl (hne owner key)
  | _ => rfl

/-- A context that an event leaves as it is stays on record, unless the event asks for it. -/
theorem context_keep (h : Records a es) (he : e.Enabled a) {n : String} {c : TypeContext}
    (hc : a.head? (.nested n) = some c) (hask : e.asksFor (e.apply a) n c.path = false) :
    ContextRecord (e.apply a) (es ++ [e]) n c := by
  obtain ⟨hname, hpop, hobs, o, k, hin, hn, hpath, hparent⟩ := h.context n c hc
  have hs := h.noted _ hin o k (by simp [Event.concerns])
  refine ⟨hname, hpop, ?_, o, k, List.mem_append_left _ hin, ?_, ?_, ?_⟩
  · rw [h.countP_asksFor_apply he, hask, hobs]
    simp
  · rw [Event.ownerName_apply, hn]
  · rw [stats_path he hs, hpath]
  · rw [Event.ownerName_apply, hparent]

theorem context_step (h : Records a es) (he : e.Enabled a) (n : String) (c : TypeContext)
    (hc : (e.apply a).head? (.nested n) = some c) : ContextRecord (e.apply a) (es ++ [e]) n c := by
  by_cases hne : ∃ owner key, e = .nested owner key
  · obtain ⟨owner, key, rfl⟩ := hne
    have hsome := isSome_of_value he
    simp only [Event.head?_nested, Owner.nested.injEq] at hc
    rw [knownPath_eq] at hc
    have hask (p : String) : (Event.nested owner key).asksFor ((Event.nested owner key).apply a) n p =
        decide (Naming.nestedTypeName (a.ownerName owner) key = n ∧ (a.stats owner key).path = p) := by
      rw [Event.asksFor, Event.ownerName_apply, stats_path he hsome]
    by_cases hn : n = Naming.nestedTypeName (a.ownerName owner) key
    · rw [if_pos hn] at hc
      cases ha : a.head? (.nested n) with
      | none =>
        -- a new context: no event before has asked for its name
        rw [ha] at hc
        simp only [Option.getD_none, if_true, Option.some.injEq] at hc
        subst hc
        have hzero : es.countP (Event.asksFor a n (a.stats owner key).path) = 0 := by
          refine List.countP_eq_zero.2 fun f hf hask => ?_
          cases f with
          | nested o k =>
            simp only [Event.asksFor, decide_eq_true_eq] at hask
            obtain ⟨d, hd, -⟩ := h.asked o k hf
            rw [hask.1, ha] at hd
            cases hd
          | _ => simp [Event.asksFor] at hask
        refine ⟨hn.symm, rfl, ?_, owner, key, by simp, ?_, ?_, ?_⟩
        · rw [h.countP_asksFor_apply he, hask]
          simp only [TypeContext.observe]
          rw [hzero]
          simp [hn]
        · rw [Event.ownerName_apply, hn]
        · exact (stats_path he hsome).symm
        · rw [Event.ownerName_apply]
          rfl
      | some d =>
        rw [ha] at hc
        simp only [Option.getD_some, Option.some.injEq] at hc
        split at hc
        · rename_i hpath
          subst hc
          obtain ⟨hname, hpop, hobs, o, k, hin, hn', hpath', hparent⟩ := h.context n d ha
          have hs' := h.noted _ hin o k (by simp [Event.concerns])
          refine ⟨hname, by simp [TypeContext.observe], ?_, o, k, List.mem_append_left _ hin, ?_, ?_, ?_⟩
          · rw [h.countP_asksFor_apply he, hask]
            simp [TypeContext.observe, hn, hpath, hobs]
          · rw [Event.ownerName_apply, hn']
          · rw [stats_path he hs', ← hpath']
            rfl
          · rw [Event.ownerName_apply, ← hparent]
            rfl
        · rename_i hpath
          subst hc
          exact h.context_keep he ha (by rw [hask]; simp [Ne.symm hpath])
    · rw [if_neg hn] at hc
      exact h.context_keep he hc (by rw [hask]; simp [Ne.symm hn])
  · have hne' : ∀ owner key, e ≠ .nested owner key := fun o k h' => hne ⟨o, k, h'⟩
    rw [head?_nested_apply n hne'] at hc
    refine h.context_keep he hc ?_
    cases e with
    | nested owner key => exact absurd rfl (hne' owner key)
    | _ => rfl

theorem asked_step (h : Records a es) (he : e.Enabled a) (o : Owner) (k : String)
    (hin : Event.nested o k ∈ es ++ [e]) :
    ∃ c, (e.apply a).head? (.nested (Naming.nestedTypeName ((e.apply a).ownerName o) k)) = some c ∧
      (c.path = ((e.apply a).stats o k).path ∨
        ⟨Naming.nestedTypeName ((e.apply a).ownerName o) k, c.path, ((e.apply a).stats o k).path⟩ ∈
          (e.apply a).collisions) := by
  rw [Event.ownerName_apply]
  rcases List.mem_append.1 hin with hin | hin
  · obtain ⟨c, hc, hpath⟩ := h.asked o k hin
    obtain ⟨d, hd, -, hp, -⟩ := Event.head?_mono e hc
    rw [stats_path he (h.noted _ hin o k (by simp [Event.concerns]))]
    refine ⟨d, hd, ?_⟩
    rw [hp]
    exact hpath.imp id fun hm => (Event.collisions_prefix e).subset hm
  · rw [List.mem_singleton] at hin
    subst hin
    rw [stats_path he (isSome_of_value he)]
    simp only [Event.head?_nested, if_true]
    rw [knownPath_eq]
    refine ⟨_, rfl, ?_⟩
    cases ha : a.head? (.nested (Naming.nestedTypeName (a.ownerName o) k)) with
    | none => simp [TypeContext.observe]
    | some c =>
      simp only [Option.getD_some]
      by_cases hp : c.path = (a.stats o k).path
      · rw [if_pos hp]
        exact .inl hp
      · rw [if_neg hp, Event.collisions_nested]
        simp only [ha]
        rw [knownPath_eq]
        refine .inr ?_
        split
        · rename_i hr
          -- refused before, and under the path that the name still has
          obtain ⟨d, hd, hdn⟩ := CollisionLog.contains_iff.1 (hr.resolve_left hp)
          obtain ⟨-, ⟨c', hc', hfirst⟩, -⟩ := h.refused d hd
          rw [hdn.1, ha, Option.some.injEq] at hc'
          rw [← hdn.1, ← hdn.2, hc', hfirst]
          exact hd
        · exact List.mem_append_right _ List.mem_cons_self

theorem refused_step (h : Records a es) (he : e.Enabled a) : ∀ d ∈ (e.apply a).collisions,
    d.firstPath ≠ d.collidingPath ∧
    (∃ c, (e.apply a).head? (.nested d.typeName) = some c ∧ c.path = d.firstPath) ∧
      ∃ o k, Event.nested o k ∈ es ++ [e] ∧
        d.typeName = Naming.nestedTypeName ((e.apply a).ownerName o) k ∧
        d.collidingPath = ((e.apply a).stats o k).path := by
  intro d hd
  rcases Event.mem_collisions_apply hd with hd | ⟨owner, key, c, rfl, hc, hp, rfl⟩
  · obtain ⟨hne, ⟨c, hc, hfirst⟩, o, k, hin, hname, hpath⟩ := h.refused d hd
    obtain ⟨c', hc', -, hp, -⟩ := Event.head?_mono e hc
    refine ⟨hne, ⟨c', hc', hp.trans hfirst⟩, o, k, List.mem_append_left _ hin, ?_, ?_⟩
    · rw [Event.ownerName_apply, hname]
    · rw [stats_path he (h.noted _ hin o k (by simp [Event.concerns])), hpath]
  · obtain ⟨c', hc', -, hp', -⟩ := Event.head?_mono (.nested owner key) hc
    refine ⟨hp, ⟨c', hc', hp'⟩, owner, key, by simp, ?_, ?_⟩
    · rw [Event.ownerName_apply]
    · rw [stats_path he (isSome_of_value he), knownPath_eq]

theorem empties_step (h : Records a es) (he : e.Enabled a) (path : String) :
    (e.apply a).emptyCount path = (es ++ [e]).countP (Event.emptyAt (e.apply a) path) := by
  rw [List.countP_append, List.countP_singleton,
    List.countP_congr fun f hf => by rw [h.emptyAt_apply he hf path], ← h.empties]
  by_cases hne : ∃ owner key, e = .empty owner key
  · obtain ⟨owner, key, rfl⟩ := hne
    rw [Event.emptyCount_empty, Event.emptyAt, stats_path he (isSome_of_value he), knownPath_eq]
    by_cases hp : path = (a.stats owner key).path
    · simp [hp]
    · simp [hp, Ne.symm hp]
  · have hne' : ∀ owner key, e ≠ .empty owner key := fun o k h' => hne ⟨o, k, h'⟩
    rw [Accumulator.emptyCount, Event.emptyInstances_apply hne']
    cases e with
    | empty owner key => exact absurd rfl (hne' owner key)
    | _ => rfl

/-- An event keeps the record. -/
theorem step (h : Records a es) (he : e.Enabled a) : Records (e.apply a) (es ++ [e]) where
  fields := h.fields_step he
  seen := h.seen_step he
  path := h.path_step he
  noted := h.noted_step he
  leaves o k path isNull isArray kinds hin := by
    rcases List.mem_append.1 hin with hin | hin
    · exact h.leaves o k path isNull isArray kinds hin
    · rw [List.mem_singleton] at hin
      subst hin
      exact he.2
  documents := h.documents_step
  context := h.context_step he
  asked := h.asked_step he
  refused := h.refused_step he
  empties := h.empties_step he
  merged := by
    rw [Event.documentsMerged_apply, h.merged, List.countP_append, List.countP_singleton]
    cases e <;> rfl
  recorded path := by
    rw [Event.mem_seenPaths_apply, h.recorded, List.mem_append, List.mem_singleton]
    simp only [eq_comm]

/-- The state before the first document is a record of no events. -/
theorem fresh (collection typeName : String) : Records (Accumulator.fresh collection typeName) [] where
  fields o k := by
    have hnone : (Accumulator.fresh collection typeName).field? o k = none := by cases o <;> rfl
    rw [Accumulator.stats, hnone]
    exact .nil
  seen o k := by cases o <;> simp [Accumulator.fresh, Accumulator.field?, Accumulator.context?]
  path o k h := by cases o <;> simp [Accumulator.fresh, Accumulator.field?, Accumulator.context?] at h
  noted := by simp
  leaves := by simp
  documents := rfl
  context n c h := by simp [Accumulator.fresh, Accumulator.head?, Accumulator.context?] at h
  asked := by simp
  refused := by simp [Accumulator.fresh, Accumulator.collisions]
  empties _ := rfl
  merged := rfl
  recorded := by simp [Accumulator.fresh]

/-- What a state is a record of does not depend on the order of the events. -/
theorem perm {fs : List Event} (h : Records a es) (hp : es.Perm fs) : Records a fs where
  fields o k := (h.fields o k).perm hp
  seen o k := by simpa only [hp.mem_iff] using h.seen o k
  path o k := by simpa only [hp.mem_iff] using h.path o k
  noted e he := h.noted e (hp.mem_iff.2 he)
  leaves := by simpa only [hp.mem_iff] using h.leaves
  documents := h.documents.trans (hp.countP_eq _)
  context := by simpa only [ContextRecord, hp.mem_iff, hp.countP_eq] using h.context
  asked := by simpa only [hp.mem_iff] using h.asked
  refused := by simpa only [hp.mem_iff] using h.refused
  empties path := (h.empties path).trans (hp.countP_eq _)
  merged := h.merged.trans (hp.countP_eq _)
  recorded path := (h.recorded path).trans hp.mem_iff

/-! ## Reading the record -/

theorem stats_eq {o : Owner} {k : String} {s : FieldStats} (h : a.field? o k = some s) :
    a.stats o k = s := by
  rw [Accumulator.stats, h]
  rfl

/-- A field has the kind of nested objects once it held an object with fields. -/
theorem contains_nested_iff (h : Records a es) (o : Owner) (k : String) :
    (a.stats o k).kinds.contains .nested = true ↔ Event.nested o k ∈ es := by
  rw [(h.fields o k).kinds, List.any_eq_true]
  constructor
  · rintro ⟨e, he, hk⟩
    cases e with
    | field owner key path isNull isArray kinds =>
      have := h.leaves _ _ _ _ _ _ he
      simp [Event.showsKind, this] at hk
    | nested owner key =>
      obtain ⟨rfl, rfl⟩ : owner = o ∧ key = k := by simpa [Event.showsKind] using hk
      exact he
    | _ => simp [Event.showsKind] at hk
  · intro hin
    exact ⟨_, hin, by simp [Event.showsKind]⟩

theorem nestedType?_eq (h : Records a es) (o : Owner) (k : String) :
    (a.stats o k).nestedType? = if Event.nested o k ∈ es then
      some (Naming.nestedTypeName (a.ownerName o) k) else none :=
  (h.fields o k).nestedType

/-- The context that is registered under a name is on record. -/
theorem context_of_get? (h : Records a es) {n : String} {c : TypeContext}
    (hc : a.nested.get? n = some c) : ContextRecord a es n c :=
  h.context n c.bare (Accumulator.head?_of_context? (o := .nested n) hc)

/-- A registered context has the name it is registered under, and is populated. -/
theorem context_named (h : Records a es) {n : String} {c : TypeContext}
    (hc : a.nested.get? n = some c) : c.name = n ∧ c.populated = true := by
  obtain ⟨hname, hpop, -⟩ := h.context_of_get? hc
  exact ⟨hname, hpop⟩

/-- The name that an object with fields asked for is registered. -/
theorem registered_of_nested (h : Records a es) {o : Owner} {k : String} (hin : Event.nested o k ∈ es) :
    ∃ c, a.nested.get? (Naming.nestedTypeName (a.ownerName o) k) = some c := by
  obtain ⟨c, hc, -⟩ := h.asked o k hin
  obtain ⟨d, hd, -⟩ := Option.map_eq_some_iff.1 hc
  exact ⟨d, hd⟩

end Records

/-- A run keeps the record. -/
theorem records_of_run {a b : Accumulator} {past es : List Event} (h : Records a past)
    (run : Run a es b) : Records b (past ++ es) :=
  run.induct (fun _ _ _ h he => h.step he) h

end Schema

end DocSchema
