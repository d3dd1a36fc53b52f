import DocSchema.Proofs.Extraction.DistinctKeys
import DocSchema.Proofs.Merge.Tally

/-!
# Merging a document again

What a merge decides, it decides again at every later state: a field keeps its path and a type name
the path that it was granted to. So a document that is merged a second time goes through the events
it went through the first time. In those events no field of an owner is seen more often than objects with
the owner are entered, since an object shows each key once.

- `Later`: a state that events may lead to.
- `Event.observes`, `Records.observationsOf_eq`: the objects of an owner are counted by events.
- `Event.settled`: an event that comes again refuses no name and records no path.
- `Retraced`: a merge that goes through the same events at every later state, and what holds of its events
  while fields of an object are still to come.
- `mergeDocument_retraced`, `mergeAll_retraced`: the merge of documents is one.
- `mergeDocument_replayed`, `mergeAll_replayed`: so no field has more values than its owner has objects.
-/

namespace DocSchema.Schema

/-! ## Later states -/

/-- Events may lead from a state to another. -/
def Later (a b : Accumulator) : Prop :=
  ∃ es, Run a es b

namespace Later

variable {a b c : Accumulator} {o : Owner} {k : String}

theorem refl (a : Accumulator) : Later a a :=
  ⟨[], .nil a⟩

theorem trans (h : Later a b) (h' : Later b c) : Later a c := by
  obtain ⟨es, run⟩ := h
  obtain ⟨fs, run'⟩ := h'
  exact ⟨es ++ fs, run.append run'⟩

theorem apply {e : Event} (h : Later a b) (he : e.Enabled b) : Later a (e.apply b) :=
  h.trans ⟨[e], .single he⟩

theorem field?_mono {s : FieldStats} (h : Later a b) (hs : a.field? o k = some s) :
    ∃ t, b.field? o k = some t ∧ t.path = s.path ∧ s.nonNull ≤ t.nonNull := by
  obtain ⟨es, run⟩ := h
  exact run.field?_mono hs

theorem head?_mono {c : TypeContext} (h : Later a b) (hc : a.head? o = some c) :
    ∃ d, b.head? o = some d ∧ d.name = c.name ∧ d.path = c.path ∧ d.parent? = c.parent? := by
  obtain ⟨es, run⟩ := h
  exact run.head?_mono hc

theorem ownerName (h : Later a b) (o : Owner) : b.ownerName o = a.ownerName o := by
  obtain ⟨es, run⟩ := h
  cases o with
  | root => exact run.rootName
  | nested name => rfl

theorem context?_isSome (h : Later a b) (ho : (a.context? o).isSome) : (b.context? o).isSome := by
  obtain ⟨es, run⟩ := h
  exact run.context?_isSome ho

/-- A context that is there stays, under the name, the path and the parent it had. -/
theorem context?_mono {c : TypeContext} (h : Later a b) (hc : a.context? o = some c) :
    ∃ d, b.context? o = some d ∧ d.name = c.name ∧ d.path = c.path ∧ d.parent? = c.parent? := by
  obtain ⟨x, hx, hname, hpath, hparent⟩ := h.head?_mono (Accumulator.head?_of_context? hc)
  obtain ⟨d, hd, rfl⟩ := Option.map_eq_some_iff.1 hx
  exact ⟨d, hd, hname, hpath, hparent⟩

/-- The path of a field that is known stays. -/
theorem stats_path (h : Later a b) (hs : (a.field? o k).isSome) :
    (b.stats o k).path = (a.stats o k).path := by
  obtain ⟨s, hs⟩ := Option.isSome_iff_exists.1 hs
  obtain ⟨t, ht, hpath, -⟩ := h.field?_mono hs
  simp only [Accumulator.stats, hs, ht, Option.getD_some, hpath]

theorem isReported (h : Later a b) {typeName path : String} (hr : a.isReported typeName path = true) :
    b.isReported typeName path = true := by
  obtain ⟨es, run⟩ := h
  obtain ⟨d, hd, hdn⟩ := CollisionLog.contains_iff.1 hr
  exact CollisionLog.contains_iff.2 ⟨d, run.collisions_prefix.subset hd, hdn⟩

theorem seenPaths_subset (h : Later a b) : a.seenPaths ⊆ b.seenPaths := by
  obtain ⟨es, run⟩ := h
  induction run with
  | nil => exact fun _ hp => hp
  | cons _ _ ih => exact fun p hp => ih ((Event.mem_seenPaths_apply _ p).2 (.inl hp))

/-- A merge that may come to an event may come to it later. -/
theorem enabled {e : Event} (h : Later a b) (he : e.Enabled a) : e.Enabled b := by
  cases e with
  | field owner key path isNull isArray kinds => exact ⟨h.context?_isSome he.1, he.2⟩
  | empty owner key | nested owner key =>
    obtain ⟨s, hs, hpos⟩ := he
    obtain ⟨t, ht, -, hle⟩ := h.field?_mono hs
    exact ⟨t, ht, Nat.lt_of_lt_of_le hpos hle⟩
  | _ => trivial

end Later

/-- No path is recorded twice. -/
theorem Run.nodup_seenPaths {a b : Accumulator} {es : List Event} (h : Run a es b)
    (ha : a.seenPaths.Nodup) : b.seenPaths.Nodup := by
  induction h with
  | nil => exact ha
  | @cons a b e es _ _ ih =>
    refine ih ?_
    obtain ⟨r, n, cs, i, happly, -⟩ := Event.apply_eq e
    rw [happly]
    cases e with
    | record path =>
      simp only [Accumulator.addPath]
      split
      · exact ha
      · rename_i hnew
        exact List.nodup_cons.2 ⟨hnew, ha⟩
    | _ => exact ha

/-! ## Objects of an owner -/

namespace Event

/-- Whether an event enters an object with an owner: a document, or an object with fields whose type name is
granted. -/
def enters (a : Accumulator) : Owner → Event → Bool
  | .root, e => e.isDocument
  | .nested n, e =>
    match a.head? (.nested n) with
    | some c => e.asksFor a n c.path
    | none => false

/-- Whether an event counts an object of an owner: a document, an object with fields whose type name is
granted, or an object without fields at the path of the type. -/
def observes (a : Accumulator) : Owner → Event → Bool
  | .root, e => e.isDocument
  | .nested n, e =>
    match a.head? (.nested n) with
    | some c => e.asksFor a n c.path || e.emptyAt a c.path
    | none => false

/-- An object that is entered is counted. -/
theorem observes_of_enters {a : Accumulator} {o : Owner} {e : Event} (h : e.enters a o = true) :
    e.observes a o = true := by
  cases o with
  | root => exact h
  | nested n =>
    rw [enters] at h
    rw [observes]
    split at h
    · rw [h, Bool.true_or]
    · cases h

end Event

theorem countP_or_of_disjoint {α : Type} {p q : α → Bool} (l : List α)
    (h : ∀ x ∈ l, p x = true → q x = false) :
    l.countP (fun x => p x || q x) = l.countP p + l.countP q := by
  induction l with
  | nil => rfl
  | cons x l ih =>
    have hx := h x List.mem_cons_self
    rw [List.countP_cons, List.countP_cons, List.countP_cons,
      ih fun y hy => h y (List.mem_cons_of_mem x hy)]
    cases hp : p x
    · simp only [Bool.false_or, Bool.false_eq_true, if_false]
      omega
    · simp only [Bool.true_or, hx hp, Bool.false_eq_true, if_true, if_false]
      omega

namespace Records

variable {a b : Accumulator} {es : List Event} {o : Owner}

/-- The objects of an owner are those that the events count. -/
theorem observationsOf_eq (h : Records a es) (ho : (a.context? o).isSome) :
    a.observationsOf o = es.countP (Event.observes a o) := by
  cases o with
  | root => exact h.documents
  | nested n =>
    obtain ⟨c, hc⟩ := Option.isSome_iff_exists.1 ho
    obtain ⟨-, -, hobs, -⟩ := h.context_of_get? hc
    have hsplit : es.countP (Event.observes a (.nested n)) =
        es.countP fun e => e.asksFor a n c.path || e.emptyAt a c.path :=
      List.countP_congr fun e _ => by
        simp only [Event.observes, Accumulator.head?_of_context? hc]
        rfl
    have hdisjoint : ∀ e ∈ es, e.asksFor a n c.path = true → e.emptyAt a c.path = false := by
      intro e _ hask
      cases e with
      | nested owner key => rfl
      | _ => simp [Event.asksFor] at hask
    rw [hsplit, countP_or_of_disjoint es hdisjoint, ← hobs, ← h.empties, Accumulator.observationsOf]
    rw [Accumulator.context?] at hc
    rw [hc]

/-- The events of a state count an object of an owner the same at every later state. -/
theorem observes_later (h : Records a es) (hl : Later a b) (ho : (a.context? o).isSome) {e : Event}
    (he : e ∈ es) : e.observes b o = e.observes a o := by
  cases o with
  | root => rfl
  | nested n =>
    rw [← Accumulator.head?_isSome] at ho
    obtain ⟨c, hc⟩ := Option.isSome_iff_exists.1 ho
    obtain ⟨d, hd, -, hpath, -⟩ := hl.head?_mono hc
    simp only [Event.observes, hc, hd, hpath]
    cases e with
    | empty owner key | nested owner key =>
      have hs := h.noted _ he owner key (by simp [Event.concerns])
      simp only [Event.asksFor, Event.emptyAt, hl.ownerName, hl.stats_path hs]
    | _ => rfl

/-- The objects of an owner are counted on. -/
theorem observationsOf_later {fs : List Event} (h : Records a es) (run : Run a fs b)
    (ho : (a.context? o).isSome) :
    b.observationsOf o = a.observationsOf o + fs.countP (Event.observes b o) := by
  rw [(records_of_run h run).observationsOf_eq (run.context?_isSome ho), List.countP_append,
    h.observationsOf_eq ho]
  congr 1
  exact List.countP_congr fun e he => by rw [h.observes_later ⟨fs, run⟩ ho he]

end Records

/-- How often events show a field of an owner. -/
def showingsOf (es : List Event) (o : Owner) (k : String) : Nat :=
  es.countP (Event.shows o k fun _ _ => true)

/-- How often events bring a value for a field of an owner. -/
def valuesOf (es : List Event) (o : Owner) (k : String) : Nat :=
  es.countP (Event.shows o k fun isNull _ => !isNull)

/-- The values of a field are counted on. -/
theorem Records.nonNull_later {a b : Accumulator} {es fs : List Event} (h : Records a es)
    (run : Run a fs b) (o : Owner) (k : String) :
    (b.stats o k).nonNull = (a.stats o k).nonNull + valuesOf fs o k := by
  rw [((records_of_run h run).fields o k).nonNull, List.countP_append, (h.fields o k).nonNull, valuesOf]

/-! ## Events that come again -/

namespace Event

variable {a b : Accumulator} {owner : Owner} {key : String}

/-- Once an object with fields has asked for the name of its type, the name is registered, and under the
path of the field just if it was granted. -/
theorem head?_later (he : (Event.nested owner key).Enabled a)
    (h : Later ((Event.nested owner key).apply a) b) :
    ∃ c, b.head? (.nested (Naming.nestedTypeName (b.ownerName owner) key)) = some c ∧
      (c.path = knownPath b owner key ↔ (enter a owner key).2 = true) := by
  have hl : Later a b := .trans ⟨_, .single he⟩ h
  have hknown : knownPath b owner key = knownPath a owner key := by
    rw [knownPath_eq, knownPath_eq, hl.stats_path (Records.isSome_of_value he)]
  rw [hl.ownerName, hknown, granted_iff]
  have hhead := @head?_nested a (.nested (Naming.nestedTypeName (a.ownerName owner) key)) owner key
  simp only [if_true] at hhead
  obtain ⟨c, hc, -, hpath, -⟩ := h.head?_mono hhead
  refine ⟨c, hc, ?_⟩
  rw [hpath]
  cases ha : a.head? (.nested (Naming.nestedTypeName (a.ownerName owner) key)) with
  | none => simp [TypeContext.observe]
  | some d =>
    simp only [Option.getD_some, Option.some.injEq, forall_eq']
    split <;> rfl

/-- A type name is granted again, or refused again. -/
theorem enter_later (he : (Event.nested owner key).Enabled a)
    (h : Later ((Event.nested owner key).apply a) b) : (enter b owner key).2 = (enter a owner key).2 := by
  obtain ⟨c, hc, hpath⟩ := head?_later he h
  rw [Bool.eq_iff_iff, ← hpath, granted_iff, hc]
  simp only [Option.some.injEq, forall_eq']

/-- An object with fields whose type name is granted is entered. -/
theorem enters_nested (he : (Event.nested owner key).Enabled a)
    (h : Later ((Event.nested owner key).apply a) b) (hgranted : (enter a owner key).2 = true) :
    (Event.nested owner key).enters b (.nested (Naming.nestedTypeName (a.ownerName owner) key)) = true := by
  have hl : Later a b := .trans ⟨_, .single he⟩ h
  obtain ⟨c, hc, hpath⟩ := head?_later he h
  have hpath := hpath.2 hgranted
  rw [hl.ownerName] at hc
  simp only [enters, hc, asksFor, hl.ownerName, decide_eq_true_eq, true_and]
  rw [hpath, knownPath_eq]

/-- A name that is refused is reported. -/
theorem isReported_of_refused (hrefused : (enter a owner key).2 = false) :
    ((Event.nested owner key).apply a).isReported (Naming.nestedTypeName (a.ownerName owner) key)
      (knownPath a owner key) = true := by
  have hg := (not_congr (@granted_iff a owner key)).1 (by rw [hrefused]; decide)
  simp only [Classical.not_forall] at hg
  obtain ⟨c, hc, hne⟩ := hg
  refine CollisionLog.contains_iff.2 ?_
  change ∃ c ∈ ((Event.nested owner key).apply a).collisions, _
  rw [collisions_nested]
  simp only [hc]
  split
  · rename_i hr
    exact CollisionLog.contains_iff.1 (hr.resolve_left hne)
  · exact ⟨_, List.mem_append_right _ List.mem_cons_self, rfl, rfl⟩

/-- An event that comes again refuses no further name and records no further path. -/
theorem settled {e : Event} (he : e.Enabled a) (h : Later (e.apply a) b) :
    (e.apply b).collisions = b.collisions ∧ (e.apply b).seenPaths = b.seenPaths := by
  have hl : Later a b := .trans ⟨_, .single he⟩ h
  constructor
  · by_cases hne : ∃ owner key, e = .nested owner key
    · obtain ⟨owner, key, rfl⟩ := hne
      obtain ⟨c, hc, hpath⟩ := head?_later he h
      rw [collisions_nested]
      simp only [hc]
      refine if_pos ?_
      cases hg : (enter a owner key).2 with
      | true => exact .inl (hpath.2 hg)
      | false =>
        have hr := h.isReported (isReported_of_refused hg)
        rw [hl.ownerName, knownPath_eq, hl.stats_path (Records.isSome_of_value he), ← knownPath_eq]
        exact .inr hr
    · exact collisions_apply fun owner key hn => hne ⟨owner, key, hn⟩
  · obtain ⟨r, n, cs, i, happly, -⟩ := apply_eq (a := b) e
    rw [happly]
    cases e with
    | record path =>
      have hin : path ∈ b.seenPaths := h.seenPaths_subset ((mem_seenPaths_apply _ path).2 (.inr rfl))
      exact if_pos hin
    | _ => rfl

end Event

/-- Events that come again, one after the other, refuse no further name and record no further path. -/
theorem Run.settled {a a' b b' : Accumulator} {es : List Event} (h : Run a es a') (hl : Later a' b)
    (h' : Run b es b') : b'.collisions = b.collisions ∧ b'.seenPaths = b.seenPaths := by
  induction h generalizing b with
  | nil =>
    cases h'
    exact ⟨rfl, rfl⟩
  | cons enabled rest ih =>
    cases h' with
    | cons enabled' rest' =>
      obtain ⟨hcollisions, hpaths⟩ := ih (hl.apply enabled') rest'
      obtain ⟨hcollisions', hpaths'⟩ := Event.settled enabled (.trans ⟨_, rest⟩ hl)
      exact ⟨hcollisions.trans hcollisions', hpaths.trans hpaths'⟩

/-! ## Merges that come again -/

/-- A merge from a state goes through the same events, and stops in the same way, from every later state.
The events show a field of an owner no more often than they enter objects with the owner, but for some that
are allowed: those of the fields of an object that was entered before. -/
def Retraced (allowed : Owner → String → Nat) (merge : Accumulator → Merging) (a : Accumulator) : Prop :=
  ∃ es, Run a es (merge a).state ∧ ∀ b, Later (merge a).state b →
    (Run b es (merge b).state ∧ (merge b).fault? = (merge a).fault?) ∧
      ∀ o k, showingsOf es o k ≤ es.countP (Event.enters b o) + allowed o k

/-- A merge from a state goes through the same events, and stops in the same way, from every later state.
The events bring no more values for a field of an owner than they count objects of the owner, but for
some that are allowed. -/
def Replayed (allowed : Owner → String → Nat) (merge : Accumulator → Merging) (a : Accumulator) : Prop :=
  ∃ es, Run a es (merge a).state ∧ ∀ b, Later (merge a).state b →
    (Run b es (merge b).state ∧ (merge b).fault? = (merge a).fault?) ∧
      ∀ o k, valuesOf es o k ≤ es.countP (Event.observes b o) + allowed o k

namespace Retraced

variable {merge merge' next : Accumulator → Merging} {a : Accumulator}
  {allowed allowed' : Owner → String → Nat}

theorem nil (a : Accumulator) : Retraced (fun _ _ => 0) (fun x => ⟨x, none⟩) a :=
  ⟨[], .nil a, fun b _ => ⟨⟨.nil b, rfl⟩, fun _ _ => Nat.le_refl _⟩⟩

theorem mono (h : Retraced allowed merge a) (hle : ∀ o k, allowed o k ≤ allowed' o k) :
    Retraced allowed' merge a := by
  obtain ⟨es, run, again⟩ := h
  refine ⟨es, run, fun b hb => ⟨(again b hb).1, fun o k => ?_⟩⟩
  exact Nat.le_trans ((again b hb).2 o k) (Nat.add_le_add_left (hle o k) _)

/-- A merge is replayed if one is that does the same from the state and from every later one. -/
theorem congr (h : Retraced allowed merge a) (ha : merge' a = merge a)
    (hb : ∀ b, Later (merge a).state b → merge' b = merge b) : Retraced allowed merge' a := by
  obtain ⟨es, run, again⟩ := h
  refine ⟨es, ha ▸ run, fun b hl => ?_⟩
  rw [ha] at hl ⊢
  rw [hb b hl]
  exact again b hl

/-- An event comes first. -/
theorem cons {e : Event} (he : e.Enabled a) (h : Retraced allowed merge (e.apply a))
    (hle : ∀ b, Later (e.apply a) b → ∀ o k, (e.shows o k fun _ _ => true).toNat + allowed o k ≤
      (e.enters b o).toNat + allowed' o k) :
    Retraced allowed' (fun x => merge (e.apply x)) a := by
  obtain ⟨es, run, again⟩ := h
  refine ⟨e :: es, .cons he run, fun b hb => ?_⟩
  have hfrom : Later (e.apply a) b := .trans ⟨es, run⟩ hb
  have heb : e.Enabled b := Later.enabled (.trans ⟨_, .single he⟩ hfrom) he
  obtain ⟨⟨run', hfault⟩, -⟩ := again (e.apply b) (hb.apply heb)
  refine ⟨⟨.cons heb run', hfault⟩, fun o k => ?_⟩
  have hcount := (again b hb).2 o k
  have hfirst := hle b hfrom o k
  have hone (c : Bool) : (if c = true then 1 else 0) = c.toNat := by cases c <;> rfl
  simp only [showingsOf, List.countP_cons, hone] at hcount hfirst ⊢
  omega

/-- A merge goes on from where it was, unless it stops. -/
theorem andThen (h : Retraced allowed merge a)
    (hnext : Later a (merge a).state → Retraced allowed' next (merge a).state) :
    Retraced (fun o k => allowed o k + allowed' o k) (fun x => (merge x).andThen next) a := by
  obtain ⟨es, run, again⟩ := h
  cases hf : (merge a).fault? with
  | some f =>
    have ha : (merge a).andThen next = merge a := Merging.fault_andThen hf next
    refine ⟨es, by simp only [ha, run], fun b hb => ?_⟩
    simp only [ha] at hb ⊢
    obtain ⟨⟨run', hfault⟩, hcount⟩ := again b hb
    rw [Merging.fault_andThen (hfault.trans hf)]
    refine ⟨⟨run', hfault⟩, fun o k => ?_⟩
    have hcount := hcount o k
    omega
  | none =>
    obtain ⟨fs, runNext, againNext⟩ := hnext ⟨es, run⟩
    have ha : (merge a).andThen next = next (merge a).state := by simp only [Merging.andThen, hf]
    refine ⟨es ++ fs, by simp only [ha, run.append runNext], fun b hb => ?_⟩
    simp only [ha] at hb ⊢
    obtain ⟨⟨run', hfault⟩, hcount⟩ := again b (.trans ⟨fs, runNext⟩ hb)
    -- the second merge starts from a state that is later than the one at which it ended before
    obtain ⟨⟨runNext', hfault'⟩, -⟩ := againNext (merge b).state (hb.trans ⟨es, run'⟩)
    have hb' : (merge b).andThen next = next (merge b).state := by
      simp only [Merging.andThen, hfault.trans hf]
    rw [hb']
    refine ⟨⟨run'.append runNext', hfault'⟩, fun o k => ?_⟩
    have hcount := hcount o k
    have hcountNext := (againNext b hb).2 o k
    simp only [showingsOf, List.countP_append] at hcount hcountNext ⊢
    omega

/-- Whether a merge stops is forgotten. -/
theorem forget (h : Retraced allowed merge a) :
    Retraced allowed (fun x => ⟨(merge x).state, none⟩) a := by
  obtain ⟨es, run, again⟩ := h
  exact ⟨es, run, fun b hb => ⟨⟨(again b hb).1.1, rfl⟩, (again b hb).2⟩⟩

end Retraced

/-! ## Documents -/

variable (detect : Bool) (top : String)

/-- One for each of some fields of an owner. -/
def oneEach (owner : Owner) (keys : List String) (o : Owner) (k : String) : Nat :=
  if o = owner ∧ k ∈ keys then 1 else 0

theorem oneEach_cons (owner : Owner) {key : String} {keys : List String} (h : key ∉ keys) (o : Owner)
    (k : String) : oneEach owner [key] o k + oneEach owner keys o k = oneEach owner (key :: keys) o k := by
  simp only [oneEach, List.mem_cons]
  by_cases ho : o = owner <;> by_cases hk : k = key <;> simp [ho, hk, h]

theorem shows_fieldEvent_le (place : Place) (f : FieldSample) (o : Owner) (k : String) :
    ((fieldEvent detect top place f).shows o k fun _ _ => true).toNat ≤
      oneEach (Place.owner top place) [f.key] o k := by
  obtain ⟨key, path, kind, leaves, objects⟩ := f
  simp only [fieldEvent, Event.shows, oneEach, FieldSample.key, List.mem_singleton]
  by_cases h : Place.owner top place = o ∧ key = k
  · rw [if_pos ⟨h.1.symm, h.2.symm⟩]
    exact Bool.toNat_le _
  · simp [h]

/-- A field is seen, and then the objects in it are gone through unless it holds a null or a leaf
without a kind. -/
theorem mergeField_retraced {place : Place} (f : FieldSample) (a : Accumulator)
    (ha : (a.context? (Place.owner top place)).isSome)
    (hobjects : f.isNull = false → Retraced (fun _ _ => 0)
      (mergeNested detect (Place.owner top place) f.key f.objects)
      ((fieldEvent detect top place f).apply a)) :
    Retraced (oneEach (Place.owner top place) [f.key])
      (mergeField detect (Place.owner top place) f) a := by
  have he : (fieldEvent detect top place f).Enabled a := fieldEvent_enabled ha f
  have hcons {merge : Accumulator → Merging}
      (h : Retraced (fun _ _ => 0) merge ((fieldEvent detect top place f).apply a)) :
      Retraced (oneEach (Place.owner top place) [f.key])
        (fun x => merge ((fieldEvent detect top place f).apply x)) a :=
    .cons he h fun b _ o k => by
      have hle := shows_fieldEvent_le detect top place f o k
      omega
  have hstop (fault? : Option DocumentFault) : Retraced (fun _ _ => 0) (fun x => ⟨x, fault?⟩)
      ((fieldEvent detect top place f).apply a) :=
    ⟨[], .nil _, fun b _ => ⟨⟨.nil b, rfl⟩, fun _ _ => Nat.le_refl _⟩⟩
  rw [show mergeField detect (Place.owner top place) f = _ from funext (mergeField_eq place f)]
  cases hn : f.isNull with
  | true =>
    simp only [if_true]
    exact hcons (hstop none)
  | false =>
    simp only [Bool.false_eq_true, if_false]
    cases (leafKinds detect f.leaves).2 with
    | some fault => exact hcons (hstop (some fault))
    | none => exact hcons (hobjects hn)

/-- An object in a field is noted, and then its fields are gone through if it has any and the name of
its type is granted. -/
theorem mergeOne_retraced {up : Place} {key : String} (object : ObjectSample) (a : Accumulator)
    (htop : a.root.name = top) (ha : ∃ s, a.field? (Place.owner top up) key = some s ∧ 0 < s.nonNull)
    (hfields : (((Event.nested (Place.owner top up) key).apply a).context?
        (Place.owner top (key :: up))).isSome →
      Retraced (oneEach (Place.owner top (key :: up)) (object.fields.map FieldSample.key))
        (mergeFields detect (Place.owner top (key :: up)) object.fields)
        ((Event.nested (Place.owner top up) key).apply a)) :
    Retraced (fun _ _ => 0) (fun x =>
      if object.isEmpty then ⟨(Event.empty (Place.owner top up) key).apply x, none⟩
      else if (enter x (Place.owner top up) key).2 then
        mergeFields detect (.nested (Naming.nestedTypeName (x.ownerName (Place.owner top up)) key))
          object.fields ((Event.nested (Place.owner top up) key).apply x)
      else ⟨(Event.nested (Place.owner top up) key).apply x, none⟩) a := by
  have hempty : (Event.empty (Place.owner top up) key).Enabled a := ha
  have hnested : (Event.nested (Place.owner top up) key).Enabled a := ha
  cases hobject : object.isEmpty with
  | true =>
    simp only [if_true]
    exact .cons hempty (.nil _) fun b _ o k => by simp [Event.shows]
  | false =>
    simp only [Bool.false_eq_true, if_false]
    cases hg : (enter a (Place.owner top up) key).2 with
    | false =>
      have hnoted : Retraced (fun _ _ => 0)
          (fun x => (⟨(Event.nested (Place.owner top up) key).apply x, none⟩ : Merging)) a :=
        .cons hnested (.nil _) fun b _ o k => by simp [Event.shows]
      refine hnoted.congr (by simp [hg]) fun b hb => ?_
      simp [Event.enter_later hnested hb, hg]
    | true =>
      have hctx : (((Event.nested (Place.owner top up) key).apply a).context?
          (Place.owner top (key :: up))).isSome := by
        simp only [← Accumulator.head?_isSome, Event.head?_nested]
        rw [if_pos (nested_typeName htop key).symm]
        rfl
      have hwhole : Retraced (fun _ _ => 0) (fun x =>
          mergeFields detect (Place.owner top (key :: up)) object.fields
            ((Event.nested (Place.owner top up) key).apply x)) a := by
        refine .cons hnested (hfields hctx) fun b hb o k => ?_
        -- the fields of an object are covered by the object itself
        have hobserved := Event.enters_nested hnested hb hg
        rw [nested_typeName htop] at hobserved
        simp only [Event.shows, Bool.toNat_false, Nat.zero_add, Nat.add_zero, oneEach]
        split
        · rename_i hok
          rw [hok.1, hobserved]
          exact Nat.le_refl _
        · exact Nat.zero_le _
      obtain ⟨es, run, -⟩ := hfields hctx
      refine hwhole.congr (by simp only [hg, if_true, nested_typeName htop]) fun b hb => ?_
      have hfrom : Later ((Event.nested (Place.owner top up) key).apply a) b := .trans ⟨es, run⟩ hb
      have hname : b.root.name = top :=
        (hfrom.ownerName .root).trans ((Event.rootName_apply _).trans htop)
      simp only [Event.enter_later hnested hfrom, hg, if_true, nested_typeName hname]

mutual
theorem mergeFields_retraced (place : Place) : ∀ (fields : List FieldSample) (a : Accumulator),
    (fields.map FieldSample.key).Nodup → (∀ f ∈ fields, ∀ o ∈ f.objects, o.Keyed) →
    a.root.name = top → (a.context? (Place.owner top place)).isSome →
    Retraced (oneEach (Place.owner top place) (fields.map FieldSample.key))
      (mergeFields detect (Place.owner top place) fields) a
  | [], a, _, _, _, _ => by
    refine (Retraced.nil a).mono fun _ _ => Nat.zero_le _
  | .mk key path kind leaves objects :: fields, a, hd, hk, htop, ha => by
    rw [List.map_cons, List.nodup_cons] at hd
    have hfirst := mergeField_retraced detect top (.mk key path kind leaves objects) a ha fun hn =>
      mergeNested_retraced place key objects _ (hk _ List.mem_cons_self)
        ((Event.rootName_apply _).trans htop) (field?_fieldEvent ha hn)
    refine (hfirst.andThen fun hl => mergeFields_retraced place fields _ hd.2
      (fun f hf => hk f (List.mem_cons_of_mem _ hf)) ((hl.ownerName .root).trans htop)
      (hl.context?_isSome ha)).mono fun o k => ?_
    exact Nat.le_of_eq (oneEach_cons _ hd.1 o k)
theorem mergeNested_retraced (up : Place) (key : String) :
    ∀ (objects : List ObjectSample) (a : Accumulator), (∀ o ∈ objects, o.Keyed) →
    a.root.name = top → (∃ s, a.field? (Place.owner top up) key = some s ∧ 0 < s.nonNull) →
    Retraced (fun _ _ => 0) (mergeNested detect (Place.owner top up) key objects) a
  | [], a, _, _, _ => .nil a
  | .mk path fields :: objects, a, hk, htop, ha => by
    have hfirst := mergeOne_retraced detect top (.mk path fields) a htop ha fun hc => by
      cases hk _ List.mem_cons_self with
      | mk distinct below =>
        exact mergeFields_retraced (key :: up) fields _ distinct below
          ((Event.rootName_apply _).trans htop) hc
    rw [show mergeNested detect (Place.owner top up) key (.mk path fields :: objects) = _ from
      funext fun x => mergeNested_cons _ key (.mk path fields) objects x]
    refine (hfirst.andThen fun hl => mergeNested_retraced up key objects _
      (fun o ho => hk o (List.mem_cons_of_mem _ ho)) ((hl.ownerName .root).trans htop) ?_)
    exact hl.enabled (e := .empty (Place.owner top up) key) ha
end

/-- The merge of a document that shows each key once goes through the same events at every later state,
and they show a field no more often than they enter objects with its owner. -/
theorem mergeDocument_retraced (e : Extracted) (he : e.root.Keyed) (a : Accumulator) :
    Retraced (fun _ _ => 0) (mergeDocument detect e) a := by
  have hroot : Retraced (fun _ _ => 0) (mergeObject detect .root e.root) a := by
    obtain ⟨root, paths⟩ := e
    cases root with
    | mk path fields =>
      cases he with
      | mk distinct objects =>
        have hfields := mergeFields_retraced detect a.root.name [] fields
          ((Event.document (!fields.isEmpty)).apply a) distinct objects (Event.rootName_apply _) rfl
        rw [show mergeObject detect .root (.mk path fields) = _ from funext fun x => mergeObject.eq_1 ..]
        refine .cons (e := .document (!fields.isEmpty)) trivial hfields fun b _ o k => ?_
        -- the fields of a document are covered by the document itself
        simp only [Event.shows, Bool.toNat_false, Nat.zero_add, Nat.add_zero]
        rw [oneEach]
        split
        · rename_i hok
          rw [hok.1]
          exact Nat.le_refl _
        · exact Nat.zero_le _
  have hlast (x : Accumulator) : Retraced (fun _ _ => 0) (fun merged =>
      ⟨{ merged with documentsMerged := merged.documentsMerged + 1 }.recordPaths e.paths, none⟩) x := by
    refine ⟨.finish :: e.paths.map .record, .cons trivial (recordPaths_run _ _),
      fun b _ => ⟨⟨.cons trivial (recordPaths_run _ _), rfl⟩, fun o k => ?_⟩⟩
    have hzero : showingsOf (.finish :: e.paths.map .record) o k = 0 :=
      countP_closing (fun f hf => by cases f <;> first | rfl | cases hf) e
    omega
  exact hroot.andThen fun _ => hlast _

/-- So do the merges of documents one after the other, whether or not some of them stop. -/
theorem mergeAll_retraced (es : List Extracted) (hes : ∀ e ∈ es, e.root.Keyed) (a : Accumulator) :
    Retraced (fun _ _ => 0) (fun x => ⟨mergeAll detect es x, none⟩) a := by
  induction es generalizing a with
  | nil => exact .nil a
  | cons e es ih =>
    have hfirst := (mergeDocument_retraced detect e (hes e List.mem_cons_self) a).forget
    exact hfirst.andThen fun _ => ih (fun f hf => hes f (List.mem_cons_of_mem e hf)) _

/-! ## Values and objects -/

/-- A field has a value no more often than it is seen, and an object that is entered is counted. -/
theorem Retraced.replayed {allowed : Owner → String → Nat} {merge : Accumulator → Merging} {a : Accumulator}
    (h : Retraced allowed merge a) : Replayed allowed merge a := by
  obtain ⟨es, run, again⟩ := h
  refine ⟨es, run, fun b hb => ⟨(again b hb).1, fun o k => ?_⟩⟩
  have hseen : valuesOf es o k ≤ showingsOf es o k := List.countP_mono_left fun e _ he => by
    cases e <;> simp_all [Event.shows]
  have hentered : es.countP (Event.enters b o) ≤ es.countP (Event.observes b o) :=
    List.countP_mono_left fun e _ he => Event.observes_of_enters he
  have hcount := (again b hb).2 o k
  omega

/-- The merge of a document that shows each key once goes through the same events at every later state,
and they bring no more values for a field than they count objects with its owner. -/
theorem mergeDocument_replayed (e : Extracted) (he : e.root.Keyed) (a : Accumulator) :
    Replayed (fun _ _ => 0) (mergeDocument detect e) a :=
  (mergeDocument_retraced detect e he a).replayed

/-- So do the merges of documents one after the other, whether or not some of them stop. -/
theorem mergeAll_replayed (es : List Extracted) (hes : ∀ e ∈ es, e.root.Keyed) (a : Accumulator) :
    Replayed (fun _ _ => 0) (fun x => ⟨mergeAll detect es x, none⟩) a :=
  (mergeAll_retraced detect es hes a).replayed

end DocSchema.Schema
