import DocSchema.Proofs.Merge.Counters
import DocSchema.Proofs.Merge.Replay
import DocSchema.Sampling.Batch

/-!
# The counts of a state agree

Whatever documents were merged, with names refused or not, the counts of the state agree with each other:
a field is seen in no more objects than its type had, each value is an array or none, a type that was noted
for a field is registered, and every registered type had an object. Most of this is read off the record of
the events. That a field is seen no more often than objects of its type are entered holds of the events of a
whole merge, but not between the entry of an object and its last field: there it holds but for the fields
that are still to come, which is what `Retraced` carries through the recursion.

- `Valued`: what shows a kind of a field also shows a value of it.
- `ConsistentField`, `Consistent`: the counts of a field, and those of a state, agree.
- `consistent_of_regular`: the counts of a state agree if each object that was merged into it shows a key once.
- `merged_consistent`: so do those of a state that plain documents were merged into.
-/

namespace DocSchema.Schema

/-! ## Kinds and values -/

/-- Events that show a kind of a field come with one that shows a value of the field. -/
def Valued (es : List Event) : Prop :=
  ∀ o k kind, es.any (Event.showsKind o k kind) = true → 0 < valuesOf es o k

section Valued

variable {a b : Accumulator} {es fs : List Event} {e : Event}

theorem Valued.step (h : Valued es) (hrecords : Records a es) (he : e.Enabled a) : Valued (es ++ [e]) := by
  intro o k kind hkind
  rw [valuesOf, List.countP_append]
  rw [List.any_append, Bool.or_eq_true] at hkind
  rcases hkind with hpast | hnow
  · have hvalue := h o k kind hpast
    rw [valuesOf] at hvalue
    omega
  -- an object is met in a field only after a value of the field
  have hobject (hvalue : ∃ s, a.field? o k = some s ∧ 0 < s.nonNull) :
      0 < es.countP (Event.shows o k fun isNull _ => !isNull) := by
    obtain ⟨s, hs, hpos⟩ := hvalue
    rwa [← (hrecords.fields o k).nonNull, Records.stats_eq hs]
  cases e with
  | field owner key path isNull isArray kinds =>
    have hshows : owner = o ∧ key = k ∧ isNull = false := by
      simp [Event.showsKind] at hnow
      exact ⟨hnow.1.1, hnow.1.2, hnow.2.1⟩
    simp [Event.shows, hshows]
  | empty owner key =>
    obtain ⟨⟨rfl, rfl⟩, -⟩ : (owner = o ∧ key = k) ∧ kind = .untyped := by simpa [Event.showsKind] using hnow
    have hpos := hobject he
    omega
  | nested owner key =>
    obtain ⟨⟨rfl, rfl⟩, -⟩ : (owner = o ∧ key = k) ∧ kind = .nested := by simpa [Event.showsKind] using hnow
    have hpos := hobject he
    omega
  | _ => simp [Event.showsKind] at hnow

/-- A run keeps the record, and that kinds come with values. -/
theorem valued_of_run (h : Records a es) (hvalued : Valued es) (run : Run a fs b) : Valued (es ++ fs) := by
  have hboth : Records b (es ++ fs) ∧ Valued (es ++ fs) :=
    run.induct (P := fun a past => Records a past ∧ Valued past)
      (fun _ _ _ h he => ⟨h.1.step he, h.2.step h.1 he⟩) ⟨h, hvalued⟩
  exact hboth.2

end Valued

/-! ## Counts that agree -/

/-- The counts of a field, under a key, agree with each other and with those of the context that it is in. -/
structure ConsistentField (a : Accumulator) (c : TypeContext) (key : String) (s : FieldStats) : Prop where
  arrays : s.arrays + s.scalars = s.nonNull
  nonNull : s.nonNull ≤ s.present
  seen : 1 ≤ s.present
  present : s.present ≤ c.observations
  kinds : s.nonNull = 0 → s.kinds = .empty
  nested : s.kinds.contains .nested = true ↔ s.nestedType?.isSome = true
  nestedType : ∀ name, s.nestedType? = some name →
    name = Naming.nestedTypeName c.name key ∧ ∃ d, a.nested.get? name = some d

/-- The counts of a state agree. -/
structure Consistent (a : Accumulator) : Prop where
  field : ∀ owner c, a.context? owner = some c → ∀ key s, c.fields.get? key = some s → ConsistentField a c key s
  observations : ∀ owner c, a.context? owner = some c → c.observations ≤ a.observationsOf owner
  registered : ∀ name c, a.nested.get? name = some c → c.name = name ∧ 1 ≤ c.observations ∧ c.populated = true
  documents : a.root.observations = a.documentsMerged

section Field

variable {es : List Event} {name : String} {o : Owner} {k : String} {s : FieldStats}

/-- A value of a field is an array or none. -/
theorem RecordsField.arrays_add_scalars (h : RecordsField es name o k s) : s.arrays + s.scalars = s.nonNull := by
  rw [h.arrays, h.scalars, h.nonNull, ← countP_or_of_disjoint]
  · refine List.countP_congr fun e _ => ?_
    cases e <;> simp [Event.shows, ← and_or_left]
  · intro e _ harray
    cases e <;> simp_all [Event.shows]

theorem RecordsField.nonNull_le_present (h : RecordsField es name o k s) : s.nonNull ≤ s.present := by
  rw [h.nonNull, h.present]
  refine List.countP_mono_left fun e _ he => ?_
  cases e <;> simp_all [Event.shows]

/-- A field without a value has no kind. -/
theorem RecordsField.kinds_eq_empty (h : RecordsField es name o k s) (hvalued : Valued es) (hnone : s.nonNull = 0) :
    s.kinds = .empty := by
  refine KindSet.ext_contains fun kind => ?_
  rw [KindSet.contains_empty, h.kinds, Bool.eq_false_iff]
  intro hkind
  have hpos : 0 < valuesOf es o k := hvalued o k kind hkind
  rw [valuesOf, ← h.nonNull] at hpos
  omega

end Field

namespace Records

variable {a : Accumulator} {es : List Event} {o : Owner} {c : TypeContext}

/-- The objects that a context counts are those that were entered. -/
theorem observations_eq (h : Records a es) (hc : a.context? o = some c) :
    c.observations = es.countP (Event.enters a o) := by
  cases o with
  | root =>
    rw [← Option.some.inj hc]
    exact h.documents
  | nested n =>
    obtain ⟨-, -, hobs, -⟩ := h.context_of_get? hc
    rw [hobs]
    refine List.countP_congr fun e _ => ?_
    simp only [Event.enters, Accumulator.head?_of_context? hc]
    rfl

/-- A registered context has entered the object that asked for its name. -/
theorem observations_pos (h : Records a es) {n : String} (hc : a.nested.get? n = some c) : 1 ≤ c.observations := by
  obtain ⟨-, -, hobs, o, k, hin, hname, hpath, -⟩ := h.context_of_get? hc
  have hasks : (Event.nested o k).asksFor a n c.path = true := by simp [Event.asksFor, hname, hpath]
  rw [hobs]
  exact List.countP_pos_iff.2 ⟨_, hin, hasks⟩

theorem name_eq (h : Records a es) (hc : a.context? o = some c) : c.name = a.ownerName o := by
  cases o with
  | root => rw [← Option.some.inj hc, Accumulator.ownerName]
  | nested n => exact (h.context_named hc).1

/-- The counts of a field agree if no more is seen of it than objects are entered. -/
theorem consistentField (h : Records a es) (hvalued : Valued es)
    (hentered : ∀ o k, showingsOf es o k ≤ es.countP (Event.enters a o)) (hc : a.context? o = some c)
    {k : String} {s : FieldStats} (hs : c.fields.get? k = some s) : ConsistentField a c k s := by
  have hfield : a.field? o k = some s := by rw [Accumulator.field?, hc, Option.bind_some, hs]
  have hstats : a.stats o k = s := stats_eq hfield
  have hrecord := h.fields o k
  have hnested := h.contains_nested_iff o k
  have htype := h.nestedType?_eq o k
  rw [hstats] at hrecord hnested htype
  obtain ⟨path, isNull, isArray, kinds, hin⟩ := (h.seen o k).1 (by rw [hfield]; rfl)
  refine ⟨hrecord.arrays_add_scalars, hrecord.nonNull_le_present, ?_, ?_, hrecord.kinds_eq_empty hvalued, ?_, ?_⟩
  · rw [hrecord.present]
    exact List.countP_pos_iff.2 ⟨_, hin, by simp [Event.shows]⟩
  · rw [hrecord.present, h.observations_eq hc]
    exact hentered o k
  · rw [hnested, htype]
    by_cases hasked : Event.nested o k ∈ es <;> simp [hasked]
  · intro name hname
    by_cases hasked : Event.nested o k ∈ es
    · rw [htype, if_pos hasked, Option.some.injEq] at hname
      rw [← hname, h.name_eq hc]
      exact ⟨rfl, h.registered_of_nested hasked⟩
    · rw [htype, if_neg hasked] at hname
      cases hname

end Records

/-! ## Documents -/

theorem ObjectSample.Regular.keyed {o : ObjectSample} (h : o.Regular) : o.Keyed := by
  induction h with
  | mk distinct _ _ ih => exact .mk distinct ih

/-- Documents that are merged as a whole are all counted as merged. -/
theorem documents_mergeAll {detect : Bool} (es : List Extracted)
    (hwhole : ∀ e ∈ es, ∀ a, (mergeDocument detect e a).fault? = none) (a : Accumulator)
    (ha : a.root.observations = a.documentsMerged) :
    (mergeAll detect es a).root.observations = (mergeAll detect es a).documentsMerged := by
  induction es generalizing a with
  | nil => exact ha
  | cons e es ih =>
    have hmerged := @merged_mergeDocument detect e a
    rw [hwhole e List.mem_cons_self a] at hmerged
    refine ih (fun e he => hwhole e (List.mem_cons_of_mem _ he)) _ ?_
    rw [observations_mergeDocument, hmerged, ha]
    rfl

/-- The counts of a state agree after any regular documents. -/
theorem consistent_of_regular {detect : Bool} (collection top : String) (es : List Extracted)
    (hregular : ∀ e ∈ es, e.root.Regular) : Consistent (mergeAll detect es (.fresh collection top)) := by
  obtain ⟨events, run, again⟩ := mergeAll_retraced detect es
    (fun e he => ObjectSample.Regular.keyed (hregular e he)) (.fresh collection top)
  have hrecords := records_of_run (.fresh collection top) run
  have hvalued := valued_of_run (.fresh collection top) (fun _ _ _ h => by cases h) run
  have hentered := (again _ (.refl _)).2
  rw [List.nil_append] at hrecords hvalued
  refine ⟨fun owner c hc key s hs => hrecords.consistentField hvalued hentered hc hs, ?_, ?_, ?_⟩
  · intro owner c hc
    cases owner with
    | root =>
      rw [← Option.some.inj hc]
      exact Nat.le_refl _
    | nested name =>
      rw [Merged.observationsOf_nested hc]
      omega
  · intro name c hc
    have hnamed := hrecords.context_named hc
    exact ⟨hnamed.1, hrecords.observations_pos hc, hnamed.2⟩
  · exact documents_mergeAll es (fun e he => fault?_mergeDocument (hregular e he)) _ rfl

/-- **Counter invariant.** After plain documents that were read, in any order and with any keys, the counts of
the state agree, whether or not names were refused. -/
theorem merged_consistent (s : ExtractionSettings) (collection top : String) (raws : List Raw)
    (es : List Extracted) (hplain : ∀ r ∈ raws, r.isPlain = true ∧ r.hasDistinctKeys = true)
    (hread : raws.mapM (Sampling.readDocument s) = .ok es) :
    Consistent (mergeAll s.detects es (.fresh collection top)) := by
  refine consistent_of_regular collection top es fun e he => ?_
  obtain ⟨r, hr, h⟩ := exists_of_mapM_ok hread he
  obtain ⟨v, hv, h⟩ := exists_of_bind_ok h
  have hproper := Value.isProper_of_ofRaw r 0 v (hplain r hr).1 (hplain r hr).2 hv
  exact (Extraction.regular_of_extract h hproper).1

/-- Two fields ask for one name: one holds an array of objects, of which one is without fields, and the other
is refused. -/
theorem merged_consistent_refused :
    let raws : List Raw := [
      .map [(.text "a-b", .list [.map [(.text "x", .int 1)], .map [], .map [(.text "x", .null)]])],
      .map [(.text "a_b", .map [(.text "y", .int 1)]), (.text "a-b", .null)]]
    ∃ es, raws.mapM (Sampling.readDocument {}) = .ok es ∧
      (mergeAll true es (.fresh "c" "C")).collisions = [⟨"CAB", "a-b", "a_b"⟩] ∧
      Consistent (mergeAll true es (.fresh "c" "C")) := by
  intro raws
  refine ⟨_, rfl, ?_, merged_consistent {} "c" "C" raws _ ?_ rfl⟩
  · decide +kernel
  · decide

end DocSchema.Schema
