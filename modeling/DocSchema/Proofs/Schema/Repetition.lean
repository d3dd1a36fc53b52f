import DocSchema.Proofs.Merge.Agreement
import DocSchema.Proofs.Merge.Counters
import DocSchema.Proofs.Merge.Replay
import DocSchema.Proofs.Schema.Alike
import DocSchema.Proofs.Schema.Fields

/-!
# A document that is merged again

A document that has been merged before goes through the events it went through then, so it shows
nothing new: the sets that a state keeps stay as they are, and only counts grow. Whether a field is
nullable depends on two counts, the values of the field and the objects of its owner. If they agree,
every document before brought as many values as objects, and so does the one that comes again.

- `SameEvents`: states with the same events, each come as often as it may.
- `SameEvents.alike`: their definitions differ in the number of occurrences at most, if they agree on
  which fields are missed.
- `Repeated`: the events of a later state have been there before.
- `Unchanged`: what a document that comes again leaves as it is.
- `merge_again`: a document that has been merged leaves it so.
-/

namespace DocSchema

/-- A definition but for the number of occurrences. -/
def FieldDefinition.withoutOccurrences (d : FieldDefinition) : FieldDefinition :=
  { d with occurrences := 0 }

/-- A schema but for the numbers of occurrences. -/
def EntitySchema.withoutOccurrences (e : EntitySchema) : EntitySchema :=
  { e with fields := e.fields.map FieldDefinition.withoutOccurrences }

namespace Schema

variable (identifier? : Option String) {a b : Accumulator} {es fs : List Event} {o : Owner}
  {k : String}

/-- What a document that comes again leaves as it is: the paths, what was refused, the contexts and
their fields, and the schemas but for the numbers of occurrences and of documents. -/
structure Unchanged (a b : Accumulator) : Prop where
  paths : b.seenPaths = a.seenPaths
  collisions : b.collisions = a.collisions
  contexts : ∀ o, (b.context? o).isSome = (a.context? o).isSome
  fields : ∀ o k, (b.field? o k).isSome = (a.field? o k).isSome
  entity : (entity identifier? b).withoutOccurrences =
    (entity identifier? { a with documentsMerged := a.documentsMerged + 1 }).withoutOccurrences
  nested : (nestedEntities identifier? b).map EntitySchema.withoutOccurrences =
    (nestedEntities identifier? a).map EntitySchema.withoutOccurrences

/-! ## Events that come several times -/

/-- Two states are records of the same events, each come as often as it may. -/
structure SameEvents (a b : Accumulator) (es fs : List Event) : Prop where
  left : Records a es
  right : Records b fs
  name : a.root.name = b.root.name
  mem_iff : ∀ e, e ∈ fs ↔ e ∈ es

namespace SameEvents

theorem symm (h : SameEvents a b es fs) : SameEvents b a fs es :=
  ⟨h.right, h.left, h.name.symm, fun e => (h.mem_iff e).symm⟩

theorem any_eq (h : SameEvents a b es fs) (p : Event → Bool) : fs.any p = es.any p := by
  rw [Bool.eq_iff_iff, List.any_eq_true, List.any_eq_true]
  simp only [h.mem_iff]

theorem countP_pos_iff (h : SameEvents a b es fs) (p : Event → Bool) :
    0 < fs.countP p ↔ 0 < es.countP p := by
  simp only [List.countP_pos_iff, h.mem_iff]

theorem field?_isSome (h : SameEvents a b es fs) (o : Owner) (k : String) :
    (b.field? o k).isSome = (a.field? o k).isSome := by
  rw [Bool.eq_iff_iff, h.left.seen, h.right.seen]
  simp only [h.mem_iff]

theorem context?_isSome_of (h : SameEvents a b es fs) (ha : (a.context? o).isSome) :
    (b.context? o).isSome := by
  cases o with
  | root => rfl
  | nested n =>
    obtain ⟨c, hc⟩ := Option.isSome_iff_exists.1 ha
    obtain ⟨-, -, -, owner, key, hin, hn, -⟩ := h.left.context_of_get? hc
    obtain ⟨d, hd⟩ := h.right.registered_of_nested ((h.mem_iff _).2 hin)
    rw [hn, ownerName_agree h.name, Accumulator.context?, hd]
    rfl

theorem context?_isSome (h : SameEvents a b es fs) (o : Owner) :
    (b.context? o).isSome = (a.context? o).isSome := by
  rw [Bool.eq_iff_iff]
  exact ⟨h.symm.context?_isSome_of, h.context?_isSome_of⟩

/-- What is known of a field differs in its path and in its counts only. -/
theorem field?_eq (h : SameEvents a b es fs) {s t : FieldStats} (hs : a.field? o k = some s)
    (ht : b.field? o k = some t) : t.kinds = s.kinds ∧ t.isArray = s.isArray ∧
      t.hasArrayConflict = s.hasArrayConflict := by
  have ha := h.left.fields o k
  have hb := h.right.fields o k
  rw [Records.stats_eq hs] at ha
  rw [Records.stats_eq ht] at hb
  have harrays : 0 < t.arrays ↔ 0 < s.arrays := by rw [ha.arrays, hb.arrays, h.countP_pos_iff]
  have hscalars : 0 < t.scalars ↔ 0 < s.scalars := by rw [ha.scalars, hb.scalars, h.countP_pos_iff]
  refine ⟨KindSet.ext_contains fun kind => ?_, ?_, ?_⟩
  · rw [ha.kinds, hb.kinds, h.any_eq]
  · simp only [FieldStats.isArray, harrays]
  · simp only [FieldStats.hasArrayConflict, harrays, hscalars]

theorem typeOf_eq (h : SameEvents a b es fs) {s t : FieldStats} (hs : a.field? o k = some s)
    (ht : b.field? o k = some t) : typeOf b t = typeOf a s := by
  obtain ⟨hkinds, -⟩ := h.field?_eq hs ht
  rw [typeOf_of_records h.left hs, typeOf_of_records h.right ht, FieldStats.resolvedType?,
    FieldStats.resolvedType?, hkinds, ownerName_agree h.name]
  simp only [h.mem_iff]

/-- States with the same events are alike, but for the numbers of occurrences, if their types have the
same paths and parents and each field is missed in both or in none. -/
theorem alike (h : SameEvents a b es fs) (hcollection : b.collection = a.collection)
    (hcontexts : ∀ n c d, a.nested.get? n = some c → b.nested.get? n = some d →
      d.path = c.path ∧ d.parent? = c.parent?)
    (hmissed : ∀ o k s t, a.field? o k = some s → b.field? o k = some t →
      (t.nonNull < b.observationsOf o ↔ s.nonNull < a.observationsOf o)) :
    Alike FieldDefinition.withoutOccurrences a b where
  name := h.name.symm
  collection := hcollection
  named n c hc := (h.left.context_named hc).1
  known := h.field?_isSome
  contexts n := by
    have hsome := h.context?_isSome (.nested n)
    simp only [Accumulator.context?] at hsome
    cases hc : a.nested.get? n with
    | none =>
      rw [hc, Option.isSome_none, Option.isSome_eq_false_iff, Option.isNone_iff_eq_none] at hsome
      rw [hsome]
    | some c =>
      rw [hc] at hsome
      obtain ⟨d, hd⟩ := Option.isSome_iff_exists.1 hsome
      obtain ⟨hpath, hparent⟩ := hcontexts n c d hc hd
      rw [hd, Option.map_some, Option.map_some, TypeContext.label, TypeContext.label,
        (h.left.context_named hc).1, (h.left.context_named hc).2, (h.right.context_named hd).1,
        (h.right.context_named hd).2, hpath, hparent]
  definitions o k s t hs ht := by
    obtain ⟨-, harray, hconflict⟩ := h.field?_eq hs ht
    simp only [fieldDefinition, FieldDefinition.withoutOccurrences, h.typeOf_eq hs ht, harray, hconflict,
      hmissed o k s t hs ht]

end SameEvents

/-! ## Events that have been there before -/

/-- A state is a record of events, and some of them come again and lead to another state. -/
structure Repeated (a : Accumulator) (es fs : List Event) (b : Accumulator) : Prop where
  before : Records a es
  run : Run a fs b
  subset : ∀ e ∈ fs, e ∈ es

theorem Repeated.sameEvents (h : Repeated a es fs b) : SameEvents a b es (es ++ fs) where
  left := h.before
  right := records_of_run h.before h.run
  name := h.run.rootName.symm
  mem_iff e := by rw [List.mem_append, or_iff_left_of_imp (h.subset e)]

/-- Events bring as many values for every field as they count objects of its owner whenever those before
did, and never more. -/
structure Balanced (b : Accumulator) (es fs : List Event) : Prop where
  values : ∀ o k, valuesOf fs o k ≤ fs.countP (Event.observes b o)
  tight : ∀ o k, es.countP (Event.observes b o) ≤ valuesOf es o k →
    fs.countP (Event.observes b o) ≤ valuesOf fs o k

/-- Events that are part of others are balanced with them if all parts bring no more values than
objects. -/
theorem Balanced.of_parts {xs ys : List Event}
    (hxs : ∀ o k, valuesOf xs o k ≤ xs.countP (Event.observes b o))
    (hfs : ∀ o k, valuesOf fs o k ≤ fs.countP (Event.observes b o))
    (hys : ∀ o k, valuesOf ys o k ≤ ys.countP (Event.observes b o)) :
    Balanced b (xs ++ (fs ++ ys)) fs where
  values := hfs
  tight o k hle := by
    have hx := hxs o k
    have hf := hfs o k
    have hy := hys o k
    simp only [valuesOf, List.countP_append] at hx hf hy hle ⊢
    omega

section Missed

variable (h : Repeated a es fs b) (hb : Balanced b es fs)

include h hb

/-- Whether a field has fewer values than its owner has objects stays as it was. -/
theorem nonNull_lt_iff {s t : FieldStats} (hs : a.field? o k = some s) (ht : b.field? o k = some t) :
    t.nonNull < b.observationsOf o ↔ s.nonNull < a.observationsOf o := by
  have hl : Later a b := ⟨fs, h.run⟩
  have ho : (a.context? o).isSome := Accumulator.field?_isSome_of_owner (by rw [hs]; rfl)
  have hvalues := hb.values o k
  have htight := hb.tight o k
  have hnonNull := h.before.nonNull_later h.run o k
  have hobserved := h.before.observationsOf_later h.run ho
  rw [Records.stats_eq hs, Records.stats_eq ht] at hnonNull
  -- the objects before, counted at the later state
  have hcount : es.countP (Event.observes b o) = a.observationsOf o := by
    rw [h.before.observationsOf_eq ho]
    exact List.countP_congr fun e he => by rw [h.before.observes_later hl ho he]
  have hpast : valuesOf es o k = s.nonNull := by
    have hrecorded := (h.before.fields o k).nonNull
    rw [Records.stats_eq hs] at hrecorded
    rw [hrecorded, valuesOf]
  rw [hcount, hpast] at htight
  omega

/-- Events that come again change no more than numbers of occurrences. -/
theorem Repeated.alike : Alike FieldDefinition.withoutOccurrences a b := by
  refine h.sameEvents.alike h.run.collection (fun n c d hc hd => ?_) fun o k s t => nonNull_lt_iff h hb
  obtain ⟨d', hd', -, hpath, hparent⟩ := Later.context?_mono (o := .nested n) ⟨fs, h.run⟩ hc
  obtain rfl : d = d' := Option.some.inj (hd.symm.trans hd')
  exact ⟨hpath, hparent⟩

end Missed

/-! ## Merging a document again -/

/-- A merge that does not stop counts its document. -/
theorem documentsMerged_mergeDocument {detect : Bool} {e : Extracted}
    (h : (mergeDocument detect e a).fault? = none) :
    (mergeDocument detect e a).state.documentsMerged = a.documentsMerged + 1 := by
  rw [merged_mergeDocument, h]
  rfl

/-- **Repeated draws.** A document that was merged as a whole, some documents before and others after it,
none of them with a key twice in an object, is merged as a whole again, whatever names were refused in
between. It brings no path, context, field or collision, and every definition of every schema is as
before but for its number of occurrences. -/
theorem merge_again (s : ExtractionSettings) (detect : Bool) (identifier? : Option String)
    (collection top : String) (before after : List Extracted) (e : Extracted)
    (hread : ∀ x ∈ before ++ e :: after, ∃ document : Value,
      document.hasDistinctKeys = true ∧ Extraction.extract s document = .ok x)
    (hmerged : (mergeDocument detect e (mergeAll detect before (.fresh collection top))).fault? = none) :
    let a := mergeAll detect (before ++ e :: after) (.fresh collection top)
    (mergeDocument detect e a).fault? = none ∧ Unchanged identifier? a (mergeDocument detect e a).state := by
  intro a
  have hkeyed : ∀ x ∈ before ++ e :: after, x.root.Keyed := by
    intro x hx
    obtain ⟨document, hkeys, hextract⟩ := hread x hx
    exact Extraction.keyed_of_extract hextract hkeys
  obtain ⟨xs, runBefore, hxs⟩ := mergeAll_replayed detect before
    (fun x hx => hkeyed x (List.mem_append_left _ hx)) (.fresh collection top)
  obtain ⟨fs, run, again⟩ := mergeDocument_replayed detect e
    (hkeyed e (List.mem_append_right _ List.mem_cons_self)) (mergeAll detect before (.fresh collection top))
  obtain ⟨ys, runAfter, hys⟩ := mergeAll_replayed detect after
    (fun x hx => hkeyed x (List.mem_append_right _ (List.mem_cons_of_mem _ hx)))
    (mergeDocument detect e (mergeAll detect before (.fresh collection top))).state
  have ha : mergeAll detect after
      (mergeDocument detect e (mergeAll detect before (.fresh collection top))).state = a := by
    simp only [a, mergeAll, List.foldl_append, List.foldl_cons]
  simp only [ha] at runAfter hys
  obtain ⟨⟨run', hfault⟩, -⟩ := again a ⟨ys, runAfter⟩
  have hafter : Later a (mergeDocument detect e a).state := ⟨fs, run'⟩
  have hmid : Later (mergeDocument detect e (mergeAll detect before (.fresh collection top))).state
      (mergeDocument detect e a).state := .trans ⟨ys, runAfter⟩ hafter
  have hrecords := records_of_run (.fresh collection top) (runBefore.append (run.append runAfter))
  rw [List.nil_append] at hrecords
  have hrepeated : Repeated a (xs ++ (fs ++ ys)) fs (mergeDocument detect e a).state :=
    ⟨hrecords, run', fun f hf => List.mem_append_right _ (List.mem_append_left _ hf)⟩
  have hbalanced : Balanced (mergeDocument detect e a).state (xs ++ (fs ++ ys)) fs :=
    .of_parts (hxs _ (.trans ⟨fs, run⟩ hmid)).2 (again _ hmid).2 (hys _ hafter).2
  have hmerged' := hfault.trans hmerged
  obtain ⟨hcollisions, hpaths⟩ := run.settled ⟨ys, runAfter⟩ run'
  have hsame := hrepeated.sameEvents
  have halike := hrepeated.alike hbalanced
  refine ⟨hmerged', hpaths, hcollisions, hsame.context?_isSome, hsame.field?_isSome, ?_, ?_⟩
  · rw [← documentsMerged_mergeDocument hmerged']
    exact halike.entity_eq identifier?
  · exact halike.nestedEntities_eq identifier?

/-- A document with a field that is refused the name of its type, merged before a document without the
field and again after it. -/
theorem merge_again_refused :
    let document : Value := .map [("a-b", .map [("c", .int 1)]), ("a_b", .map [("c", .null)])]
    let other : Value := .map [("a-b", .map []), ("d", .sequence [.int 1])]
    ∃ e e', Extraction.extract {} document = .ok e ∧ Extraction.extract {} other = .ok e' ∧
      let a := mergeAll true [e', e, e'] (.fresh "c" "C")
      a.collisions = [⟨"CAB", "a-b", "a_b"⟩] ∧ (mergeDocument true e a).fault? = none ∧
        Unchanged none a (mergeDocument true e a).state := by
  intro document other
  refine ⟨_, _, rfl, rfl, ?_, merge_again {} true none "c" "C" [_] [_] _ ?_ ?_⟩
  · decide +kernel
  · intro x hx
    simp only [List.cons_append, List.nil_append, List.mem_cons, List.not_mem_nil, or_false] at hx
    rcases hx with rfl | rfl | rfl
    · exact ⟨other, by decide, rfl⟩
    · exact ⟨document, by decide, rfl⟩
    · exact ⟨other, by decide, rfl⟩
  · have hextract : Extraction.extract {} document = .ok _ := rfl
    exact fault?_mergeDocument (Extraction.regular_of_extract hextract (by decide)).1 _

end Schema

end DocSchema
