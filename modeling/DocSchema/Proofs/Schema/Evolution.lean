import DocSchema.Proofs.Merge.Replay
import DocSchema.Proofs.Schema.Fields

/-!
# How a state evolves

Whatever a document shows, merging it takes nothing back: contexts and fields stay, types widen, and a
field that is an array or nullable in a schema remains so. That a nullable field remains so needs that
the values of a field grow no faster than the objects of its owner, which `Replayed` says of the events
of a document.

- `KindSet.isWidening_resolve`: more kinds widen to a type that is no narrower.
- `FieldStats.Grows`, `Evolves`: what a later state and its schemas keep.
- `merge_evolves`: merging a document keeps all of it.
-/

namespace DocSchema

/-! ## Types of growing sets -/

theorem SemanticType.isWidening_trans {a b c : Option SemanticType} (hab : isWidening a b = true)
    (hbc : isWidening b c = true) : isWidening a c = true := by
  cases a with
  | none => rfl
  | some a =>
    cases b with
    | none => cases hab
    | some b =>
      cases c with
      | none => cases hbc
      | some c => exact widensTo_trans hab hbc

namespace KindSet

/-- One more kind widens the type. -/
theorem isWidening_insert (s : KindSet) (k : SemanticType) :
    SemanticType.isWidening s.resolve (s.insert k).resolve = true := by
  obtain ⟨a, b, c, d, e, f, g⟩ := s
  revert a b c d e f g
  cases k <;> decide

theorem isWidening_foldl_insert (ts : List SemanticType) (s : KindSet) :
    SemanticType.isWidening s.resolve (ts.foldl insert s).resolve = true := by
  induction ts generalizing s with
  | nil =>
    cases h : s.resolve with
    | none => rfl
    | some k => rw [List.foldl_nil, h]; exact SemanticType.widensTo_refl k
  | cons t ts ih => exact SemanticType.isWidening_trans (isWidening_insert s t) (ih _)

/-- The type of a set is no narrower than that of a part of the set. -/
theorem isWidening_resolve {s t : KindSet} (h : ∀ k, s.contains k = true → t.contains k = true) :
    SemanticType.isWidening s.resolve t.resolve = true := by
  have ht : (t.toList).foldl insert s = t := ext_contains fun k => by
    have hall : k ∈ SemanticType.all := by cases k <;> decide
    have hlist : k ∈ t.toList ↔ t.contains k = true := by rw [toList, List.mem_filter, and_iff_right hall]
    rw [Bool.eq_iff_iff, contains_foldl_insert, hlist]
    exact ⟨fun hk => hk.elim (h k) id, .inr⟩
  rw [← ht]
  exact isWidening_foldl_insert _ s

end KindSet

/-- What is known of a field has grown. -/
structure FieldStats.Grows (s t : FieldStats) : Prop where
  path : t.path = s.path
  kinds : ∀ k, s.kinds.contains k = true → t.kinds.contains k = true
  type : SemanticType.isWidening s.resolvedType? t.resolvedType? = true
  isArray : s.isArray = true → t.isArray = true
  conflict : s.hasArrayConflict = true → t.hasArrayConflict = true
  nestedType : ∀ n, s.nestedType? = some n → t.nestedType? = some n

/-- A definition keeps what one of the same field said before. -/
structure FieldDefinition.Keeps (d d' : FieldDefinition) : Prop where
  name : d'.name = d.name
  isArray : d.isArray = true → d'.isArray = true
  isNullable : d.isNullable = true → d'.isNullable = true
  nestedType : ∀ n, d.nestedType? = some n → d'.nestedType? = some n

namespace Schema

/-- A state, with the schemas that are built from it, keeps what an earlier one knew. -/
structure Evolves (identifier? : Option String) (a b : Accumulator) : Prop where
  contexts : ∀ o c, a.context? o = some c →
    ∃ d, b.context? o = some d ∧ d.name = c.name ∧ d.path = c.path ∧ d.parent? = c.parent?
  fields : ∀ o k s, a.field? o k = some s → ∃ t, b.field? o k = some t ∧ s.Grows t
  schemas : ∀ e ∈ schemas identifier? a, ∃ e' ∈ schemas identifier? b,
    e'.name = e.name ∧ e'.sourcePath? = e.sourcePath? ∧ ∀ d ∈ e.fields, ∃ d' ∈ e'.fields, d.Keeps d'
  seenPaths : a.seenPaths ⊆ b.seenPaths
  collisions : a.collisions <+: b.collisions

variable {identifier? : Option String} {a b : Accumulator} {es fs : List Event} {o : Owner}
  {k : String}

namespace Records

/-- What is known of a field grows along a run. -/
theorem grows_of_run (h : Records a es) (run : Run a fs b) {s : FieldStats}
    (hs : a.field? o k = some s) : ∃ t, b.field? o k = some t ∧ s.Grows t := by
  obtain ⟨t, ht, hpath, -⟩ := run.field?_mono hs
  have ha := h.fields o k
  have hb := (records_of_run h run).fields o k
  rw [stats_eq hs] at ha
  rw [stats_eq ht, Later.ownerName ⟨fs, run⟩] at hb
  have hkinds : ∀ kind, s.kinds.contains kind = true → t.kinds.contains kind = true := by
    intro kind hkind
    rw [hb.kinds, List.any_append, ← ha.kinds, hkind, Bool.true_or]
  have harrays : s.arrays ≤ t.arrays := by
    rw [ha.arrays, hb.arrays, List.countP_append]
    exact Nat.le_add_right _ _
  have hscalars : s.scalars ≤ t.scalars := by
    rw [ha.scalars, hb.scalars, List.countP_append]
    exact Nat.le_add_right _ _
  refine ⟨t, ht, hpath, hkinds, KindSet.isWidening_resolve hkinds, fun hr => ?_, fun hc => ?_, fun n hn => ?_⟩
  · simp only [FieldStats.isArray, decide_eq_true_eq] at hr ⊢
    exact Nat.lt_of_lt_of_le hr harrays
  · simp only [FieldStats.hasArrayConflict, Bool.and_eq_true, decide_eq_true_eq] at hc ⊢
    exact ⟨Nat.lt_of_lt_of_le hc.1 harrays, Nat.lt_of_lt_of_le hc.2 hscalars⟩
  · rw [ha.nestedType] at hn
    rw [hb.nestedType]
    split at hn
    · rename_i hin
      rw [if_pos (List.mem_append_left fs hin), hn]
    · cases hn

/-- A nullable field stays nullable, since the values of the field grow no faster than the objects of
its owner. -/
theorem keeps_of_run (h : Records a es) (run : Run a fs b)
    (hvalues : valuesOf fs o k ≤ fs.countP (Event.observes b o)) {s t : FieldStats}
    (hs : a.field? o k = some s) (ht : b.field? o k = some t) :
    (fieldDefinition a (a.observationsOf o) k s).Keeps (fieldDefinition b (b.observationsOf o) k t) := by
  obtain ⟨t', ht', hgrows⟩ := h.grows_of_run run hs
  obtain rfl : t = t' := Option.some.inj (ht.symm.trans ht')
  refine ⟨rfl, hgrows.isArray, fun hn => ?_, fun n hn => ?_⟩
  · have hnonNull := h.nonNull_later run o k
    have hobserved := h.observationsOf_later run (Accumulator.field?_isSome_of_owner (by rw [hs]; rfl))
    rw [stats_eq hs, stats_eq ht] at hnonNull
    simp only [fieldDefinition, Bool.or_eq_true, decide_eq_true_eq] at hn ⊢
    refine hn.imp (fun hlt => ?_) hgrows.conflict
    omega
  · simp only [fieldDefinition, typeOf_of_records h hs] at hn
    simp only [fieldDefinition, typeOf_of_records (records_of_run h run) ht, Later.ownerName ⟨fs, run⟩]
    split at hn
    · rename_i hin
      rw [if_pos (List.mem_append_left fs hin), hn]
    · cases hn

/-- A run keeps what was known, if its events bring no more values for a field than objects of its
owner. -/
theorem evolves (h : Records a es) (run : Run a fs b)
    (hvalues : ∀ o k, valuesOf fs o k ≤ fs.countP (Event.observes b o)) : Evolves identifier? a b where
  contexts o c hc := Later.context?_mono ⟨fs, run⟩ hc
  fields o k s hs := h.grows_of_run run hs
  schemas e he := by
    obtain ⟨o, c, hc, rfl⟩ := (mem_schemas_iff h).1 he
    have hb := records_of_run h run
    obtain ⟨d, hd, -, hpath, -⟩ := Later.context?_mono ⟨fs, run⟩ hc
    refine ⟨_, (mem_schemas_iff hb).2 ⟨o, d, hd, rfl⟩, ?_, ?_, fun x hx => ?_⟩
    · rw [schemaOf_name h hc, schemaOf_name hb hd, Later.ownerName ⟨fs, run⟩]
    · cases o with
      | root => rfl
      | nested n => exact congrArg some hpath
    · rw [schemaOf_fields h hc] at hx
      obtain ⟨k, s, hs, rfl⟩ := (mem_fieldDefinitions_iff hc).1 hx
      obtain ⟨t, ht, -⟩ := run.field?_mono hs
      rw [schemaOf_fields hb hd]
      exact ⟨_, (mem_fieldDefinitions_iff hd).2 ⟨k, t, ht, rfl⟩, h.keeps_of_run run (hvalues o k) hs ht⟩
  seenPaths := Later.seenPaths_subset ⟨fs, run⟩
  collisions := run.collisions_prefix

end Records

/-- **Monotone evolution.** Whatever documents have been merged, merging one more, which has no object
with a key twice, keeps all that was known, whether or not the merge stops at a leaf: contexts and
fields stay, with the names, paths and parents they had; the kinds of a field grow and its type widens;
an array, a conflict and a nullable field stay such; the name of a nested type, once set, does not
change; no seen path is lost; and what was refused is only added to. -/
theorem merge_evolves (s : ExtractionSettings) (detect : Bool) (identifier? : Option String)
    (collection top : String) (es : List Extracted) (document : Value) (e : Extracted)
    (hkeys : document.hasDistinctKeys = true) (hextract : Extraction.extract s document = .ok e) :
    Evolves identifier? (mergeAll detect es (.fresh collection top))
      (mergeDocument detect e (mergeAll detect es (.fresh collection top))).state := by
  obtain ⟨events, run, -⟩ := @mergeAll_traced detect top es (.fresh collection top) rfl
  obtain ⟨fs, run', again⟩ := mergeDocument_replayed detect e
    (Extraction.keyed_of_extract hextract hkeys) (mergeAll detect es (.fresh collection top))
  exact (records_of_run (.fresh collection top) run).evolves run' (again _ (.refl _)).2

/-- A field that was seen late, and so is nullable, becomes an array, and another one shows an array
after a number. -/
theorem merge_evolves_arrays :
    let documents : List Value := [.map [("a", .map [])],
      .map [("a", .map [("b", .int 1)]), ("c", .int 1)]]
    let document : Value := .map [("c", .sequence [.string "x"]), ("a", .map [("b", .sequence [.bool true])])]
    ∃ es e, documents.mapM (Extraction.extract {}) = .ok es ∧ Extraction.extract {} document = .ok e ∧
      Evolves none (mergeAll true es (.fresh "c" "C"))
        (mergeDocument true e (mergeAll true es (.fresh "c" "C"))).state := by
  intro documents document
  exact ⟨_, _, rfl, rfl, merge_evolves {} true none "c" "C" _ document _ (by decide) rfl⟩

end Schema

end DocSchema
