import DocSchema.Proofs.Config.Reading
import DocSchema.Proofs.Introspection.Batch
import DocSchema.Proofs.Raw.Keys
import DocSchema.Proofs.Sampling.Memory
import DocSchema.Proofs.Value.Proper

/-!
# What sinks an introspection of all collections

A configuration is accepted with collections that cannot be introspected without an error that is none of
the introspection: the name of a collection, the name of its type and the field of the identifier may be
values of any kind. Over a source in memory, `Session.fits` tells of a collection whether its run keeps to
errors of its own. If all collections fit, each of them is reported or noted as a failure; one that does
not fit takes the others with it.

- `Config.apart_of_ofRaw`: no two collections of a configuration have the same name.
- `Introspection.report_isOk`: when a completed run is reported.
- `Session.isOwn_of_fits`, `Session.fits_of_run`: what a run over a collection that fits may fail with.
- `introspectAll_contained`: the introspection of all collections.
-/

namespace DocSchema

/-! ## Names of collections -/

namespace Config

/-- Of keys none of which occurs more than once, no two are the same. -/
theorem apart_of_repeatedNames {names : List Raw} (hkeys : ∀ name ∈ names, name.isKey = true)
    (hcount : ∀ name ∈ names, (names.filter (Raw.same name)).length ≤ 1) :
    names.Pairwise Raw.Apart := by
  induction names with
  | nil => exact .nil
  | cons name names ih =>
    rw [List.forall_mem_cons] at hkeys
    have htail : ∀ other ∈ names, (names.filter (Raw.same other)).length ≤ 1 := fun other hother =>
      Nat.le_trans ((List.sublist_cons_self name names).filter (Raw.same other)).length_le
        (hcount other (List.mem_cons_of_mem name hother))
    refine .cons (fun other hother => ?_) (ih hkeys.2 htail)
    have hne : ¬name.same other = true := by
      intro hsame
      -- then the name is the same as itself, and occurs twice
      have hself : name.same name = true :=
        Raw.same_trans hkeys.1 hsame (Raw.same_symm (.inl hkeys.1) hsame)
      have htwice := hcount name List.mem_cons_self
      rw [List.filter_cons_of_pos hself, List.length_cons] at htwice
      have hnone := List.length_eq_zero_iff.1 (Nat.le_zero.1 (Nat.le_of_succ_le_succ htwice))
      exact List.filter_eq_nil_iff.1 hnone other hother hsame
    exact ⟨Bool.not_eq_true _ ▸ hne, Bool.not_eq_true _ ▸ fun hsame =>
      hne (Raw.same_symm (.inr hkeys.1) hsame)⟩

theorem repeatedNames_eq_nil_of_checkNames [Stack] {names : List Raw} (h : checkNames names = .ok ()) :
    repeatedNames names = [] := by
  rw [checkNames] at h
  split at h
  · cases h
  · dsimp only at h
    split at h
    · rename_i hempty
      exact List.isEmpty_iff.1 hempty
    · split at h <;> cases h

/-- No two collections of a configuration have the same name, when their names can be keys. -/
theorem apart_of_ofRaw {data : Raw} {c : Config} (h : ofRaw data = .ok c)
    (hkeys : ∀ entry ∈ c.collections, entry.name.isKey = true) :
    c.collections.Pairwise fun a b => a.name.Apart b.name := by
  have hrepeated := repeatedNames_eq_nil_of_checkNames (read_of_ofRaw h).names
  rw [repeatedNames, List.filter_eq_nil_iff] at hrepeated
  rw [← List.pairwise_map (f := CollectionSettings.name) (R := Raw.Apart)]
  refine apart_of_repeatedNames ?_ fun name hname => ?_
  · intro name hname
    obtain ⟨entry, hentry, rfl⟩ := List.mem_map.1 hname
    exact hkeys entry hentry
  · have hle := hrepeated name hname
    rw [isRepeated, decide_eq_true_eq] at hle
    exact Nat.not_lt.1 hle

end Config

/-! ## What a completed run is reported as -/

namespace Introspection

/-- Whether a completed run is reported, over a collection that may have no documents: the parts of its
report that must be text are text, and the field of the identifier can be looked up otherwise. -/
def isReportable (extraction : ExtractionSettings) (t : Target) (empty : Bool) : Bool :=
  (if empty then (textPart "name" extraction.identifierField).isOk else extraction.identifierField.isKey) &&
    (!t.typeName.isTrue || (textPart "name" t.typeName).isOk) && (textPart "collection" t.collection).isOk

variable {extraction : ExtractionSettings} {t : Target} {typeName : String} {times : RunTimes}
  {c : Sampling.Completed}

theorem isOwn_textPart {part : String} {r : Raw} {e : IntrospectionError} (h : textPart part r = .error e) :
    e.isOwn = false := by
  rw [textPart.eq_def] at h
  dsimp only at h
  split at h
  · cases h
  · cases h
  · cases h
    rfl
  · split at h
    · cases h
    · cases h
      rfl
  · cases h
    rfl

theorem isOwn_typeNameOf {e : IntrospectionError} (h : typeNameOf t = .error e) : e.isOwn = false := by
  rw [typeNameOf] at h
  split at h
  · cases h
  · split at h <;> cases h <;> rfl

theorem isOwn_entityName {e : IntrospectionError} (h : entityName t typeName = .error e) :
    e.isOwn = false := by
  rw [entityName] at h
  split at h
  · exact isOwn_textPart h
  · cases h

theorem isOwn_schemas {e : IntrospectionError} (h : schemas extraction t typeName c = .error e) :
    e.isOwn = false := by
  rw [schemas] at h
  split at h
  · cases hidentifier : textPart "name" extraction.identifierField with
    | error fault =>
      rw [hidentifier] at h
      cases h
      exact isOwn_textPart hidentifier
    | ok identifier =>
      rw [hidentifier] at h
      cases hname : entityName t typeName with
      | error fault =>
        rw [hname] at h
        cases h
        exact isOwn_entityName hname
      | ok name =>
        rw [hname] at h
        cases h
  · split at h
    · cases hname : entityName t typeName with
      | error fault =>
        rw [hname] at h
        cases h
        exact isOwn_entityName hname
      | ok name =>
        rw [hname] at h
        cases h
    · cases h
      rfl

theorem isOwn_report {e : IntrospectionError} (h : (report extraction t typeName times c).1 = .error e) :
    e.isOwn = false := by
  rw [report] at h
  split at h
  · rename_i hschemas
    cases h
    exact isOwn_schemas hschemas
  · cases hcollection : textPart "collection" t.collection with
    | error fault =>
      rw [hcollection] at h
      cases h
      exact isOwn_textPart hcollection
    | ok collection =>
      rw [hcollection] at h
      cases h

theorem isOk_entityName : (entityName t typeName).isOk =
    (!t.typeName.isTrue || (textPart "name" t.typeName).isOk) := by
  rw [entityName]
  cases t.typeName.isTrue with
  | true => rfl
  | false => rfl

/-- When a completed run is reported. -/
theorem report_isOk : (report extraction t typeName times c).1.isOk =
    isReportable extraction t (c.metrics.stopReason? == some .emptyCollection) := by
  have hreport : (report extraction t typeName times c).1.isOk =
      ((schemas extraction t typeName c).isOk && (textPart "collection" t.collection).isOk) := by
    rw [report]
    cases schemas extraction t typeName c with
    | error e => rfl
    | ok found =>
      cases textPart "collection" t.collection with
      | error e => rfl
      | ok collection => rfl
  rw [hreport, isReportable, ← @isOk_entityName t typeName, schemas]
  by_cases hempty : c.metrics.stopReason? = some .emptyCollection
  · rw [if_pos hempty, beq_iff_eq.2 hempty]
    cases textPart "name" extraction.identifierField with
    | error e => rfl
    | ok identifier =>
      cases entityName t typeName with
      | error e => rfl
      | ok name => rfl
  · rw [if_neg hempty, beq_eq_false_iff_ne.2 hempty]
    cases extraction.identifierField.isKey with
    | false => rfl
    | true =>
      cases entityName t typeName with
      | error e => rfl
      | ok name => rfl

end Introspection

/-! ## Runs over the collections of a configuration -/

namespace Session

/-- What a run over a collection introspects. -/
def target (entry : CollectionSettings) : Target where
  collection := entry.name
  typeName := entry.typeName

/-- Whether a collection fits a source in memory: results can be kept under its name, and messages can tell it, a
name for its type is found, its deadline can be computed, and what its run comes to is reported if the source has
it. -/
def fits (s : Session) (m : MemorySource) (entry : CollectionSettings) : Bool :=
  entry.name.isKey && entry.name.showFault?.isNone && (Introspection.typeNameOf (target entry)).isOk &&
    (s.config.samplingOf entry).isTimely &&
    match m.documents entry.name with
    | .ok documents =>
      Introspection.isReportable (s.config.extractionOf entry) (target entry) documents.isEmpty
    | .error _ => true

/-- Whether the walks over the documents of a collection go into every object that they come to, or refuse it. It is
so of all documents but such as hold nodes that were built beforehand. -/
def Follows (s : Session) (m : MemorySource) (entry : CollectionSettings) : Prop :=
  ∀ documents, m.documents entry.name = .ok documents → ∀ r ∈ documents, ∀ d, Value.ofRaw 0 r = .ok d →
    Extraction.Followed (s.config.extractionOf entry) d

instance (s : Session) (m : MemorySource) (entry : CollectionSettings) : Decidable (s.Follows m entry) :=
  inferInstanceAs (Decidable (∀ documents, m.documents entry.name = .ok documents → _))

/-- The plan of the run over a collection, by its number. -/
def plan (s : Session) (number : Nat) (entry : CollectionSettings) : Sampling.Plan Source where
  store := Source.store entry.name
  sampling := s.config.samplingOf entry
  extraction := s.config.extractionOf entry
  clock := s.clock number

variable {s : Session} {m m' : MemorySource} {entry : CollectionSettings} {number : Nat}

theorem run_eq_introspect (s : Session) (number : Nat) (entry : CollectionSettings) (source : Source) :
    s.run number entry source = Introspection.introspect (s.plan number entry) s.schedule (target entry)
      s.cancelled (s.times number) source := rfl

theorem result_run_of_error {fault : IntrospectionError} (source : Source)
    (htype : Introspection.typeNameOf (target entry) = .error fault) :
    (s.run number entry source).result = .error fault := by
  rw [run_eq_introspect, Introspection.introspect, htype]

/-- A run over a collection whose name cannot be told fails with an error that is not its own. -/
theorem exists_error_of_shown {typeName : String}
    (htype : Introspection.typeNameOf (target entry) = .ok typeName) {fault : Raw.ShowFault}
    (hname : entry.name.showFault? = some fault) (source : Source) :
    ∃ e, (s.run number entry source).result = .error e ∧ e.isOwn = false := by
  have hname' : (target entry).collection.showFault? = some fault := hname
  rw [run_eq_introspect, Introspection.introspect, htype]
  dsimp only
  rw [hname']
  dsimp only [Introspection.untoldRun]
  cases hdeadline : Sampling.deadlineOf (s.plan number entry) with
  | error e =>
    obtain ⟨rfl, -⟩ := Sampling.deadlineOf_eq_error_iff.1 hdeadline
    exact ⟨_, rfl, rfl⟩
  | ok deadline? =>
    refine ⟨_, rfl, ?_⟩
    rw [Introspection.untoldError.eq_def]
    split
    · rfl
    · split
      · rfl
      · rfl

theorem result_run {typeName : String} (htype : Introspection.typeNameOf (target entry) = .ok typeName)
    (hname : entry.name.showFault? = none) (source : Source) :
    (s.run number entry source).result =
      match (Sampling.run (s.plan number entry) s.schedule entry.name.plainText typeName s.cancelled
        source).result with
      | .error e => .error (.run entry.name.plainText e)
      | .ok c =>
        (Introspection.report (s.config.extractionOf entry) (target entry) typeName (s.times number) c).1 := by
  have hname' : (target entry).collection.showFault? = none := hname
  rw [run_eq_introspect, Introspection.introspect, htype]
  dsimp only
  rw [hname', Introspection.reportedRun, show (target entry).collection = entry.name from rfl]
  cases (Sampling.run (s.plan number entry) s.schedule entry.name.plainText typeName s.cancelled
    source).result with
  | error e => rfl
  | ok c => rfl

theorem run_isOwn (e : RunError) (collection : String) :
    (IntrospectionError.run collection e).isOwn = e.isOwn := by
  cases e <;> rfl

/-- What a run comes to over a collection in memory is reported, or not, by the documents that are there. -/
theorem report_isOk_of_result {typeName : String} {cancelled : Bool} {c : Sampling.Completed}
    (hcollections : m'.collections = m.collections)
    (hsize : ∀ name documents, m.documents name = .ok documents → documents.size < 2 ^ 63)
    (h : (Sampling.run (s.plan number entry) s.schedule entry.name.plainText typeName cancelled
      (.memory m')).result = .ok c) :
    ∃ documents, m.documents entry.name = .ok documents ∧
      (Introspection.report (s.config.extractionOf entry) (target entry) typeName (s.times number) c).1.isOk =
        Introspection.isReportable (s.config.extractionOf entry) (target entry) documents.isEmpty := by
  have hdocuments := MemorySource.documents_of_collections hcollections entry.name
  obtain ⟨total, hcount, hempty⟩ := Sampling.emptyCollection_iff_of_result h
  have hcount : Sampling.countOf ((Source.store entry.name).count (.memory m')).1 = .ok total := hcount
  cases hknown : m.documents entry.name with
  | error fault =>
    cases (Sampling.countOf_memory_of_error (hdocuments.trans hknown)).symm.trans hcount
  | ok documents =>
    obtain rfl := Except.ok.inj
      ((Sampling.countOf_memory (hdocuments.trans hknown) (hsize _ documents hknown)).symm.trans hcount)
    refine ⟨documents, rfl, ?_⟩
    rw [Introspection.report_isOk]
    congr 1
    rw [Bool.eq_iff_iff, beq_iff_eq, hempty, Array.isEmpty_iff_size_eq_zero]

theorem isKey_of_fits (h : s.fits m entry = true) : entry.name.isKey = true := by
  simp only [fits, Bool.and_eq_true] at h
  exact h.1.1.1.1

/-- A run over a collection that fits fails with errors of its own, if it can tell its numbers. -/
theorem isOwn_of_fits (hcollections : m'.collections = m.collections)
    (hsize : ∀ name documents, m.documents name = .ok documents → documents.size < 2 ^ 63)
    (hfits : s.fits m entry = true) (htold : (s.config.samplingOf entry).isTold = true) {e : IntrospectionError}
    (h : (s.run number entry (.memory m')).result = .error e) : e.isOwn = true := by
  simp only [fits, Bool.and_eq_true] at hfits
  obtain ⟨⟨⟨⟨-, hname⟩, htypeOk⟩, htimely⟩, hreportable⟩ := hfits
  rw [Option.isNone_iff_eq_none] at hname
  have hdocuments := MemorySource.documents_of_collections hcollections entry.name
  cases htype : Introspection.typeNameOf (target entry) with
  | error fault =>
    rw [htype] at htypeOk
    cases htypeOk
  | ok typeName =>
    rw [result_run htype hname] at h
    split at h
    · rename_i fault hresult
      cases h
      rw [run_isOwn]
      cases hown : fault.isOwn with
      | true => rfl
      | false =>
        have hescapes := Sampling.escapes_of_result hresult hown
        refine absurd hescapes (not_or.2 ⟨?_, Sampling.not_untold htold⟩)
        refine Sampling.not_escapes_memory rfl (Sampling.isTimely_iff.1 htimely) fun documents hknown => ?_
        exact hsize entry.name documents (hdocuments ▸ hknown)
    · rename_i c hresult
      obtain ⟨documents, hknown, hreport⟩ := report_isOk_of_result hcollections hsize hresult
      rw [hknown] at hreportable
      rw [h] at hreport
      cases hreport.trans hreportable

/-- A collection fits over which a run that nothing interrupts fails with no error but its own. -/
theorem fits_of_run (hcollections : m'.collections = m.collections) (hreplaces : m'.replaces = m.replaces)
    (hsize : ∀ name documents, m.documents name = .ok documents → documents.size < 2 ^ 63)
    (hprovides : m.Provides (s.config.samplingOf entry))
    (hcancelled : s.cancelled = false) (htimeout : (s.config.samplingOf entry).timeout? = none)
    (hkey : entry.name.isKey = true)
    (hown : ∀ e, (s.run number entry (.memory m')).result = .error e → e.isOwn = true) :
    s.fits m entry = true := by
  cases htype : Introspection.typeNameOf (target entry) with
  | error fault =>
    have hfailed : (s.run number entry (.memory m')).result = .error fault := result_run_of_error _ htype
    cases (hown fault hfailed).symm.trans (Introspection.isOwn_typeNameOf htype)
  | ok typeName =>
    have hname : entry.name.showFault? = none := by
      refine Option.eq_none_iff_forall_not_mem.2 fun fault hfault => ?_
      obtain ⟨e, hfailed, hforeign⟩ := @exists_error_of_shown s entry number typeName htype fault hfault (.memory m')
      cases (hown e hfailed).symm.trans hforeign
    have htimely : (s.config.samplingOf entry).isTimely = true := by
      rw [SamplingSettings.isTimely, htimeout]
    rw [fits, hkey, hname, htype, htimely]
    cases hknown : m.documents entry.name with
    | error fault => rfl
    | ok documents =>
      have hknown' := (MemorySource.documents_of_collections hcollections entry.name).trans hknown
      have hprovides' : m'.Provides (s.plan number entry).sampling := fun hpicks => hprovides (hreplaces ▸ hpicks)
      have hrun := @result_run s entry number typeName htype hname (.memory m')
      rw [hcancelled] at hrun
      obtain huntold | ⟨c, hresult⟩ := Or.symm (@Sampling.completed_or_untold (s.plan number entry) m' entry.name
        documents rfl hknown' hprovides' s.schedule entry.name.plainText typeName htimeout (hsize _ documents hknown))
      · rw [huntold] at hrun
        cases hown _ hrun
      obtain ⟨documents', hsame, hreport⟩ := report_isOk_of_result hcollections hsize hresult
      obtain rfl := Except.ok.inj (hknown.symm.trans hsame)
      rw [hresult] at hrun
      cases hreported : (Introspection.report (s.config.extractionOf entry) (target entry) typeName
          (s.times number) c).1 with
      | error e => cases (hown e (hrun.trans hreported)).symm.trans (Introspection.isOwn_report hreported)
      | ok report =>
        rw [hreported] at hreport
        exact hreport.symm

/-- Calls to a source in memory leave its collections as they are, and how it draws from them. -/
theorem exists_after_memory (calls : List (Raw × Call)) :
    ∃ m', after Source.answer (.memory m) calls = .memory m' ∧ m'.collections = m.collections ∧
      m'.replaces = m.replaces := by
  induction calls generalizing m with
  | nil => exact ⟨m, rfl, rfl, rfl⟩
  | cons call calls ih =>
    obtain ⟨name, call⟩ := call
    have hstep : ∃ m', (Source.answer name call (.memory m)).2 = .memory m' ∧
        m'.collections = m.collections ∧ m'.replaces = m.replaces := by
      cases call with
      | count => exact ⟨m, rfl, rfl, rfl⟩
      | draw size => exact ⟨_, rfl, MemorySource.collections_draw m name size, MemorySource.replaces_draw m name size⟩
    obtain ⟨m', hanswer, hcollections, hreplaces⟩ := hstep
    obtain ⟨m'', hafter, hsame⟩ := ih (m := m')
    refine ⟨m'', ?_, hsame.1.trans hcollections, hsame.2.trans hreplaces⟩
    rw [after, List.foldl_cons, hanswer]
    exact hafter

theorem exists_store_run (s : Session) (number : Nat) (entry : CollectionSettings) :
    ∃ m', (s.run number entry (.memory m)).store = .memory m' ∧ m'.collections = m.collections ∧
      m'.replaces = m.replaces := by
  obtain ⟨own, hown⟩ := @exists_after _ Source Source.answer (Source.memory m) entry.name
    (s.calls (s.fate number) entry) []
  obtain ⟨m', hafter, hkept⟩ := exists_after_memory (m := m) ([] ++ own.map fun call => (entry.name, call))
  refine ⟨m', ?_, hkept⟩
  rw [run_eq_runOn, ← hafter, ← hown]
  exact congrArg Prod.snd (runOn_eq number entry (Source.memory m))

/-- Each result is that of a run over the source after some calls. -/
theorem exists_run_of_mem {entries : List CollectionSettings}
    {run : CollectionSettings × Except IntrospectionError Report}
    (h : run ∈ s.runEach number entries (.memory m)) :
    run.1 ∈ entries ∧ ∃ number m', m'.collections = m.collections ∧ m'.replaces = m.replaces ∧
      run.2 = (s.run number run.1 (.memory m')).result := by
  induction entries generalizing number m with
  | nil => cases h
  | cons entry entries ih =>
    rw [runEach] at h
    obtain rfl | h := List.mem_cons.1 h
    · exact ⟨List.mem_cons_self, number, m, rfl, rfl, rfl⟩
    · obtain ⟨m', hstore, hcollections, hreplaces⟩ := exists_store_run (m := m) s number entry
      rw [hstore] at h
      obtain ⟨hentry, number', m'', hsame, hdraws, hresult⟩ := ih h
      exact ⟨List.mem_cons_of_mem _ hentry, number', m'', hsame.trans hcollections, hdraws.trans hreplaces, hresult⟩

/-- The results are recorded one after the other when they can be kept under the names of the collections. -/
theorem introspectAll_of_isKey {source : Source} (hsource : s.openSource = .ok source)
    (hkeys : ∀ entry ∈ s.config.collections, entry.name.isKey = true) :
    s.introspectAll none = recordAll {} (s.runEach 0 s.config.collections source) := by
  rw [introspectAll, hsource, collections_all]
  dsimp only [Except.mapError, bind, Except.bind]
  rw [find?_eq_none_of_isKey hkeys, ite_self]

/-- What is returned is what the results are recorded as. -/
theorem recordAll_of_introspectAll {source : Source} {b : BatchReport} (hsource : s.openSource = .ok source)
    (h : s.introspectAll none = .ok b) : recordAll {} (s.runEach 0 s.config.collections source) = .ok b := by
  rw [introspectAll, hsource, collections_all] at h
  dsimp only [Except.mapError, bind, Except.bind] at h
  split at h
  · cases h
  · exact h

theorem of_record {b b' : BatchReport} {result : Except IntrospectionError Report}
    (h : record b entry result = .ok b') :
    entry.name.isKey = true ∧ ∀ e, result = .error e → e.isOwn = true := by
  rw [record.eq_def] at h
  split at h
  · split at h
    · rename_i hkey
      exact ⟨hkey, fun e he => nomatch he⟩
    · cases h
  · rename_i e
    split at h
    · cases h
    · rename_i hown
      split at h
      · rename_i hkey
        refine ⟨hkey, fun e' he => ?_⟩
        obtain rfl := Except.error.inj he
        simpa using hown
      · cases h

theorem of_recordAll {b b' : BatchReport} {runs : List (CollectionSettings × Except IntrospectionError Report)}
    (h : recordAll b runs = .ok b') {run : CollectionSettings × Except IntrospectionError Report}
    (hrun : run ∈ runs) :
    run.1.name.isKey = true ∧ ∀ e, run.2 = .error e → e.isOwn = true := by
  induction runs generalizing b with
  | nil => cases hrun
  | cons first runs ih =>
    rw [recordAll] at h
    obtain ⟨recorded, hrecord, h⟩ := exists_of_bind_ok h
    obtain rfl | hrun := List.mem_cons.1 hrun
    · exact of_record hrecord
    · exact ih h hrun

end Session

/-- **What an introspection of all collections comes to.** Over a source in memory, it returns with a report
or a failure for every collection when all of them fit, every object in their documents is gone into or refused, and
the runs can tell their numbers. When nothing interrupts the runs and the source provides as many documents as they
ask for, one collection that does not fit is enough for it to return nothing. The documents of a collection are numbered
by machine words. -/
theorem introspectAll_contained {s : Session} {data : Raw} {m : MemorySource}
    (hconfig : Config.ofRaw data = .ok s.config) (hsource : s.openSource = .ok (.memory m))
    (hheld : ∀ held ∈ m.collections, held.2.size < 2 ^ 63) :
    ((∀ entry ∈ s.config.collections, s.fits m entry = true ∧ s.Follows m entry ∧
        (s.config.samplingOf entry).isTold = true) →
      ∃ b, s.introspectAll none = .ok b ∧
        (b.reports.map Prod.fst ++ b.failures.map Prod.fst).Perm
          (s.config.collections.map CollectionSettings.name)) ∧
    (s.cancelled = false → (∀ entry ∈ s.config.collections, (s.config.samplingOf entry).timeout? = none ∧
        m.Provides (s.config.samplingOf entry)) →
      ∀ entry ∈ s.config.collections, s.fits m entry = false → ∃ e, s.introspectAll none = .error e) := by
  let runs := s.runEach 0 s.config.collections (.memory m)
  have hsize (name : Raw) (documents : Array Raw) (h : m.documents name = .ok documents) :
      documents.size < 2 ^ 63 := MemorySource.size_lt_of_documents hheld h
  have hfst : runs.map Prod.fst = s.config.collections := Session.runEach_map_fst ..
  constructor
  · intro hfits
    have hkeys : ∀ entry ∈ s.config.collections, entry.name.isKey = true := fun entry hentry =>
      Session.isKey_of_fits (hfits entry hentry).1
    have hrecorded : Session.recordAll {} runs = .ok (Session.extended {} runs) := by
      refine Session.recordAll_of_apart (hfst ▸ hkeys) (fun run hrun e he => ?_)
        (hfst ▸ Config.apart_of_ofRaw hconfig hkeys)
      obtain ⟨hentry, number, m', hcollections, -, hresult⟩ := Session.exists_run_of_mem hrun
      obtain ⟨hfit, -, htold⟩ := hfits _ hentry
      exact Session.isOwn_of_fits hcollections hsize hfit htold (hresult.symm.trans he)
    refine ⟨Session.extended {} runs, ?_, ?_⟩
    · rw [Session.introspectAll_of_isKey hsource hkeys]
      exact hrecorded
    · rw [← hfst, List.map_map]
      exact (Session.names_of_runs runs).2.2
  · intro hcalm hundisturbed entry hentry hunfit
    cases hreturned : s.introspectAll none with
    | error e => exact ⟨e, rfl⟩
    | ok b =>
      have hrecorded := Session.recordAll_of_introspectAll hsource hreturned
      have hmem : entry ∈ runs.map Prod.fst := hfst ▸ hentry
      obtain ⟨run, hrun, rfl⟩ := List.mem_map.1 hmem
      obtain ⟨hkey, hown⟩ := Session.of_recordAll hrecorded hrun
      obtain ⟨-, number, m', hcollections, hreplaces, hresult⟩ := Session.exists_run_of_mem hrun
      rw [hresult] at hown
      obtain ⟨htimeout, hprovides⟩ := hundisturbed _ hentry
      cases hunfit.symm.trans
        (Session.fits_of_run hcollections hreplaces hsize hprovides hcalm htimeout hkey hown)

/-- The data of a configuration for a source in memory that has a single collection, of one document. -/
def usersData (collections : List Raw) : Raw :=
  .ofFields [
    ("source", .ofFields [("type", .text "memory"),
      ("collections", .ofFields [("users", .list [.ofFields [("name", .text "Ada")]])])]),
    ("collections", .list collections)]

/-- The configuration with that data, over some collections. -/
def usersConfig (collections : List CollectionSettings) : Config where
  source :=
    { type := .text "memory"
      settings := [(.text "collections", .ofFields [("users", .list [.ofFields [("name", .text "Ada")]])])] }
  collections

/-- The source in memory that such a configuration opens. -/
def usersMemory : MemorySource where
  collections := [(.text "users", #[.ofFields [("name", .text "Ada")]])]
  choices := .inOrder

/-- A session in which nothing interrupts the runs, and their clocks stand still. -/
def Session.calm (config : Config) : Session where
  config
  around := { server := .unreachable "", choices := fun _ => .inOrder }
  times _ := { started := ⟨⟨2024, 1, 1⟩, 0, 0, 0, 0, none⟩ }
  clock _ _ := .zero

/-- Of two collections one is not there. Both fit, and each has its report or its failure. -/
theorem introspectAll_contained_gone :
    let s := Session.calm (usersConfig [{ name := .text "users" }, { name := .text "gone" }])
    Config.ofRaw (usersData [.text "users", .text "gone"]) = .ok s.config ∧
      s.openSource = .ok (.memory usersMemory) ∧
      (∀ held ∈ usersMemory.collections, held.2.size < 2 ^ 63) ∧
      (∀ entry ∈ s.config.collections, s.fits usersMemory entry = true ∧ s.Follows usersMemory entry ∧
        (s.config.samplingOf entry).isTold = true) ∧
      ∃ b, s.introspectAll none = .ok b ∧
        (b.reports.map Prod.fst ++ b.failures.map Prod.fst).Perm [.text "users", .text "gone"] := by
  intro s
  have hconfig : Config.ofRaw (usersData [.text "users", .text "gone"]) = .ok s.config := by rfl
  have hsource : s.openSource = .ok (.memory usersMemory) := by rfl
  have hheld : ∀ held ∈ usersMemory.collections, held.2.size < 2 ^ 63 := by decide
  have hfits : ∀ entry ∈ s.config.collections, s.fits usersMemory entry = true ∧ s.Follows usersMemory entry ∧
      (s.config.samplingOf entry).isTold = true := by
    decide +kernel
  exact ⟨hconfig, hsource, hheld, hfits, (introspectAll_contained hconfig hsource hheld).1 hfits⟩

/-- The name of a collection may be a number when it is given as a field of its entry. No name for its type is
found then, and the collection after it has neither a report nor a failure. -/
theorem introspectAll_sunk :
    let s := Session.calm (usersConfig [{ name := .int 2024 }, { name := .text "users" }])
    Config.ofRaw (usersData [.ofFields [("name", .int 2024)], .text "users"]) = .ok s.config ∧
      s.openSource = .ok (.memory usersMemory) ∧ s.fits usersMemory { name := .text "users" } = true ∧
      s.introspectAll none = .error (.introspection (.misuse (.noPart "int" "lower"))) :=
  ⟨by rfl, by rfl, by decide +kernel, by rfl⟩

end DocSchema
