import DocSchema.Introspection.Batch
import DocSchema.Proofs.Introspection.Clock
import Mathlib.Data.List.Forall2

/-!
# Runs over several collections

The runs over several collections share a source. When its answers for a collection depend only on the
earlier calls for that collection, each run comes to what it comes to when it is alone, whatever was asked
for other collections before, and the reports and the failures can be read off the runs alone.

- `Separate`: the answers for a collection depend only on its own calls.
- `Session.runOn`, `Session.introspectEach`: the runs over a source of any kind.
- `on_eq_of_separate`: calls for other collections make no difference.
- `alone_at`: without a limit of time, neither the clock nor the fetching ahead makes a difference.
- `runEachOn_eq`: one run after the other comes to the runs alone.
- `recordAll_eq`: what is recorded about results of which no names are the same.
-/

namespace DocSchema

/-- Two values neither of which is looked up as the other. -/
def Raw.Apart (a b : Raw) : Prop :=
  a.same b = false ∧ b.same a = false

instance (a b : Raw) : Decidable (a.Apart b) :=
  inferInstanceAs (Decidable (_ ∧ _))

/-- Of a result it can be decided whether its error, if it has one, has a property. -/
instance decidableForallError {α ε : Type} (p : ε → Prop) [DecidablePred p] :
    (result : Except ε α) → Decidable (∀ e, result = .error e → p e)
  | .ok _ => .isTrue fun _ h => nomatch h
  | .error e => decidable_of_iff (p e) ⟨fun h _ he => Except.error.inj he ▸ h, fun h => h e rfl⟩

/-- Of a result it can be decided whether what it holds, if it is no error, has a property. -/
instance decidableForallOk {α ε : Type} (p : α → Prop) [DecidablePred p] :
    (result : Except ε α) → Decidable (∀ a, result = .ok a → p a)
  | .error _ => .isTrue fun _ h => nomatch h
  | .ok a => decidable_of_iff (p a) ⟨fun h _ ha => Except.ok.inj ha ▸ h, fun h => h a rfl⟩

/-- The answers of a source for the collection with a name. -/
def Source.answer (name : Raw) : Answering Source
  | .count => count name
  | .draw size => fun source => ((draw name size source).1.answer, (draw name size source).2)

theorem Source.store_eq (name : Raw) : Source.store name = .answering (Source.answer name) := by
  have hdraw (size : Nat) (source : Source) :
      draw name size source = ({ answer := (draw name size source).1.answer }, (draw name size source).2) := by
    cases source with
    | memory m => rfl
    | directory d => rfl
    | database d => rfl
  rw [store, Store.answering, Store.mk.injEq]
  exact ⟨rfl, funext fun size => funext fun source => hdraw size source⟩

section Source

variable {α σ : Type} (answer : Raw → Answering σ) (start : σ)

/-- The state of a source after some calls, each for the collection with a name. -/
def after (calls : List (Raw × Call)) : σ :=
  calls.foldl (fun state call => (answer call.1 call.2 state).2) start

/-- The calls for the collection with a name. -/
def callsFor (name : Raw) (calls : List (Raw × Call)) : List (Raw × Call) :=
  calls.filter fun call => call.1.same name

/-- The answers of a source for a collection depend only on the earlier calls for the same collection. -/
def Separate : Prop :=
  ∀ (calls calls' : List (Raw × Call)) (name : Raw) (call : Call),
    callsFor name calls = callsFor name calls' →
    (answer name call (after answer start calls)).1 = (answer name call (after answer start calls')).1

variable {answer start} {name : Raw} {calls calls' : List (Raw × Call)}

theorem after_snoc (call : Call) : after answer start (calls ++ [(name, call)]) =
    (answer name call (after answer start calls)).2 := by
  rw [after, List.foldl_append]
  rfl

/-- What calls for a collection come to depends only on the earlier calls for the same collection. -/
theorem on_eq_of_separate (h : Separate answer start) (d : Dialogue α)
    (hcalls : callsFor name calls = callsFor name calls') :
    (d.on (answer name) (after answer start calls)).1 = (d.on (answer name) (after answer start calls')).1 := by
  induction d generalizing calls calls' with
  | done result => rfl
  | ask call next ih =>
    rw [Dialogue.on, Dialogue.on, ← after_snoc, ← after_snoc, h calls calls' name call hcalls]
    refine ih _ ?_
    rw [callsFor, callsFor, List.filter_append, List.filter_append]
    exact congrArg (· ++ _) hcalls

/-- The state after calls for a collection. -/
theorem exists_after (d : Dialogue α) (calls : List (Raw × Call)) :
    ∃ own : List Call, (d.on (answer name) (after answer start calls)).2 =
      after answer start (calls ++ own.map fun call => (name, call)) := by
  induction d generalizing calls with
  | done result => exact ⟨[], by rw [List.map_nil, List.append_nil]; rfl⟩
  | ask call next ih =>
    obtain ⟨own, hown⟩ := ih (answer name call (after answer start calls)).1 (calls ++ [(name, call)])
    rw [after_snoc, List.append_assoc] at hown
    exact ⟨call :: own, hown⟩

end Source

/-- What a run meets with that is no matter of its source: how fetching ahead falls out, what the clock reads, and
the times at which the run starts and ends. -/
structure Fate where
  schedule : Sampling.Schedule := {}
  clock : (reading : Nat) → Binary64
  times : RunTimes

/-- Two reports agree when they differ in the times of the runs at most. -/
structure BatchReport.Agrees (b b' : BatchReport) : Prop where
  reports : List.Forall₂ (fun r r' => r.1 = r'.1 ∧ r.2.at r'.2.times = r'.2) b.reports b'.reports
  failures : b.failures = b'.failures

namespace Session

variable {σ : Type} (s : Session) (answer : Raw → Answering σ) (start : σ)

/-- What a run meets with when the runs go on one after the other, by its number. -/
def fate (number : Nat) : Fate where
  schedule := s.schedule
  clock := s.clock number
  times := s.times number

/-- What the run over a collection goes by. -/
def rules (clock : Nat → Binary64) (entry : CollectionSettings) : Sampling.Plan Unit where
  store := .answering fun _ state => (.ok .null, state)
  sampling := s.config.samplingOf entry
  extraction := s.config.extractionOf entry
  clock

/-- The calls of the run over a collection. -/
def calls (fate : Fate) (entry : CollectionSettings) : Dialogue (Except IntrospectionError Report) :=
  Introspection.introspectCalls (s.rules fate.clock entry) fate.schedule
    { collection := entry.name, typeName := entry.typeName } s.cancelled fate.times

/-- The run over a collection of a source of any kind, by its number. -/
def runOn (number : Nat) (entry : CollectionSettings) (state : σ) : Introspection.Outcome σ :=
  Introspection.introspect ((s.rules (s.clock number) entry).over (answer entry.name)) s.schedule
    { collection := entry.name, typeName := entry.typeName } s.cancelled (s.times number) state

/-- The runs over some collections of a source of any kind, of which the first has a number. -/
def runEachOn (number : Nat) :
    List CollectionSettings → σ → List (CollectionSettings × Except IntrospectionError Report)
  | [], _ => []
  | entry :: entries, state =>
    let o := s.runOn answer number entry state
    (entry, o.result) :: runEachOn (number + 1) entries o.store

/-- What the run over a collection comes to when it is alone. -/
def alone (fate : Fate) (entry : CollectionSettings) : Except IntrospectionError Report :=
  ((s.calls fate entry).on (answer entry.name) start).1

/-- The runs over some collections, of which the first has a number, each of them alone. -/
def runAlone (fates : Nat → Fate) (number : Nat) (entries : List CollectionSettings) :
    List (CollectionSettings × Except IntrospectionError Report) :=
  entries.mapIdx fun i entry => (entry, s.alone answer start (fates (number + i)) entry)

/-- Introspects some collections of a source of any kind. -/
def introspectEach (entries : List CollectionSettings) : Except BatchError BatchReport :=
  match if 1 < s.workers entries then entries.find? (!·.name.isKey) else none with
  | some entry => .error (.misuse entry.name.keyMisuse)
  | none => recordAll {} (s.runEachOn answer 0 entries start)

variable {s answer start}

theorem run_eq_runOn (number : Nat) (entry : CollectionSettings) (source : Source) :
    s.run number entry source = s.runOn Source.answer number entry source := by
  rw [run, runOn, Source.store_eq]
  rfl

theorem runEach_eq (number : Nat) (entries : List CollectionSettings) (source : Source) :
    s.runEach number entries source = s.runEachOn Source.answer number entries source := by
  induction entries generalizing number source with
  | nil => rfl
  | cons entry entries ih => rw [runEach, runEachOn, ← run_eq_runOn, ih]

/-- The introspection of all collections, or of one, is that of collections of the source. -/
theorem introspectAll_eq (name? : Option String) : s.introspectAll name? = (do
    let entries ← (s.collections name?).mapError .config
    let source ← s.openSource.mapError .source
    s.introspectEach Source.answer source entries) := by
  refine bind_congr fun entries => bind_congr fun source => ?_
  rw [introspectEach]
  cases (if 1 < s.workers entries then entries.find? (!·.name.isKey) else none) with
  | none => exact congrArg (recordAll {}) (runEach_eq 0 entries source)
  | some entry => rfl

/-- The run over a collection comes to what its calls come to. -/
theorem runOn_eq (number : Nat) (entry : CollectionSettings) (state : σ) :
    ((s.runOn answer number entry state).result, (s.runOn answer number entry state).store) =
      (s.calls (s.fate number) entry).on (answer entry.name) state :=
  Introspection.introspect_eq_on _ _ _ _ _ _ _

/-- Without a limit of time, what a run meets with makes no difference but in the times of its report. -/
theorem alone_at {entry : CollectionSettings} (htimeout : (s.config.samplingOf entry).timeout? = none)
    (fate fate' : Fate) :
    s.alone answer start fate' entry = (s.alone answer start fate entry).map fun r => r.at fate'.times := by
  have hclock : s.calls { fate with clock := fate'.clock, times := fate'.times } entry =
      (s.calls fate entry).map (Except.map fun r => r.at fate'.times) :=
    @Introspection.introspectCalls_clock (s.rules fate.clock entry) fate'.clock _ fate.times fate'.times htimeout _ _
  have hschedule : s.alone answer start fate' entry =
      s.alone answer start { fate with clock := fate'.clock, times := fate'.times } entry :=
    Introspection.introspectCalls_schedule fate'.schedule fate.schedule
  rw [hschedule, alone, hclock, Dialogue.on_map]
  rfl

variable {fates fates' : Nat → Fate}

theorem runAlone_cons (number : Nat) (entry : CollectionSettings) (entries : List CollectionSettings) :
    s.runAlone answer start fates number (entry :: entries) =
      (entry, s.alone answer start (fates number) entry) :: s.runAlone answer start fates (number + 1) entries := by
  simp only [runAlone, List.mapIdx_cons, Nat.add_zero, Nat.add_assoc, Nat.add_comm 1]

/-- One run after the other comes to the runs alone, when none of the collections was asked for before. -/
theorem runEachOn_eq (h : Separate answer start) {entries : List CollectionSettings}
    (hapart : entries.Pairwise fun a b => a.name.Apart b.name) {calls : List (Raw × Call)}
    (hcalls : ∀ entry ∈ entries, callsFor entry.name calls = []) (number : Nat) :
    s.runEachOn answer number entries (after answer start calls) =
      s.runAlone answer start s.fate number entries := by
  induction entries generalizing calls number with
  | nil => rfl
  | cons entry entries ih =>
    rw [List.pairwise_cons] at hapart
    have hfirst := hcalls entry List.mem_cons_self
    have hresult : (s.runOn answer number entry (after answer start calls)).result =
        s.alone answer start (s.fate number) entry :=
      (congrArg Prod.fst (runOn_eq number entry _)).trans
        (@on_eq_of_separate _ σ answer start entry.name calls [] h _ hfirst)
    obtain ⟨own, hown⟩ := @exists_after _ σ answer start entry.name (s.calls (s.fate number) entry) calls
    have hstore : (s.runOn answer number entry (after answer start calls)).store =
        after answer start (calls ++ own.map fun call => (entry.name, call)) :=
      (congrArg Prod.snd (runOn_eq number entry _)).trans hown
    rw [runEachOn, hresult, hstore, runAlone_cons, ih hapart.2]
    intro later hlater
    have hother : callsFor later.name (own.map fun call => (entry.name, call)) = [] := by
      refine List.filter_eq_nil_iff.2 fun call hcall => ?_
      obtain ⟨c, -, rfl⟩ := List.mem_map.1 hcall
      rw [(hapart.1 later hlater).1]
      exact Bool.false_ne_true
    rw [callsFor, List.filter_append]
    exact List.append_eq_nil_iff.2 ⟨hcalls later (List.mem_cons_of_mem _ hlater), hother⟩

/-! ## What is recorded -/

/-- The reports among some results. -/
def reportsOf (runs : List (CollectionSettings × Except IntrospectionError Report)) : List (Raw × Report) :=
  runs.filterMap fun run => run.2.toOption.map fun report => (run.1.name, report)

/-- What went wrong, among some results. -/
def failuresOf (runs : List (CollectionSettings × Except IntrospectionError Report)) : List (Raw × String) :=
  runs.filterMap fun run =>
    match run.2 with
    | .ok _ => none
    | .error e => some (run.1.name, e.message)

/-- A value under a key that is not held yet comes last. -/
theorem insertEntry_of_absent {α : Type} {key : Raw} {entries : List (Raw × α)} (value : α)
    (h : ∀ held ∈ entries, held.1.same key = false) :
    Raw.insertEntry key value entries = entries ++ [(key, value)] := by
  induction entries with
  | nil => rfl
  | cons first entries ih =>
    have hfirst := h first List.mem_cons_self
    rw [Raw.insertEntry, hfirst, ih fun held hheld => h held (List.mem_cons_of_mem _ hheld)]
    rfl

/-- A report holds nothing about the collection with a name. -/
def Lacks (b : BatchReport) (name : Raw) : Prop :=
  (∀ held ∈ b.reports, held.1.same name = false) ∧ ∀ held ∈ b.failures, held.1.same name = false

/-- A report with the results of some runs at its end. -/
def extended (b : BatchReport) (runs : List (CollectionSettings × Except IntrospectionError Report)) :
    BatchReport where
  reports := b.reports ++ reportsOf runs
  failures := b.failures ++ failuresOf runs

theorem extended_cons (b : BatchReport) (run : CollectionSettings × Except IntrospectionError Report)
    (runs : List (CollectionSettings × Except IntrospectionError Report)) :
    extended (extended b [run]) runs = extended b (run :: runs) := by
  have hreports : reportsOf (run :: runs) = reportsOf [run] ++ reportsOf runs :=
    List.filterMap_append (l := [run])
  have hfailures : failuresOf (run :: runs) = failuresOf [run] ++ failuresOf runs :=
    List.filterMap_append (l := [run])
  simp only [extended, hreports, hfailures, List.append_assoc]

theorem record_eq {b : BatchReport} {entry : CollectionSettings} {result : Except IntrospectionError Report}
    (hkey : entry.name.isKey = true) (hown : ∀ e, result = .error e → e.isOwn = true)
    (hlacks : Lacks b entry.name) : record b entry result = .ok (extended b [(entry, result)]) := by
  cases result with
  | ok report =>
    rw [record, if_pos hkey, insertEntry_of_absent _ hlacks.1, extended]
    exact congrArg Except.ok (congrArg (BatchReport.mk _) (List.append_nil _).symm)
  | error e =>
    rw [record, hown e rfl, Bool.not_true, if_neg Bool.false_ne_true, if_pos hkey,
      insertEntry_of_absent _ hlacks.2, extended]
    exact congrArg Except.ok (congrArg (BatchReport.mk · _) (List.append_nil _).symm)

theorem Lacks.extended {b : BatchReport} {name : Raw}
    {run : CollectionSettings × Except IntrospectionError Report} (h : Lacks b name)
    (hrun : run.1.name.same name = false) : Lacks (extended b [run]) name := by
  constructor
  · intro held hheld
    rcases List.mem_append.1 hheld with hheld | hheld
    · exact h.1 held hheld
    · obtain ⟨other, hother, heq⟩ := List.mem_filterMap.1 hheld
      obtain ⟨report, -, rfl⟩ := Option.map_eq_some_iff.1 heq
      rwa [List.mem_singleton.1 hother]
  · intro held hheld
    rcases List.mem_append.1 hheld with hheld | hheld
    · exact h.2 held hheld
    · obtain ⟨other, hother, heq⟩ := List.mem_filterMap.1 hheld
      obtain rfl := List.mem_singleton.1 hother
      split at heq
      · cases heq
      · rw [← Option.some.inj heq]
        exact hrun

/-- What is recorded about runs that each returned a report or failed with an error of their own. -/
theorem recordAll_eq {runs : List (CollectionSettings × Except IntrospectionError Report)} {b : BatchReport}
    (hkeys : ∀ run ∈ runs, run.1.name.isKey = true)
    (hown : ∀ run ∈ runs, ∀ e, run.2 = .error e → e.isOwn = true)
    (hapart : runs.Pairwise fun r r' => r.1.name.Apart r'.1.name)
    (hlacks : ∀ run ∈ runs, Lacks b run.1.name) : recordAll b runs = .ok (extended b runs) := by
  induction runs generalizing b with
  | nil => simp [recordAll, extended, reportsOf, failuresOf]
  | cons run runs ih =>
    rw [List.pairwise_cons] at hapart
    have hfirst : record b run.1 run.2 = .ok (extended b [run]) :=
      record_eq (hkeys run List.mem_cons_self) (hown run List.mem_cons_self) (hlacks run List.mem_cons_self)
    rw [recordAll, hfirst]
    refine (ih (fun r hr => hkeys r (List.mem_cons_of_mem _ hr))
      (fun r hr => hown r (List.mem_cons_of_mem _ hr)) hapart.2 fun r hr => ?_).trans
      (congrArg Except.ok (extended_cons b run runs))
    exact (hlacks r (List.mem_cons_of_mem _ hr)).extended (hapart.1 r hr).1

theorem recordAll_singleton (b : BatchReport) (entry : CollectionSettings)
    (result : Except IntrospectionError Report) : recordAll b [(entry, result)] = record b entry result := by
  rw [recordAll]
  cases record b entry result with
  | error e => rfl
  | ok recorded => rfl

/-- Runs may be recorded in two parts. -/
theorem recordAll_append (b : BatchReport)
    (runs runs' : List (CollectionSettings × Except IntrospectionError Report)) :
    recordAll b (runs ++ runs') = (recordAll b runs).bind fun b => recordAll b runs' := by
  induction runs generalizing b with
  | nil => rfl
  | cons run runs ih =>
    rw [List.cons_append, recordAll, recordAll]
    cases record b run.1 run.2 with
    | error e => rfl
    | ok recorded => exact ih recorded

/-- The names of the reports are in the order of the runs, and so are those of the failures; together they
are the names of all runs. -/
theorem names_of_runs (runs : List (CollectionSettings × Except IntrospectionError Report)) :
    ((reportsOf runs).map Prod.fst).Sublist (runs.map fun run => run.1.name) ∧
      ((failuresOf runs).map Prod.fst).Sublist (runs.map fun run => run.1.name) ∧
      ((reportsOf runs).map Prod.fst ++ (failuresOf runs).map Prod.fst).Perm
        (runs.map fun run => run.1.name) := by
  induction runs with
  | nil => exact ⟨.slnil, .slnil, .nil⟩
  | cons run runs ih =>
    obtain ⟨entry, result⟩ := run
    cases result with
    | ok report => exact ⟨ih.1.cons_cons _, ih.2.1.cons _, ih.2.2.cons _⟩
    | error e => exact ⟨ih.1.cons _, ih.2.1.cons_cons _, List.perm_middle.trans (ih.2.2.cons _)⟩

theorem runAlone_map_fst (number : Nat) (entries : List CollectionSettings) :
    (s.runAlone answer start fates number entries).map Prod.fst = entries := by
  induction entries generalizing number with
  | nil => rfl
  | cons entry entries ih => rw [runAlone_cons, List.map_cons, ih]

theorem find?_eq_none_of_isKey {entries : List CollectionSettings}
    (hkeys : ∀ entry ∈ entries, entry.name.isKey = true) : entries.find? (!·.name.isKey) = none := by
  refine List.find?_eq_none.2 fun entry hentry => ?_
  rw [hkeys entry hentry]
  exact Bool.false_ne_true

/-- Results for collections with different names are all recorded. -/
theorem recordAll_of_apart {runs : List (CollectionSettings × Except IntrospectionError Report)}
    (hkeys : ∀ entry ∈ runs.map Prod.fst, entry.name.isKey = true)
    (hown : ∀ run ∈ runs, ∀ e, run.2 = .error e → e.isOwn = true)
    (hapart : (runs.map Prod.fst).Pairwise fun a b => a.name.Apart b.name) :
    recordAll {} runs = .ok (extended {} runs) := by
  rw [List.pairwise_map] at hapart
  refine recordAll_eq (fun run hrun => hkeys _ (List.mem_map_of_mem hrun)) hown hapart fun run _ => ⟨?_, ?_⟩
  · exact fun held hheld => absurd hheld List.not_mem_nil
  · exact fun held hheld => absurd hheld List.not_mem_nil

/-- All that the runs alone come to is recorded, if their errors are their own. -/
theorem recordAll_runAlone {entries : List CollectionSettings}
    (hapart : entries.Pairwise fun a b => a.name.Apart b.name)
    (hkeys : ∀ entry ∈ entries, entry.name.isKey = true)
    (hown : ∀ run ∈ s.runAlone answer start fates 0 entries, ∀ e, run.2 = .error e → e.isOwn = true) :
    recordAll {} (s.runAlone answer start fates 0 entries) =
      .ok (extended {} (s.runAlone answer start fates 0 entries)) := by
  have hfst : (s.runAlone answer start fates 0 entries).map Prod.fst = entries := runAlone_map_fst 0 entries
  rw [← hfst] at hapart hkeys
  exact recordAll_of_apart hkeys hown hapart

/-- The introspection of some collections one after the other records what the runs alone come to. -/
theorem introspectEach_eq (h : Separate answer start) {entries : List CollectionSettings}
    (hapart : entries.Pairwise fun a b => a.name.Apart b.name)
    (hkeys : ∀ entry ∈ entries, entry.name.isKey = true)
    (hown : ∀ run ∈ s.runAlone answer start s.fate 0 entries, ∀ e, run.2 = .error e → e.isOwn = true) :
    s.introspectEach answer start entries = .ok (extended {} (s.runAlone answer start s.fate 0 entries)) := by
  have hruns : s.runEachOn answer 0 entries (after answer start []) = s.runAlone answer start s.fate 0 entries :=
    runEachOn_eq h hapart (fun _ _ => rfl) 0
  rw [introspectEach, find?_eq_none_of_isKey hkeys, ite_self, show start = after answer start [] from rfl]
  dsimp only
  rw [hruns]
  exact recordAll_runAlone hapart hkeys hown

/-- Whether the errors of the runs alone are their own, without limits of time, is no matter of what the runs meet
with. -/
theorem isOwn_runAlone {entries : List CollectionSettings} {number : Nat}
    (htimeouts : ∀ entry ∈ entries, (s.config.samplingOf entry).timeout? = none)
    (hown : ∀ run ∈ s.runAlone answer start fates number entries, ∀ e, run.2 = .error e → e.isOwn = true) :
    ∀ run ∈ s.runAlone answer start fates' number entries, ∀ e, run.2 = .error e → e.isOwn = true := by
  induction entries generalizing number with
  | nil => exact hown
  | cons entry entries ih =>
    rw [runAlone_cons, List.forall_mem_cons] at hown ⊢
    rw [List.forall_mem_cons] at htimeouts
    refine ⟨fun e he => ?_, ih htimeouts.2 hown.2⟩
    dsimp only at he
    rw [alone_at htimeouts.1 (fates number)] at he
    cases hresult : s.alone answer start (fates number) entry with
    | ok report =>
      rw [hresult] at he
      cases he
    | error e' =>
      rw [hresult] at he
      obtain rfl := Except.error.inj he
      exact hown.1 _ hresult

/-- The runs alone agree, without limits of time, whatever they meet with. -/
theorem agrees_runAlone {entries : List CollectionSettings} {number : Nat}
    (htimeouts : ∀ entry ∈ entries, (s.config.samplingOf entry).timeout? = none) :
    (extended {} (s.runAlone answer start fates number entries)).Agrees
      (extended {} (s.runAlone answer start fates' number entries)) := by
  induction entries generalizing number with
  | nil => exact ⟨.nil, rfl⟩
  | cons entry entries ih =>
    rw [List.forall_mem_cons] at htimeouts
    obtain ⟨hreports, hfailures⟩ : (extended {} (s.runAlone answer start fates (number + 1) entries)).Agrees
        (extended {} (s.runAlone answer start fates' (number + 1) entries)) := ih htimeouts.2
    rw [runAlone_cons, runAlone_cons, alone_at htimeouts.1 (fates number) (fates' number)]
    cases s.alone answer start (fates number) entry with
    | ok report => exact ⟨.cons ⟨rfl, rfl⟩ hreports, hfailures⟩
    | error e => exact ⟨hreports, congrArg (List.cons _) hfailures⟩

end Session

end DocSchema
