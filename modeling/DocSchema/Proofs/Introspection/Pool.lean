import DocSchema.Proofs.Introspection.Batch
import DocSchema.Proofs.Sampling.Threads
import Mathlib.Algebra.BigOperators.Fin
import Mathlib.Algebra.Order.BigOperators.Group.Finset

/-!
# Runs in a pool of workers

The runs over several collections when some of them go on at the same time. Each run is a job; a worker
that is free starts the first job that waits, the jobs that are running make their calls to the source in
any order, and the main thread records the results in the order of the collections. The invariant is that
what is left of a job comes to what its run alone comes to, from the state that its own calls lead to.

- `Pool`, `Pool.Step`: the jobs and the main thread, and what may happen next.
- `Pool.Sound`: what holds at all times; `Sound.step` is the step lemma.
- `Pool.rank`: what goes down with each step.
- `introspectAll_any_schedule`: every schedule ends with the report of one run after the other.
-/

namespace DocSchema

open Sampling (Inevitable inevitable_of_rank)

/-- A job: it waits for a worker, has some calls left to make, or is over. -/
inductive Job
  | waiting
  | running (left : Dialogue (Except IntrospectionError Report))
  | finished (result : Except IntrospectionError Report)

/-- Whether a job has a worker. -/
def Job.isRunning : Job → Bool
  | .running _ => true
  | _ => false

/-- What the main thread is about: recording the results from a number on, waiting for the workers to be
over, or nothing. -/
inductive Collecting
  | next (number : Nat) (b : BatchReport)
  | closing (result : Except BatchError BatchReport)
  | ended (result : Except BatchError BatchReport)

/-- The jobs of some collections, by their numbers, the main thread, and the source with the calls that
have been made to it. -/
structure Pool (σ : Type) (entries : List CollectionSettings) where
  source : σ
  log : List (Fin entries.length × Call) := []
  jobs : Fin entries.length → Job := fun _ => .waiting
  main : Collecting := .next 0 {}

namespace Pool

variable {σ : Type} {entries : List CollectionSettings}

/-- The number of workers that have a job. -/
def busy (t : Pool σ entries) : Nat :=
  (List.finRange entries.length).countP fun i => (t.jobs i).isRunning

/-- The pool when a job is at another stage. -/
def set (t : Pool σ entries) (i : Fin entries.length) (job : Job) : Pool σ entries :=
  { t with jobs := Function.update t.jobs i job }

/-- What may happen next. What a run meets with, by the number of its collection, is not what it meets with when
the runs go on one after the other: the clock goes on while others run. -/
inductive Step (s : Session) (answer : Raw → Answering σ) (fates : Nat → Fate) (workers : Nat) :
    Pool σ entries → Pool σ entries → Prop
  | start {t : Pool σ entries} {i : Fin entries.length} (waits : t.jobs i = .waiting)
      (first : ∀ j < i, t.jobs j ≠ .waiting) (free : t.busy < workers) :
      Step s answer fates workers t (t.set i (.running (s.calls (fates i) entries[i])))
  | ask {t : Pool σ entries} {i : Fin entries.length} {call : Call}
      {next : Except SourceFault Raw → Dialogue (Except IntrospectionError Report)}
      (asks : t.jobs i = .running (.ask call next)) :
      Step s answer fates workers t
        { t.set i (.running (next (answer entries[i].name call t.source).1)) with
          source := (answer entries[i].name call t.source).2
          log := t.log ++ [(i, call)] }
  | finish {t : Pool σ entries} {i : Fin entries.length} {result : Except IntrospectionError Report}
      (done : t.jobs i = .running (.done result)) :
      Step s answer fates workers t (t.set i (.finished result))
  | record {t : Pool σ entries} {i : Fin entries.length} {b : BatchReport}
      {result : Except IntrospectionError Report} (collecting : t.main = .next i b)
      (finished : t.jobs i = .finished result) :
      Step s answer fates workers t
        { t with
          main := match Session.record b entries[i] result with
            | .ok b' => .next (i + 1) b'
            | .error e => .closing (.error e) }
  | leave {t : Pool σ entries} {b : BatchReport} (collected : t.main = .next entries.length b) :
      Step s answer fates workers t { t with main := .closing (.ok b) }
  | close {t : Pool σ entries} {result : Except BatchError BatchReport}
      (closing : t.main = .closing result) (finished : ∀ i, ∃ r, t.jobs i = .finished r) :
      Step s answer fates workers t { t with main := .ended result }

section Sound

variable (s : Session) (answer : Raw → Answering σ) (fates : Nat → Fate) (start : σ)

/-- Calls by the names of their collections. -/
def named (log : List (Fin entries.length × Call)) : List (Raw × Call) :=
  log.map fun call => (entries[call.1].name, call.2)

/-- The calls that a job has made. -/
def own (t : Pool σ entries) (i : Fin entries.length) : List (Raw × Call) :=
  named (t.log.filter fun call => call.1 = i)

/-- The state in which the source would be if a job were the only one. -/
def ownState (t : Pool σ entries) (i : Fin entries.length) : σ :=
  after answer start (t.own i)

/-- A job is on its way to what its run alone comes to. -/
def Fits (t : Pool σ entries) (i : Fin entries.length) : Job → Prop
  | .waiting => t.own i = []
  | .running left => (left.on (answer entries[i].name) (t.ownState answer start i)).1 =
      s.alone answer start (fates i) entries[i]
  | .finished result => result = s.alone answer start (fates i) entries[i]

/-- What has been recorded about the runs alone. -/
def Recorded (runs : List (CollectionSettings × Except IntrospectionError Report)) : Collecting → Prop
  | .next number b => number ≤ runs.length ∧ Session.recordAll {} (runs.take number) = .ok b
  | .closing result | .ended result => result = Session.recordAll {} runs

/-- What holds of the jobs and of the main thread at all times. -/
structure Sound (t : Pool σ entries) : Prop where
  source_eq : t.source = after answer start (named t.log)
  fits : ∀ i, Fits s answer fates start t i (t.jobs i)
  recorded : Recorded (s.runAlone answer start fates 0 entries) t.main

end Sound

variable {s : Session} {answer : Raw → Answering σ} {fates : Nat → Fate} {start : σ} {workers : Nat}
  {t u : Pool σ entries}

/-! ## Calls of one collection -/

theorem named_snoc (log : List (Fin entries.length × Call)) (i : Fin entries.length) (call : Call) :
    named (log ++ [(i, call)]) = named log ++ [(entries[i].name, call)] :=
  List.map_append

theorem own_snoc_self (t : Pool σ entries) (i : Fin entries.length) (call : Call) :
    named ((t.log ++ [(i, call)]).filter fun c => c.1 = i) = t.own i ++ [(entries[i].name, call)] := by
  rw [List.filter_append, List.filter_cons_of_pos (by simp), List.filter_nil, named_snoc, own]

theorem own_snoc_other (t : Pool σ entries) {i j : Fin entries.length} (hne : i ≠ j) (call : Call) :
    named ((t.log ++ [(i, call)]).filter fun c => c.1 = j) = t.own j := by
  rw [List.filter_append, List.filter_cons_of_neg (by simpa using hne), List.filter_nil, List.append_nil, own]

theorem apart_of_ne (hapart : entries.Pairwise fun a b => a.name.Apart b.name) {i j : Fin entries.length}
    (hne : i ≠ j) : entries[i].name.Apart entries[j].name := by
  have hpairs := List.pairwise_iff_getElem.1 hapart
  rcases Nat.lt_or_gt_of_ne (Fin.val_ne_of_ne hne) with hlt | hlt
  · exact hpairs i j i.2 j.2 hlt
  · exact ⟨(hpairs j i j.2 i.2 hlt).2, (hpairs j i j.2 i.2 hlt).1⟩

/-- The state that the calls of a job lead to when it makes one more. -/
theorem ownState_ask (t : Pool σ entries) (i : Fin entries.length) (call : Call) (job : Job) (source : σ) :
    ownState answer start { t.set i job with source, log := t.log ++ [(i, call)] } i =
      (answer entries[i].name call (t.ownState answer start i)).2 :=
  (congrArg (after answer start) (own_snoc_self t i call)).trans (after_snoc call)

/-- The calls for a collection are those of its job, as the names of the others are not looked up as its. -/
theorem callsFor_named (hapart : entries.Pairwise fun a b => a.name.Apart b.name) (t : Pool σ entries)
    (i : Fin entries.length) :
    callsFor entries[i].name (named t.log) = callsFor entries[i].name (t.own i) := by
  rw [own]
  induction t.log with
  | nil => rfl
  | cons call log ih =>
    obtain ⟨j, call⟩ := call
    have hcons (log : List (Fin entries.length × Call)) :
        named ((j, call) :: log) = (entries[j].name, call) :: named log := rfl
    by_cases hne : j = i
    · rw [List.filter_cons_of_pos (by simpa using hne), hcons, hcons, callsFor, callsFor,
        List.filter_cons, List.filter_cons]
      rw [callsFor, callsFor] at ih
      rw [ih]
    · rw [List.filter_cons_of_neg (by simpa using hne), hcons, ← ih, callsFor,
        List.filter_cons_of_neg]
      · rfl
      · rw [(apart_of_ne hapart hne).1]
        exact Bool.false_ne_true

/-! ## What holds at all times -/

theorem Fits.congr {i : Fin entries.length} {job : Job} (h : Fits s answer fates start t i job)
    (hown : u.own i = t.own i) : Fits s answer fates start u i job := by
  cases job with
  | waiting => exact hown.trans h
  | running left =>
    have hstate : u.ownState answer start i = t.ownState answer start i := congrArg (after answer start) hown
    rw [Fits, hstate]
    exact h
  | finished result => exact h

/-- A job that is at another stage leaves the others as they are. -/
theorem fits_set {i : Fin entries.length} {job : Job} (h : ∀ j, Fits s answer fates start t j (t.jobs j))
    (hjobs : u.jobs = Function.update t.jobs i job) (hjob : Fits s answer fates start u i job)
    (hothers : ∀ j, i ≠ j → u.own j = t.own j) (j : Fin entries.length) :
    Fits s answer fates start u j (u.jobs j) := by
  rw [hjobs]
  by_cases hne : i = j
  · obtain rfl := hne
    rw [Function.update_self]
    exact hjob
  · rw [Function.update_of_ne (Ne.symm hne)]
    exact (h j).congr (hothers j hne)

theorem sound_begin : Sound s answer fates start ({ source := start } : Pool σ entries) where
  source_eq := rfl
  fits _ := rfl
  recorded := ⟨Nat.zero_le _, rfl⟩

namespace Sound

variable (h : Sound s answer fates start t)

include h

/-- The source answers the call of a job as if the job were the only one. -/
theorem answer_eq (hseparate : Separate answer start)
    (hapart : entries.Pairwise fun a b => a.name.Apart b.name) (i : Fin entries.length) (call : Call) :
    (answer entries[i].name call t.source).1 =
      (answer entries[i].name call (t.ownState answer start i)).1 := by
  rw [h.source_eq]
  exact hseparate _ _ _ call (callsFor_named hapart t i)

/-- The next result that is recorded is that of the run alone. -/
theorem recorded_next {i : Fin entries.length} {b : BatchReport}
    {result : Except IntrospectionError Report} (hmain : t.main = .next i b)
    (hjob : t.jobs i = .finished result) :
    Recorded (s.runAlone answer start fates 0 entries) (match Session.record b entries[i] result with
      | .ok b' => .next (i + 1) b'
      | .error e => .closing (.error e)) := by
  have hrecorded := h.recorded
  have hfits := h.fits i
  rw [hmain] at hrecorded
  rw [hjob] at hfits
  have hlength : (s.runAlone answer start fates 0 entries).length = entries.length := List.length_mapIdx
  have hlt : i.val < (s.runAlone answer start fates 0 entries).length := by
    rw [hlength]
    exact i.2
  have hrun : (s.runAlone answer start fates 0 entries)[i.val] = (entries[i], result) := by
    have hresult : result = s.alone answer start (fates i) entries[i] := hfits
    rw [hresult]
    simp only [Session.runAlone, List.getElem_mapIdx, Nat.zero_add]
    rfl
  have hnext : Session.recordAll {} ((s.runAlone answer start fates 0 entries).take (i + 1)) =
      Session.record b entries[i] result := by
    rw [← List.take_append_getElem hlt, hrun, Session.recordAll_append, hrecorded.2]
    exact Session.recordAll_singleton b entries[i] result
  cases hrecord : Session.record b entries[i] result with
  | ok b' => exact ⟨hlt, hnext.trans hrecord⟩
  | error e =>
    change .error e = Session.recordAll {} (s.runAlone answer start fates 0 entries)
    rw [← List.take_append_drop (i + 1) (s.runAlone answer start fates 0 entries), Session.recordAll_append, hnext,
      hrecord]
    rfl

/-- A step keeps to what holds at all times. -/
theorem step (hseparate : Separate answer start)
    (hapart : entries.Pairwise fun a b => a.name.Apart b.name)
    (hstep : Step s answer fates workers t u) : Sound s answer fates start u := by
  cases hstep with
  | @start i waits first free =>
    refine ⟨h.source_eq, fits_set h.fits rfl ?_ fun _ _ => rfl, h.recorded⟩
    have hown : t.own i = [] := by
      have hfits := h.fits i
      rwa [waits] at hfits
    have hstate : (t.set i (.running (s.calls (fates i) entries[i]))).ownState answer start i = start :=
      congrArg (after answer start) hown
    rw [Fits, hstate]
    rfl
  | @ask i call next asks =>
    have hanswer := h.answer_eq hseparate hapart i call
    refine ⟨?_, fits_set h.fits rfl ?_ fun j hne => own_snoc_other t hne call, h.recorded⟩
    · change (answer entries[i].name call t.source).2 = after answer start (named (t.log ++ [(i, call)]))
      rw [named_snoc, after_snoc, ← h.source_eq]
    · have hfits := h.fits i
      rw [asks, Fits, Dialogue.on, ← hanswer] at hfits
      rw [Fits, ownState_ask]
      exact hfits
  | @finish i result done =>
    refine ⟨h.source_eq, fits_set h.fits rfl ?_ fun _ _ => rfl, h.recorded⟩
    have hfits := h.fits i
    rw [done] at hfits
    exact hfits
  | @record i b result collecting finished =>
    exact ⟨h.source_eq, fun j => (h.fits j).congr rfl, h.recorded_next collecting finished⟩
  | @leave b collected =>
    refine ⟨h.source_eq, fun j => (h.fits j).congr rfl, ?_⟩
    have hrecorded := h.recorded
    rw [collected] at hrecorded
    have hall : (s.runAlone answer start fates 0 entries).take entries.length = s.runAlone answer start fates 0 entries :=
      List.take_of_length_le (Nat.le_of_eq List.length_mapIdx)
    exact (hall ▸ hrecorded.2).symm
  | @close result closing finished =>
    refine ⟨h.source_eq, fun j => (h.fits j).congr rfl, ?_⟩
    have hrecorded := h.recorded
    rw [closing] at hrecorded
    exact hrecorded

end Sound

/-! ## Every schedule comes to an end -/

section Rank

variable (s : Session) (answer : Raw → Answering σ) (fates : Nat → Fate) (start : σ)

/-- The number of steps that a job has to take. -/
def left (t : Pool σ entries) (i : Fin entries.length) : Job → Nat
  | .waiting => (s.calls (fates i) entries[i]).length (answer entries[i].name) start + 2
  | .running left => left.length (answer entries[i].name) (t.ownState answer start i) + 1
  | .finished _ => 0

/-- The number of steps that the main thread may take. -/
def leftOf (collections : Nat) : Collecting → Nat
  | .next number _ => collections - number + 2
  | .closing _ => 1
  | .ended _ => 0

/-- The number of steps that are left to take. -/
def rank (t : Pool σ entries) : Nat :=
  ∑ i, left s answer fates start t i (t.jobs i) + leftOf entries.length t.main

end Rank

/-- A step of a job takes one of its own and leaves the others. -/
theorem rank_lt_of_job {i : Fin entries.length} {job : Job} (hjobs : u.jobs = Function.update t.jobs i job)
    (hmain : u.main = t.main) (hothers : ∀ j, i ≠ j → u.own j = t.own j)
    (hless : left s answer fates start u i job < left s answer fates start t i (t.jobs i)) :
    rank s answer fates start u < rank s answer fates start t := by
  have hself : left s answer fates start u i (u.jobs i) < left s answer fates start t i (t.jobs i) := by
    rwa [hjobs, Function.update_self]
  rw [rank, rank, hmain]
  refine Nat.add_lt_add_right (Finset.sum_lt_sum (fun j _ => ?_) ⟨i, Finset.mem_univ i, hself⟩) _
  by_cases hne : i = j
  · rw [← hne]
    exact Nat.le_of_lt hself
  · have hstate : u.ownState answer start j = t.ownState answer start j :=
      congrArg (after answer start) (hothers j hne)
    rw [hjobs, Function.update_of_ne (Ne.symm hne)]
    cases t.jobs j with
    | waiting => exact Nat.le_refl _
    | running d => rw [left, left, hstate]
    | finished r => exact Nat.le_refl _

/-- A step of the main thread leaves the jobs as they are. -/
theorem rank_lt_of_main {main : Collecting} (hless : leftOf entries.length main < leftOf entries.length t.main) :
    rank s answer fates start { t with main } < rank s answer fates start t :=
  Nat.add_lt_add_left hless _

theorem Sound.rank_lt (h : Sound s answer fates start t) (hseparate : Separate answer start)
    (hapart : entries.Pairwise fun a b => a.name.Apart b.name)
    (hstep : Step s answer fates workers t u) :
    rank s answer fates start u < rank s answer fates start t := by
  cases hstep with
  | @start i waits first free =>
    refine rank_lt_of_job rfl rfl (fun _ _ => rfl) ?_
    have hfits := h.fits i
    rw [waits] at hfits ⊢
    have hstate : (t.set i (.running (s.calls (fates i) entries[i]))).ownState answer start i = start :=
      congrArg (after answer start) hfits
    rw [left, left, hstate]
    exact Nat.lt_succ_self _
  | @ask i call next asks =>
    refine rank_lt_of_job rfl rfl (fun j hne => own_snoc_other t hne call) ?_
    rw [asks, left, left, ownState_ask, h.answer_eq hseparate hapart i call, Dialogue.length]
    exact Nat.lt_succ_self _
  | @finish i result done =>
    refine rank_lt_of_job rfl rfl (fun _ _ => rfl) ?_
    rw [done]
    exact Nat.succ_pos _
  | @record i b result collecting finished =>
    refine rank_lt_of_main ?_
    rw [collecting]
    have hlt := i.2
    cases Session.record b entries[i] result with
    | ok b' =>
      change entries.length - (i + 1) + 2 < entries.length - i + 2
      omega
    | error e =>
      change 1 < entries.length - i + 2
      omega
  | @leave b collected =>
    refine rank_lt_of_main ?_
    rw [collected]
    change 1 < entries.length - entries.length + 2
    omega
  | @close result closing finished =>
    refine rank_lt_of_main ?_
    rw [closing]
    exact Nat.zero_lt_one

/-- Until the main thread has ended there is a step to take. -/
theorem Sound.progress (h : Sound s answer fates start t) (hworkers : 0 < workers) :
    (∃ result, t.main = .ended result) ∨ ∃ u, Step s answer fates workers t u := by
  by_cases hrunning : ∃ i d, t.jobs i = .running d
  · obtain ⟨i, d, hjob⟩ := hrunning
    cases d with
    | done result => exact .inr ⟨_, .finish hjob⟩
    | ask call next => exact .inr ⟨_, .ask hjob⟩
  by_cases hwaiting : ∃ i, t.jobs i = .waiting
  · -- No worker has a job, so the first of the jobs that wait can be started.
    obtain ⟨i, hjob, hfirst⟩ := wellFounded_lt.has_min {i | t.jobs i = .waiting} hwaiting
    have hbusy : t.busy = 0 := by
      refine List.countP_eq_zero.2 fun j _ => ?_
      cases hj : t.jobs j with
      | waiting => exact Bool.false_ne_true
      | running d => exact absurd ⟨j, d, hj⟩ hrunning
      | finished result => exact Bool.false_ne_true
    have hfree : t.busy < workers := by rwa [hbusy]
    exact .inr ⟨_, .start hjob (fun j hlt hj => hfirst j hj hlt) hfree⟩
  have hover (i : Fin entries.length) : ∃ result, t.jobs i = .finished result := by
    cases hjob : t.jobs i with
    | waiting => exact absurd ⟨i, hjob⟩ hwaiting
    | running d => exact absurd ⟨i, d, hjob⟩ hrunning
    | finished result => exact ⟨result, rfl⟩
  cases hmain : t.main with
  | ended result => exact .inl ⟨result, rfl⟩
  | closing result => exact .inr ⟨_, .close hmain hover⟩
  | next number b =>
    have hrecorded := h.recorded
    rw [hmain] at hrecorded
    have hle : number ≤ entries.length := by
      have hlength : (s.runAlone answer start fates 0 entries).length = entries.length := List.length_mapIdx
      exact hlength ▸ hrecorded.1
    rcases Nat.lt_or_eq_of_le hle with hlt | rfl
    · obtain ⟨result, hjob⟩ := hover ⟨number, hlt⟩
      exact .inr ⟨_, .record (i := ⟨number, hlt⟩) hmain hjob⟩
    · exact .inr ⟨_, .leave hmain⟩

/-- Every schedule ends with what is recorded about the runs alone. -/
theorem begin_ends (hseparate : Separate answer start)
    (hapart : entries.Pairwise fun a b => a.name.Apart b.name) (hworkers : 0 < workers) :
    Inevitable (Step s answer fates workers)
      (fun t => t.main = .ended (Session.recordAll {} (s.runAlone answer start fates 0 entries)))
      ({ source := start } : Pool σ entries) := by
  refine inevitable_of_rank Nat.lt_wfRel.wf (rank s answer fates start) (fun t ht => ?_)
    (fun t u ht hstep => ⟨ht.step hseparate hapart hstep, ht.rank_lt hseparate hapart hstep⟩) sound_begin
  rcases ht.progress hworkers with ⟨result, hmain⟩ | hnext
  · have hrecorded := ht.recorded
    rw [hmain] at hrecorded
    exact .inl (hmain.trans (congrArg Collecting.ended hrecorded))
  · exact .inr hnext

end Pool

/-- **Runs do not depend on the number of workers.** When the answers of a source for a collection depend
only on the earlier calls for it, no name is looked up as another, no run has a limit of time, and each run alone
returns a report or fails with an error of its own, then one run after the other ends with a report, and so does
every schedule of every pool, whatever its runs meet with, with a report that agrees. The results and the failures
are those of the runs alone, in the order of the collections, and together they have the names of all
collections. -/
theorem introspectAll_any_schedule {σ : Type} (s : Session) (answer : Raw → Answering σ) (start : σ)
    (entries : List CollectionSettings) (hseparate : Separate answer start)
    (hapart : entries.Pairwise fun a b => a.name.Apart b.name)
    (hkeys : ∀ entry ∈ entries, entry.name.isKey = true)
    (htimeouts : ∀ entry ∈ entries, (s.config.samplingOf entry).timeout? = none)
    (hown : ∀ run ∈ s.runAlone answer start s.fate 0 entries, ∀ e, run.2 = .error e → e.isOwn = true) :
    ∃ b : BatchReport, s.introspectEach answer start entries = .ok b ∧
      (∀ workers fates, 0 < workers → Inevitable (Pool.Step s answer fates workers)
        (fun t => ∃ b', t.main = .ended (.ok b') ∧ b.Agrees b') ({ source := start } : Pool σ entries)) ∧
      b.reports = Session.reportsOf (s.runAlone answer start s.fate 0 entries) ∧
      b.failures = Session.failuresOf (s.runAlone answer start s.fate 0 entries) ∧
      (b.reports.map Prod.fst).Sublist (entries.map (·.name)) ∧
      (b.failures.map Prod.fst).Sublist (entries.map (·.name)) ∧
      (b.reports.map Prod.fst ++ b.failures.map Prod.fst).Perm (entries.map (·.name)) := by
  have hnames : (s.runAlone answer start s.fate 0 entries).map (fun run => run.1.name) =
      entries.map (·.name) := by
    have hfst : (s.runAlone answer start s.fate 0 entries).map Prod.fst = entries :=
      Session.runAlone_map_fst 0 entries
    rw [← hfst, List.map_map, hfst]
    rfl
  obtain ⟨hreports, hfailures, hperm⟩ := Session.names_of_runs (s.runAlone answer start s.fate 0 entries)
  rw [hnames] at hreports hfailures hperm
  refine ⟨_, Session.introspectEach_eq hseparate hapart hkeys hown, fun workers fates hworkers => ?_, rfl, rfl,
    hreports, hfailures, hperm⟩
  have hrecorded : Session.recordAll {} (s.runAlone answer start fates 0 entries) =
      .ok (Session.extended {} (s.runAlone answer start fates 0 entries)) :=
    Session.recordAll_runAlone hapart hkeys (Session.isOwn_runAlone htimeouts hown)
  refine (Pool.begin_ends hseparate hapart hworkers).mono fun t ht => ?_
  exact ⟨_, ht.trans (congrArg Collecting.ended hrecorded), Session.agrees_runAlone htimeouts⟩

/-- A source that answers for a collection from the earlier calls for it. -/
def logged (reply : Raw → List (Raw × Call) → Call → Except SourceFault Raw) :
    Raw → Answering (List (Raw × Call)) :=
  fun name call log => (reply name (callsFor name log) call, log ++ [(name, call)])

theorem after_logged {reply : Raw → List (Raw × Call) → Call → Except SourceFault Raw}
    (log calls : List (Raw × Call)) : after (logged reply) log calls = log ++ calls := by
  induction calls generalizing log with
  | nil => exact (List.append_nil log).symm
  | cons call calls ih => exact (ih _).trans (List.append_assoc log [call] calls)

theorem separate_logged (reply : Raw → List (Raw × Call) → Call → Except SourceFault Raw) :
    Separate (logged reply) [] := by
  intro calls calls' name call h
  rw [after_logged, after_logged]
  exact congrArg (reply name · call) h

/-- The number of documents that calls have asked for. -/
def asked (calls : List (Raw × Call)) : Nat :=
  (calls.map fun call => match call.2 with | .count => 0 | .draw size => size).sum

/-- A session over collections of some source, with the clock that one run after the other reads. -/
def Session.over (collections : List CollectionSettings) (sampling : SamplingSettings)
    (clock : (run reading : Nat) → Binary64) : Session where
  config := { source := { type := .text "any" }, collections, sampling, maxParallel := 2 }
  around := { server := .unreachable "", choices := fun _ => .inOrder }
  times _ := { started := ⟨⟨2024, 1, 1⟩, 0, 0, 0, 0, none⟩ }
  clock

/-- Of three collections, which are drawn from one document after the other, one breaks down at its second draw.
The others have their reports, whatever order two workers make the draws in. -/
theorem introspectAll_any_schedule_down :
    let s := Session.over [{ name := .text "users" }, { name := .text "down" }, { name := .text "items" }]
      { initialBatchSize := 1, batchSize := 1 } fun _ _ => .zero
    let held : Raw → List Raw := fun name =>
      if name.same (.text "users") then [.ofFields [("name", .text "Ada")], .ofFields [("name", .text "Bob")]]
      else [.ofFields [("sku", .int 1)], .ofFields [("price", .int 2)], .ofFields [("sku", .int 3)]]
    let answer := logged fun name earlier call =>
      match call with
      | .count => .ok (.int 4)
      | .draw size =>
        if name.same (.text "down") && 0 < asked earlier then .error (.raised "OSError" "connection lost")
        else .ok (.list (((held name).drop (asked earlier)).take size))
    ∃ b : BatchReport, s.introspectEach answer [] s.config.collections = .ok b ∧
      b.reports.map (fun r => (r.1.text?, r.2.metrics.totalSampled, r.2.metrics.uniqueFieldPaths)) =
        [(some "users", 2, 1), (some "items", 3, 2)] ∧
      b.failures.map (·.1.text?) = [some "down"] ∧
      ∀ fates, Inevitable (Pool.Step s answer fates 2) (fun t => ∃ b', t.main = .ended (.ok b') ∧ b.Agrees b')
        ({ source := [] } : Pool (List (Raw × Call)) s.config.collections) := by
  intro s held answer
  have hown : ∀ run ∈ s.runAlone answer [] s.fate 0 s.config.collections, ∀ e, run.2 = .error e → e.isOwn = true := by
    decide +kernel
  obtain ⟨b, hb, hpool, hreports, hfailures, -⟩ := introspectAll_any_schedule s answer [] s.config.collections
    (separate_logged _) (by decide) (by decide) (by decide) hown
  refine ⟨b, hb, ?_, ?_, fun fates => hpool 2 fates (by decide)⟩
  · rw [hreports]
    decide +kernel
  · rw [hfailures]
    decide +kernel

/-- With a limit of time the workers make a difference. The clock goes on by a second with each reading: two runs
that read it one after the other end in time, and two that read it in turn do not. And a name that no result can be kept
under has neither a report nor a failure, although the run over its collection fails with an error of its own. -/
theorem introspectAll_dealt_clock :
    let answer : Raw → Answering Unit := fun name call _ =>
      (match call with
      | .count => if name.isKey then .ok (.int 1) else .error (.misuse name.keyMisuse)
      | .draw _ => .ok (.list []), ())
    let s := Session.over [{ name := .text "users" }, { name := .text "items" }] { timeout? := some (.whole 2) }
      fun run reading => .ofInt (2 * run + reading)
    let inTurn : Nat → Fate := fun run => { s.fate run with clock := fun reading => .ofInt (2 * reading + run) }
    let t := Session.over [{ name := .list [.int 1], typeName := .text "One" }, { name := .text "users" }] {}
      fun _ _ => .zero
    Separate answer () ∧
      (∃ b, s.introspectEach answer () s.config.collections = .ok b ∧
        b.reports.map (·.1.text?) = [some "users", some "items"] ∧ b.failures.length = 0) ∧
      Inevitable (Pool.Step s answer inTurn 2)
        (fun p => ∃ b, p.main = .ended (.ok b) ∧ b.reports.length = 0 ∧
          b.failures.map (·.1.text?) = [some "users", some "items"])
        ({ source := () } : Pool Unit s.config.collections) ∧
      (∀ run ∈ t.runAlone answer () t.fate 0 t.config.collections, ∀ e, run.2 = .error e → e.isOwn = true) ∧
      t.introspectEach answer () t.config.collections = .error (.misuse (.notKey "list")) := by
  intro answer s inTurn t
  have hseparate : Separate answer () := fun _ _ _ _ _ => rfl
  refine ⟨hseparate, ?_, ?_, by decide +kernel, by rfl⟩
  · have hown : ∀ run ∈ s.runAlone answer () s.fate 0 s.config.collections, ∀ e, run.2 = .error e → e.isOwn = true := by
      decide +kernel
    exact ⟨_, Session.introspectEach_eq hseparate (by decide) (by decide) hown, by decide +kernel, by decide +kernel⟩
  · have hown : ∀ run ∈ s.runAlone answer () inTurn 0 s.config.collections, ∀ e, run.2 = .error e → e.isOwn = true := by
      decide +kernel
    refine (Pool.begin_ends hseparate (by decide) (by decide)).mono fun p hp => ?_
    rw [Session.recordAll_runAlone (by decide) (by decide) hown] at hp
    exact ⟨_, hp, by decide +kernel, by decide +kernel⟩

end DocSchema
