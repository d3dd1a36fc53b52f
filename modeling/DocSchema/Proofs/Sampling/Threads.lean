import DocSchema.Proofs.Sampling.Turn

/-!
# A run on two threads

A run that fetches ahead as it is carried out: the main thread waits for a batch, asks for the next one,
merges the batch document by document and judges it, while a single worker fetches. Either may take its
next step at any time, so that a fetch may be over before the merging begins, or run on after the main
thread has stopped. However the steps of the two fall out, the run ends, and it ends as one that fetches
in turn.

- `Inevitable`, `inevitable_of_rank`: a goal that every schedule reaches.
- `Threads`, `Threads.Step`: the two threads and what either may do next.
- `Threads.Sound`: what holds of the threads at all times; `Sound.step` is the step lemma.
- `threads_end`: every schedule ends as the run that fetches in turn.
- `run_prefetch_irrelevant`: the same for the run as a whole.
-/

namespace DocSchema.Sampling

/-! ## Goals that every schedule reaches -/

/-- Whatever steps are taken from a state on, a goal is reached after finitely many of them, and until
then there is always a step to take. -/
inductive Inevitable {α : Type} (step : α → α → Prop) (goal : α → Prop) : α → Prop
  | now {a : α} (reached : goal a) : Inevitable step goal a
  | later {a : α} (progress : ∃ b, step a b) (next : ∀ b, step a b → Inevitable step goal b) :
      Inevitable step goal a

theorem inevitable_of_rank {α β : Type} {step : α → α → Prop} {goal invariant : α → Prop}
    {less : β → β → Prop} (hwf : WellFounded less) (rank : α → β)
    (hprogress : ∀ a, invariant a → goal a ∨ ∃ b, step a b)
    (hstep : ∀ a b, invariant a → step a b → invariant b ∧ less (rank b) (rank a)) {a : α}
    (h : invariant a) : Inevitable step goal a := by
  induction hrank : rank a using hwf.induction generalizing a with
  | _ r ih =>
    rcases hprogress a h with hgoal | hnext
    · exact .now hgoal
    · refine .later hnext fun b hb => ?_
      obtain ⟨hb', hless⟩ := hstep a b h hb
      exact ih _ (hrank ▸ hless) hb' rfl

theorem Inevitable.mono {α : Type} {step : α → α → Prop} {goal goal' : α → Prop} {a : α}
    (h : Inevitable step goal a) (himp : ∀ b, goal b → goal' b) : Inevitable step goal' a := by
  induction h with
  | now reached => exact .now (himp _ reached)
  | later progress _ ih => exact .later progress ih

/-! ## The threads -/

variable {σ : Type}

/-- What the worker is about: nothing, a fetch that it has been asked for and may begin, one that it
has begun, or one whose answer is there. -/
inductive Job (σ : Type)
  | idle
  | queued (number size : Nat)
  | running (number size : Nat)
  | done (f : Fetched σ)

namespace Job

/-- The request for the next batch after some batches and documents; there is none when the budget is
spent. -/
def request (plan : Plan σ) (batches sampled : Nat) : Job σ :=
  if nextSize plan.sampling batches sampled = 0 then .idle
  else .queued (batches + 1) (nextSize plan.sampling batches sampled)

/-- A fetch that has not begun is cancelled; one that has is not. -/
def cancel : Job σ → Job σ
  | .queued _ _ => .idle
  | job => job

/-- Whether the worker has nothing left to do. -/
def isOver : Job σ → Bool
  | .idle | .done _ => true
  | _ => false

/-- The number of steps that the worker has to take. -/
def steps : Job σ → Nat
  | .queued _ _ => 2
  | .running _ _ => 1
  | _ => 0

end Job

/-- What the main thread is about: waiting for a batch, merging one (of a number of documents, from an
index on, after some were merged), leaving the loop, waiting for the worker to be over, or nothing. -/
inductive Phase (σ : Type)
  | waiting (p : Progress σ)
  | merging (p : Progress σ) (count index : Nat) (rest : List Raw) (merged : Accumulator × List Notice)
  | leaving (e : Ending σ)
  | closing (e : Ending σ)
  | ended (e : Ending σ)

namespace Phase

/-- The number of documents that have come so far. -/
def sampled : Phase σ → Nat
  | .waiting p => p.sampled
  | .merging p count _ _ _ => p.sampled + count
  | .leaving e | .closing e | .ended e => e.2.sampled

/-- The number of steps that the main thread may take before the next batch comes. -/
def steps : Phase σ → Nat
  | .waiting _ => 3
  | .merging _ _ _ rest _ => 4 + rest.length
  | .leaving _ => 2
  | .closing _ => 1
  | .ended _ => 0

end Phase

/-- Merges a document of a batch after some others. -/
def mergeNext (plan : Plan σ) (p : Progress σ) (index : Nat) (r : Raw)
    (merged : Accumulator × List Notice) : Accumulator × List Notice :=
  let next := ingest plan.extraction (p.batches + 1) index r merged.1
  (next.1, merged.2 ++ next.2)

/-- The two threads, and the state of the store, which the worker alone uses. -/
structure Threads (σ : Type) where
  main : Phase σ
  job : Job σ
  store : σ

namespace Threads

/-- The threads when the first batch has been asked for. -/
def begin (plan : Plan σ) (p : Progress σ) : Threads σ where
  main := if p.size plan = 0 then .leaving (.ok .maxSamplesReached, p) else .waiting p
  job := .request plan p.batches p.sampled
  store := p.store

/-- What either thread may do next. -/
inductive Step (plan : Plan σ) (share : Amount) : Threads σ → Threads σ → Prop
  /-- The worker begins a fetch. -/
  | start {main : Phase σ} {number size : Nat} {store : σ} :
      Step plan share ⟨main, .queued number size, store⟩ ⟨main, .running number size, store⟩
  /-- The worker ends a fetch. -/
  | finish {main : Phase σ} {number size : Nat} {store : σ} :
      Step plan share ⟨main, .running number size, store⟩
        ⟨main, .done (fetch plan number size store), (fetch plan number size store).store⟩
  /-- The main thread receives a failure. -/
  | fail {p : Progress σ} {f : Fetched σ} {store : σ} {e : RunError} (answer : f.batch = .error e) :
      Step plan share ⟨.waiting p, .done f, store⟩
        ⟨.closing (.error e, p.fetched (p.size plan) f), .idle, store⟩
  /-- The main thread receives an empty batch. -/
  | exhaust {p : Progress σ} {f : Fetched σ} {store : σ} (answer : f.batch = .ok []) :
      Step plan share ⟨.waiting p, .done f, store⟩
        ⟨.leaving (.ok .exhausted, p.fetched (p.size plan) f), .idle, store⟩
  /-- The main thread receives a batch, and asks for the next one before it merges any of it. -/
  | receive {p : Progress σ} {f : Fetched σ} {store : σ} {r : Raw} {rs : List Raw}
      (answer : f.batch = .ok (r :: rs)) :
      Step plan share ⟨.waiting p, .done f, store⟩
        ⟨.merging (p.fetched (p.size plan) f) (r :: rs).length 0 (r :: rs) (p.accumulator, []),
          .request plan (p.batches + 1) (p.sampled + (r :: rs).length), store⟩
  /-- The main thread merges a document. -/
  | merge {p : Progress σ} {count index : Nat} {r : Raw} {rest : List Raw}
      {merged : Accumulator × List Notice} {job : Job σ} {store : σ} :
      Step plan share ⟨.merging p count index (r :: rest) merged, job, store⟩
        ⟨.merging p count (index + 1) rest (mergeNext plan p index r merged), job, store⟩
  /-- After a batch the main thread has had enough. -/
  | stop {p : Progress σ} {count index : Nat} {merged : Accumulator × List Notice} {job : Job σ} {store : σ}
      {reason : StopReason} (enough : verdict? plan.sampling share (settled plan p count merged).stable
        (settled plan p count merged).sampled = some (.ok reason)) :
      Step plan share ⟨.merging p count index [] merged, job, store⟩
        ⟨.leaving (.ok reason, settled plan p count merged), job, store⟩
  /-- After a batch the main thread breaks off, and leaves the fetch that it has asked for to the worker. -/
  | breakOff {p : Progress σ} {count index : Nat} {merged : Accumulator × List Notice} {job : Job σ} {store : σ}
      {e : RunError} (broken : verdict? plan.sampling share (settled plan p count merged).stable
        (settled plan p count merged).sampled = some (.error e)) :
      Step plan share ⟨.merging p count index [] merged, job, store⟩
        ⟨.closing (.error e, settled plan p count merged), job, store⟩
  /-- After a batch the main thread waits for the next one, which it has asked for. -/
  | wait {p : Progress σ} {count index : Nat} {merged : Accumulator × List Notice} {job : Job σ} {store : σ}
      (more : verdict? plan.sampling share (settled plan p count merged).stable
        (settled plan p count merged).sampled = none) (asked : job ≠ .idle) :
      Step plan share ⟨.merging p count index [] merged, job, store⟩
        ⟨.waiting (settled plan p count merged), job, store⟩
  /-- After a batch the main thread finds that it has asked for nothing. -/
  | spent {p : Progress σ} {count index : Nat} {merged : Accumulator × List Notice} {store : σ}
      (more : verdict? plan.sampling share (settled plan p count merged).stable
        (settled plan p count merged).sampled = none) :
      Step plan share ⟨.merging p count index [] merged, .idle, store⟩
        ⟨.leaving (.ok .maxSamplesReached, settled plan p count merged), .idle, store⟩
  /-- The main thread cancels the fetch that is left over, if it still can. -/
  | cancel {e : Ending σ} {job : Job σ} {store : σ} :
      Step plan share ⟨.leaving e, job, store⟩ ⟨.closing e, job.cancel, store⟩
  /-- The main thread ends when the worker is over, whatever it has fetched. -/
  | close {e : Ending σ} {job : Job σ} {store : σ} (finished : job.isOver = true) :
      Step plan share ⟨.closing e, job, store⟩ ⟨.ended e, job, store⟩

end Threads

/-! ## What holds at all times -/

section Sound

variable {plan : Plan σ} {share : Amount}

/-- What merging a batch comes to when the rest of it is merged. -/
def mergeRest (plan : Plan σ) (p : Progress σ) (index : Nat) (rest : List Raw)
    (merged : Accumulator × List Notice) : Accumulator × List Notice :=
  let further := ingestAll plan.extraction (p.batches + 1) index rest merged.1
  (further.1, merged.2 ++ further.2)

theorem mergeRest_nil (p : Progress σ) (index : Nat) (merged : Accumulator × List Notice) :
    mergeRest plan p index [] merged = merged := by
  rw [mergeRest, ingestAll, List.append_nil]

theorem mergeRest_cons (p : Progress σ) (index : Nat) (r : Raw) (rest : List Raw)
    (merged : Accumulator × List Notice) :
    mergeRest plan p index (r :: rest) merged =
      mergeRest plan p (index + 1) rest (mergeNext plan p index r merged) := by
  simp only [mergeRest, mergeNext, ingestAll, List.append_assoc]

/-- A job is the fetch of the batch that a progress waits for, and the store is in the state in which it
has been left so far. -/
inductive Job.Serves (plan : Plan σ) (p : Progress σ) : Job σ → σ → Prop
  | idle (none_left : p.size plan = 0) : Serves plan p .idle p.store
  | queued (some_left : p.size plan ≠ 0) : Serves plan p (.queued (p.batches + 1) (p.size plan)) p.store
  | running (some_left : p.size plan ≠ 0) : Serves plan p (.running (p.batches + 1) (p.size plan)) p.store
  | done (some_left : p.size plan ≠ 0) : Serves plan p (.done (p.fetch plan)) (p.fetch plan).store

/-- The threads are on the way to an ending: the run that fetches in turn has it from here on, and the
worker is about what the main thread waits for. -/
inductive Threads.Sound (plan : Plan σ) (share : Amount) (e : Ending σ) : Threads σ → Prop
  | waiting {p : Progress σ} {job : Job σ} {store : σ} (cancelled : p.cancelled = false)
      (some_left : p.size plan ≠ 0) (serves : job.Serves plan p store)
      (same : sequential plan { share } p = e) : Sound plan share e ⟨.waiting p, job, store⟩
  | merging {p q : Progress σ} {count index : Nat} {rest : List Raw} {merged : Accumulator × List Notice}
      {job : Job σ} {store : σ} (cancelled : q.cancelled = false)
      (settles : settled plan p count (mergeRest plan p index rest merged) = q)
      (serves : job.Serves plan q store) (same : judged plan share id (sequential plan { share }) q = e) :
      Sound plan share e ⟨.merging p count index rest merged, job, store⟩
  | leaving {job : Job σ} {store : σ} : Sound plan share e ⟨.leaving e, job, store⟩
  | closing {job : Job σ} {store : σ} : Sound plan share e ⟨.closing e, job, store⟩
  | ended {job : Job σ} {store : σ} : Sound plan share e ⟨.ended e, job, store⟩

namespace Job.Serves

variable {p : Progress σ} {job : Job σ} {store : σ} {number size : Nat}

theorem of_request : (Job.request plan p.batches p.sampled).Serves plan p p.store := by
  rw [Job.request]
  split
  · rename_i h
    exact .idle h
  · rename_i h
    exact .queued h

theorem start (h : (Job.queued number size).Serves plan p store) :
    (Job.running number size).Serves plan p store := by
  cases h with
  | queued some_left => exact .running some_left

theorem finish (h : (Job.running number size).Serves plan p store) :
    (Job.done (fetch plan number size store)).Serves plan p (fetch plan number size store).store := by
  cases h with
  | running some_left => exact .done some_left

theorem some_left (h : job.Serves plan p store) (hjob : job ≠ .idle) : p.size plan ≠ 0 := by
  cases h with
  | idle _ => exact absurd rfl hjob
  | queued some_left | running some_left | done some_left => exact some_left

end Job.Serves

namespace Threads

variable {e : Ending σ} {t u : Threads σ}

theorem sound_begin {p : Progress σ} (hp : p.cancelled = false) :
    Sound plan share (sequential plan { share } p) (begin plan p) := by
  rw [begin]
  by_cases hsize : p.size plan = 0
  · rw [if_pos hsize, sequential_of_size_eq_zero hsize]
    exact .leaving
  · rw [if_neg hsize]
    exact .waiting hp hsize .of_request rfl

/-- What the main thread waits for, once it is there, is what the run that fetches in turn is answered. -/
theorem Sound.answered {p : Progress σ} {f : Fetched σ} {store : σ} (hcancels : plan.store.NeverCancels)
    (h : Sound plan share e ⟨.waiting p, .done f, store⟩) :
    p.size plan ≠ 0 ∧ (p.fetched (p.size plan) f).cancelled = false ∧ store = f.store ∧
      Sampling.answered plan share id (sequential plan { share }) (p.fetched (p.size plan) f) f.batch = e := by
  cases h with
  | waiting cancelled some_left serves same =>
    cases serves with
    | done _ =>
      refine ⟨some_left, cancelled_fetched hcancels cancelled, rfl, ?_⟩
      rw [← same, sequential_eq_turn hcancels cancelled, turn, if_neg some_left]

/-- A step of the worker leaves the threads on the way to the same ending. -/
theorem Sound.worker {main : Phase σ} {job job' : Job σ} {store store' : σ}
    (h : Sound plan share e ⟨main, job, store⟩)
    (hstep : ∀ p : Progress σ, job.Serves plan p store → job'.Serves plan p store') :
    Sound plan share e ⟨main, job', store'⟩ := by
  cases h with
  | waiting cancelled some_left serves same => exact .waiting cancelled some_left (hstep _ serves) same
  | merging cancelled settles serves same => exact .merging cancelled settles (hstep _ serves) same
  | leaving => exact .leaving
  | closing => exact .closing
  | ended => exact .ended

/-- Whatever either thread does next, the threads stay on the way to the same ending. -/
theorem Sound.step (hcancels : plan.store.NeverCancels) (h : Sound plan share e t)
    (hstep : Step plan share t u) : Sound plan share e u := by
  cases hstep with
  | start => exact h.worker fun _ => .start
  | finish => exact h.worker fun _ => .finish
  | fail answer =>
    obtain ⟨-, -, -, hanswer⟩ := h.answered hcancels
    rw [answer] at hanswer
    subst hanswer
    exact .closing
  | exhaust answer =>
    obtain ⟨-, -, -, hanswer⟩ := h.answered hcancels
    rw [answer] at hanswer
    subst hanswer
    exact .leaving
  | receive answer =>
    obtain ⟨-, hcancelled, rfl, hanswer⟩ := h.answered hcancels
    rw [answer] at hanswer
    refine .merging ?_ rfl .of_request hanswer
    exact hcancelled
  | merge =>
    cases h with
    | merging cancelled settles serves same =>
      rw [mergeRest_cons] at settles
      exact .merging cancelled settles serves same
  | stop enough =>
    cases h with
    | merging cancelled settles serves same =>
      rw [mergeRest_nil] at settles
      subst settles
      rw [judged, enough] at same
      subst same
      exact .leaving
  | breakOff broken =>
    cases h with
    | merging cancelled settles serves same =>
      rw [mergeRest_nil] at settles
      subst settles
      rw [judged, broken] at same
      subst same
      exact .closing
  | wait more asked =>
    cases h with
    | merging cancelled settles serves same =>
      rw [mergeRest_nil] at settles
      subst settles
      rw [judged, more] at same
      exact .waiting cancelled (serves.some_left asked) serves same
  | spent more =>
    cases h with
    | merging cancelled settles serves same =>
      rw [mergeRest_nil] at settles
      subst settles
      rw [judged, more] at same
      cases serves with
      | idle none_left =>
        rw [sequential_of_size_eq_zero none_left] at same
        subst same
        exact .leaving
  | cancel =>
    cases h with
    | leaving => exact .closing
  | close finished =>
    cases h with
    | closing => exact .ended

/-- Until the threads have ended there is a step that one of them may take. -/
theorem Sound.progress (h : Sound plan share e t) : t.main = .ended e ∨ ∃ u, Step plan share t u := by
  cases h with
  | @waiting p job store cancelled some_left serves same =>
    right
    cases serves with
    | idle none_left => exact absurd none_left some_left
    | queued _ => exact ⟨_, .start⟩
    | running _ => exact ⟨_, .finish⟩
    | done _ =>
      cases hanswer : (p.fetch plan).batch with
      | error e => exact ⟨_, .fail hanswer⟩
      | ok batch =>
        cases batch with
        | nil => exact ⟨_, .exhaust hanswer⟩
        | cons r rs => exact ⟨_, .receive hanswer⟩
  | @merging p q count index rest merged job store cancelled settles serves same =>
    right
    cases rest with
    | cons r rest => exact ⟨_, .merge⟩
    | nil =>
      cases hverdict : verdict? plan.sampling share (settled plan p count merged).stable
          (settled plan p count merged).sampled with
      | some ending =>
        cases ending with
        | ok reason => exact ⟨_, .stop hverdict⟩
        | error e => exact ⟨_, .breakOff hverdict⟩
      | none =>
        cases job with
        | idle => exact ⟨_, .spent hverdict⟩
        | queued | running | done => exact ⟨_, .wait hverdict (by intro h; cases h)⟩
  | leaving => exact .inr ⟨_, .cancel⟩
  | @closing job store =>
    right
    cases job with
    | queued number size => exact ⟨_, .start⟩
    | running number size => exact ⟨_, .finish⟩
    | idle | done => exact ⟨_, .close rfl⟩
  | ended => exact .inl rfl

end Threads

/-! ## Every schedule ends -/

/-- Pairs in order of the first parts, and of the second ones where the first are equal. -/
def Below : Nat × Nat → Nat × Nat → Prop :=
  Prod.Lex (· < ·) (· < ·)

theorem wellFounded_below : WellFounded Below :=
  (Prod.lex Nat.lt_wfRel Nat.lt_wfRel).wf

namespace Threads

variable {e : Ending σ} {t u : Threads σ}

/-- What every step lowers: what is left of the budget, and then the number of steps that the two threads
may take before more of it is taken. -/
def rank (plan : Plan σ) (t : Threads σ) : Nat × Nat :=
  (plan.sampling.maxSamples - t.main.sampled, t.main.steps + t.job.steps)

theorem steps_cancel_le (job : Job σ) : job.cancel.steps ≤ job.steps := by
  cases job with
  | queued => exact Nat.zero_le _
  | idle | running | done => exact Nat.le_refl _

theorem Sound.rank_lt (hcancels : plan.store.NeverCancels) (h : Sound plan share e t)
    (hstep : Step plan share t u) : Below (u.rank plan) (t.rank plan) := by
  cases hstep with
  | start => exact .right _ (by simp only [Job.steps]; omega)
  | finish => exact .right _ (by simp only [Job.steps]; omega)
  | fail answer => exact .right _ (by simp only [Phase.steps, Job.steps]; omega)
  | exhaust answer => exact .right _ (by simp only [Phase.steps, Job.steps]; omega)
  | receive answer =>
    obtain ⟨hsize, -⟩ := h.answered hcancels
    exact .left _ _ (budget_lt hsize _)
  | merge => exact .right _ (by simp only [Phase.steps, List.length_cons]; omega)
  | stop enough => exact .right _ (by simp only [Phase.steps, List.length_nil]; omega)
  | breakOff broken => exact .right _ (by simp only [Phase.steps, List.length_nil]; omega)
  | wait more asked => exact .right _ (by simp only [Phase.steps, List.length_nil]; omega)
  | spent more => exact .right _ (by simp only [Phase.steps, List.length_nil]; omega)
  | @cancel e job store =>
    have hjob := steps_cancel_le job
    exact .right _ (by simp only [Phase.steps]; omega)
  | close finished => exact .right _ (by simp only [Phase.steps]; omega)

end Threads

/-- However the steps of the two threads fall out, they end as the run that fetches in turn. -/
theorem threads_end (hcancels : plan.store.NeverCancels) {p : Progress σ} (hp : p.cancelled = false) :
    Inevitable (Threads.Step plan share) (fun t => t.main = .ended (sequential plan { share } p))
      (Threads.begin plan p) :=
  inevitable_of_rank wellFounded_below (Threads.rank plan) (fun _ h => h.progress)
    (fun _ _ h hstep => ⟨h.step hcancels hstep, h.rank_lt hcancels hstep⟩) (Threads.sound_begin hp)

end Sound

/-! ## The run -/

/-- The plan of a run that fetches in turn and is otherwise the same. -/
def Plan.inTurn (plan : Plan σ) : Plan σ :=
  { plan with sampling := { plan.sampling with prefetch := .bool false } }

/-- A turn does not ask whether a run is to fetch ahead. -/
theorem turn_inTurn (plan : Plan σ) (share : Amount) (left : Progress σ → Progress σ)
    (next : Progress σ → Ending σ) : turn plan.inTurn share left next = turn plan share left next := rfl

theorem turn_congr {plan : Plan σ} {share : Amount} {left : Progress σ → Progress σ}
    {next next' : Progress σ → Ending σ} {p : Progress σ} (hcancels : plan.store.NeverCancels)
    (hp : p.cancelled = false)
    (h : ∀ q : Progress σ, q.cancelled = false →
      plan.sampling.maxSamples - q.sampled < plan.sampling.maxSamples - p.sampled → next q = next' q) :
    turn plan share left next p = turn plan share left next' p := by
  rw [turn, turn]
  by_cases hsize : p.size plan = 0
  · rw [if_pos hsize, if_pos hsize]
  rw [if_neg hsize, if_neg hsize]
  cases (p.fetch plan).batch with
  | error e => rfl
  | ok batch =>
    cases batch with
    | nil => rfl
    | cons r rs =>
      rw [answered, answered, judged, judged]
      split
      · rfl
      · exact h _ (cancelled_fetched hcancels hp) (budget_lt hsize _)

theorem sequential_inTurn {plan : Plan σ} {share : Amount} (hcancels : plan.store.NeverCancels)
    {p : Progress σ} (hp : p.cancelled = false) :
    sequential plan.inTurn { share } p = sequential plan { share } p := by
  induction hbudget : plan.sampling.maxSamples - p.sampled using Nat.strongRecOn generalizing p with
  | _ budget ih =>
    have hcancels' : plan.inTurn.store.NeverCancels := hcancels
    rw [sequential_eq_turn hcancels' hp, sequential_eq_turn hcancels hp, turn_inTurn]
    exact turn_congr hcancels hp fun q hq hless => ih _ (hbudget ▸ hless) hq rfl

/-- The result of a run does not depend on the state in which it leaves the store. -/
theorem result_conclude_store (total : Nat) (e : Ending σ) (store : σ) :
    (conclude total (e.1, { e.2 with store })).result = (conclude total e).result := by
  rw [conclude, conclude]
  cases e.1 with
  | error e => rfl
  | ok reason => rfl

/-- What an adaptive run comes to, whether or not it fetches ahead. -/
theorem result_eq_conclude {plan : Plan σ} {schedule : Schedule} {collection typeName : String} {store : σ}
    {total : Nat} {share : Amount} (hadaptive : plan.sampling.isAdaptive = true)
    (htimeout : plan.sampling.timeout? = none) (hcancels : plan.store.NeverCancels)
    (hcount : countOf (plan.store.count store).1 = .ok total) (hpos : 0 < total)
    (hlimit : fractionLimit? plan.sampling.maxFraction total = some share) :
    (run plan schedule collection typeName false store).result =
      (conclude total
        (sequential plan { share } (.started plan collection typeName store total))).result := by
  rw [run_eq_adaptiveRun hadaptive htimeout hcount hpos, adaptiveRun_of_some hlimit]
  cases plan.sampling.prefetches with
  | false => rfl
  | true =>
    obtain ⟨left, heq⟩ := @overlapped_eq σ plan share (.started plan collection typeName store total)
      hcancels schedule rfl
    rw [if_pos rfl, heq, result_conclude_store]

/-- An adaptive run that is to fetch ahead comes to the same result as one that fetches in turn: by the
loop that fetches ahead, however its fetches fall out, and on two threads, however their steps fall out. -/
theorem run_prefetch_irrelevant {plan : Plan σ} {collection typeName : String} {store : σ}
    (hadaptive : plan.sampling.isAdaptive = true) (htimeout : plan.sampling.timeout? = none)
    (hcancels : plan.store.NeverCancels) (schedule : Schedule) :
    (∀ ahead : Schedule, (run plan ahead collection typeName false store).result =
      (run plan.inTurn schedule collection typeName false store).result) ∧
    ∀ total share, countOf (plan.store.count store).1 = .ok total → 0 < total →
      fractionLimit? plan.sampling.maxFraction total = some share →
      Inevitable (Threads.Step plan share)
        (fun t => ∃ e, t.main = .ended e ∧ (conclude total e).result =
          (run plan.inTurn schedule collection typeName false store).result)
        (Threads.begin plan (.started plan collection typeName store total)) := by
  have hinTurn {total : Nat} {share : Amount} (hcount : countOf (plan.store.count store).1 = .ok total)
      (hpos : 0 < total) (hlimit : fractionLimit? plan.sampling.maxFraction total = some share) :
      (run plan.inTurn schedule collection typeName false store).result = (conclude total
        (sequential plan { share } (.started plan collection typeName store total))).result := by
    rw [@result_eq_conclude σ plan.inTurn schedule collection typeName store total share hadaptive htimeout
      hcancels hcount hpos hlimit]
    exact congrArg (fun e => (conclude total e).result) (sequential_inTurn hcancels rfl)
  refine ⟨fun ahead => ?_, fun total share hcount hpos hlimit => ?_⟩
  · cases hcount : countOf (plan.store.count store).1 with
    | error e =>
      rw [result_of_count_error htimeout hcount,
        @result_of_count_error σ plan.inTurn _ _ _ _ e htimeout hcount]
    | ok total =>
      rcases Nat.eq_zero_or_pos total with rfl | hpos
      · rw [run_eq_complete htimeout hcount, @run_eq_complete σ plan.inTurn _ _ _ _ htimeout hcount]
        rfl
      cases hlimit : fractionLimit? plan.sampling.maxFraction total with
      | none =>
        rw [run_eq_adaptiveRun hadaptive htimeout hcount hpos, adaptiveRun_of_none hlimit,
          @run_eq_adaptiveRun σ plan.inTurn _ _ _ _ total hadaptive htimeout hcount hpos,
          @adaptiveRun_of_none σ plan.inTurn _ _ total _ hlimit]
        rfl
      | some share =>
        rw [hinTurn hcount hpos hlimit, result_eq_conclude hadaptive htimeout hcancels hcount hpos hlimit]
  · refine (threads_end hcancels rfl).mono fun t hended => ⟨_, hended, ?_⟩
    rw [hinTurn hcount hpos hlimit]

/-- A second batch is asked for while the first one is merged, and cannot be fetched; that is the result
of the run however soon it is known. -/
theorem run_prefetch_irrelevant_scripted :
    let plan := Plan.scripted { prefetch := .bool true, maxFraction := .whole 5 } 3 fun i =>
      if i = 0 then .ok [.ofFields [("a", .int 1)], .null] else .error (.raised "OSError" "connection lost")
    plan.sampling.prefetches = true ∧
      (run plan { fetchesLeftOver := true } "items" "Item" false 0).result =
        (run plan.inTurn {} "items" "Item" false 0).result ∧
      Inevitable (Threads.Step plan (.whole 15))
        (fun t => ∃ e, t.main = .ended e ∧
          (conclude 3 e).result = (run plan.inTurn {} "items" "Item" false 0).result)
        (Threads.begin plan (.started plan "items" "Item" 0 3)) := by
  intro plan
  have hcount : countOf (plan.store.count 0).1 = .ok 3 := countOf_int (by decide +kernel)
  obtain ⟨hloop, hthreads⟩ := @run_prefetch_irrelevant Nat plan "items" "Item" 0 rfl rfl
    (Store.neverCancels_scripted 3 _) {}
  exact ⟨rfl, hloop { fetchesLeftOver := true }, hthreads 3 (.whole 15) hcount (by decide) rfl⟩

end DocSchema.Sampling
