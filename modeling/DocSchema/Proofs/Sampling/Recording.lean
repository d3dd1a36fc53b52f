import DocSchema.Proofs.Sampling.Round

/-!
# A record of what a store is asked for

A store can keep a record beside its state: what it was asked for, and how much it handed out. The record
is never read, so a run over such a store is the run over the store itself, whatever the store does, and
what the record says at its end is what the run has asked for, a batch that was fetched ahead and left
over included.

- `Exchange`, `Store.recording`: the record, and a store that keeps it.
- `sequential_forget`, `overlapped_forget`: the loops do not depend on the record.
- `run_forget`: nor does a run.
-/

namespace DocSchema

/-- A request to a store, and the number of documents that it handed out. -/
structure Exchange where
  size : Nat
  received : Nat
  deriving DecidableEq, Repr

/-- The number of documents that a draw hands out. -/
def Draw.received (d : Draw) : Nat :=
  (d.documents.toOption.getD []).length

variable {σ : Type}

/-- A store that records what it is asked for, the oldest first. -/
def Store.recording (store : Store σ) : Store (σ × List Exchange) where
  count state := ((store.count state.1).1, ((store.count state.1).2, state.2))
  draw size state :=
    let drawn := store.draw size state.1
    (drawn.1, (drawn.2, state.2 ++ [⟨size, drawn.1.received⟩]))

namespace Sampling

/-- A plan whose store records what it is asked for. -/
def Plan.recording (plan : Plan σ) : Plan (σ × List Exchange) where
  store := plan.store.recording
  sampling := plan.sampling
  extraction := plan.extraction
  clock := plan.clock

/-- A progress without the record. -/
def Progress.forget (p : Progress (σ × List Exchange)) : Progress σ where
  store := p.store.1
  accumulator := p.accumulator
  cancelled := p.cancelled
  readings := p.readings
  batches := p.batches
  sampled := p.sampled
  stable := p.stable
  notices := p.notices
  requests := p.requests

/-- What a fetch brought, without the record. -/
def Fetched.forget (f : Fetched (σ × List Exchange)) : Fetched σ where
  batch := f.batch
  cancels := f.cancels
  store := f.store.1

/-- How the batches of a run end, without the record. -/
def Ending.forget (e : Ending (σ × List Exchange)) : Ending σ :=
  (e.1, e.2.forget)

/-- How a run went, without the record. -/
def Outcome.forget (o : Outcome (σ × List Exchange)) : Outcome σ where
  result := o.result
  notices := o.notices
  counted := o.counted
  requests := o.requests
  store := o.store.1

variable {plan : Plan σ} {p : Progress (σ × List Exchange)}

theorem size_forget : p.forget.size plan = p.size plan.recording := rfl

theorem fetch_forget : p.forget.fetch plan = (p.fetch plan.recording).forget := rfl

theorem checkpoint_forget (deadline? : Option (Amount × Binary64)) (cancelled : Bool) :
    checkpoint plan deadline? cancelled p.forget =
      (checkpoint plan.recording deadline? cancelled p).map Progress.forget := by
  unfold checkpoint
  cases cancelled with
  | true => rfl
  | false =>
    cases deadline? with
    | none => rfl
    | some d =>
      have hclock : plan.recording.clock p.readings = plan.clock p.forget.readings := rfl
      simp only [Bool.false_eq_true, if_false, hclock]
      split <;> rfl

theorem fetched_forget (size : Nat) (f : Fetched (σ × List Exchange)) :
    p.forget.fetched size f.forget = (p.fetched size f).forget := rfl

theorem leave_forget (schedule : Schedule) :
    schedule.leave plan p.forget = (schedule.leave plan.recording p).forget := by
  rw [Schedule.leave, Schedule.leave, size_forget]
  split <;> rfl

/-- What follows an answer does not depend on the record, if what follows the batch does not. -/
theorem answered_forget {share : Amount} {left : Progress σ → Progress σ} {next : Progress σ → Ending σ}
    {left' : Progress (σ × List Exchange) → Progress (σ × List Exchange)}
    {next' : Progress (σ × List Exchange) → Ending (σ × List Exchange)}
    (answer : Except RunError (List Raw)) (hleft : ∀ q, left q.forget = (left' q).forget)
    (hnext : ∀ r rs q, answer = .ok (r :: rs) →
      q = settled plan.recording p (r :: rs).length
        (ingestAll plan.recording.extraction (p.batches + 1) 0 (r :: rs) p.accumulator) →
      next q.forget = Ending.forget (next' q)) :
    answered plan share left next p.forget answer =
      Ending.forget (answered plan.recording share left' next' p answer) := by
  cases answer with
  | error e => rfl
  | ok batch =>
    cases batch with
    | nil => rfl
    | cons r rs =>
      rw [answered, answered]
      generalize hq : settled plan.recording p (r :: rs).length (ingestAll plan.recording.extraction
        (p.batches + 1) 0 (r :: rs) p.accumulator) = q
      have hforget : settled plan p.forget (r :: rs).length (ingestAll plan.extraction
          (p.forget.batches + 1) 0 (r :: rs) p.forget.accumulator) = q.forget := by
        rw [← hq]
        rfl
      have hverdict : verdict? plan.recording.sampling share q.stable q.sampled =
          verdict? plan.sampling share q.forget.stable q.forget.sampled := rfl
      rw [hforget, judged, judged, hverdict]
      split
      · rw [hleft]
        rfl
      · exact hnext r rs q rfl hq.symm

theorem sequential_forget (limits : Limits) (p : Progress (σ × List Exchange)) :
    sequential plan limits p.forget = Ending.forget (sequential plan.recording limits p) := by
  induction hbudget : plan.sampling.maxSamples - p.sampled using Nat.strongRecOn generalizing p with
  | _ budget ih =>
    rw [sequential_eq_checked, sequential_eq_checked, size_forget, fetch_forget, fetched_forget]
    by_cases hsize : p.size plan.recording = 0
    · rw [if_pos hsize, if_pos hsize]
      rfl
    rw [if_neg hsize, if_neg hsize]
    have hbatch : (p.fetch plan.recording).forget.batch = (p.fetch plan.recording).batch := rfl
    have hcancelled : (p.fetched (p.size plan.recording) (p.fetch plan.recording)).forget.cancelled =
        (p.fetched (p.size plan.recording) (p.fetch plan.recording)).cancelled := rfl
    dsimp only
    rw [hbatch, hcancelled, checkpoint_forget]
    cases (p.fetch plan.recording).batch with
    | error e => rfl
    | ok batch =>
      cases hq : checkpoint plan.recording limits.deadline?
          (p.fetched (p.size plan.recording) (p.fetch plan.recording)).cancelled
          (p.fetched (p.size plan.recording) (p.fetch plan.recording)) with
      | error e => rfl
      | ok q =>
        refine answered_forget (.ok batch) (fun _ => rfl) fun r rs next _ hnext => ih _ ?_ next rfl
        rw [← hbudget, hnext]
        exact budget_settled hsize hq rs.length _

theorem overlapped_forget (limits : Limits) (schedule : Schedule) (p : Progress (σ × List Exchange)) :
    overlapped plan limits schedule p.forget =
      Ending.forget (overlapped plan.recording limits schedule p) := by
  induction hbudget : plan.sampling.maxSamples - p.sampled using Nat.strongRecOn generalizing p with
  | _ budget ih =>
    rw [overlapped_eq_checked, overlapped_eq_checked, size_forget, fetch_forget, fetched_forget]
    by_cases hsize : p.size plan.recording = 0
    · rw [if_pos hsize, if_pos hsize]
      rfl
    rw [if_neg hsize, if_neg hsize]
    have hseen : (p.forget.cancelled ||
        (schedule.seesCancel p.forget.batches && (p.fetch plan.recording).forget.cancels)) =
        (p.cancelled || (schedule.seesCancel p.batches && (p.fetch plan.recording).cancels)) := rfl
    dsimp only
    rw [hseen, checkpoint_forget]
    cases hq : checkpoint plan.recording limits.deadline?
        (p.cancelled || (schedule.seesCancel p.batches && (p.fetch plan.recording).cancels))
        (p.fetched (p.size plan.recording) (p.fetch plan.recording)) with
    | error e => rfl
    | ok q =>
      refine answered_forget (p.fetch plan.recording).batch (fun _ => leave_forget schedule)
        fun r rs next _ hnext => ih _ ?_ next rfl
      rw [← hbudget, hnext]
      exact budget_settled hsize hq rs.length _

/-! ## The run -/

theorem fixedRun_forget (total : Nat) (p : Progress (σ × List Exchange)) :
    fixedRun plan total p.forget = (fixedRun plan.recording total p).forget := by
  have hbatch : (fetch plan 1 plan.sampling.fixedSampleSize p.forget.store).batch =
      (fetch plan.recording 1 plan.recording.sampling.fixedSampleSize p.store).batch := rfl
  simp only [fixedRun, hbatch]
  split <;> rfl

theorem conclude_forget (total : Nat) (e : Ending (σ × List Exchange)) :
    conclude total (Ending.forget e) = (conclude total e).forget := by
  obtain ⟨result, p⟩ := e
  cases result <;> rfl

theorem adaptiveRun_forget (schedule : Schedule) (deadline? : Option (Amount × Binary64)) (total : Nat)
    (p : Progress (σ × List Exchange)) :
    adaptiveRun plan schedule deadline? total p.forget =
      (adaptiveRun plan.recording schedule deadline? total p).forget := by
  have hlimit : fractionLimit? plan.recording.sampling.maxFraction total =
      fractionLimit? plan.sampling.maxFraction total := rfl
  have hprefetches : plan.recording.sampling.prefetches = plan.sampling.prefetches := rfl
  rw [adaptiveRun, adaptiveRun, hlimit]
  cases fractionLimit? plan.sampling.maxFraction total with
  | none => rfl
  | some share =>
    dsimp only
    rw [hprefetches, ← conclude_forget, sequential_forget, overlapped_forget]
    split <;> rfl

/-- A run over a store that records what it is asked for is the run over the store. -/
theorem run_forget (schedule : Schedule) (collection typeName : String) (cancelled : Bool) (store : σ)
    (log : List Exchange) :
    run plan schedule collection typeName cancelled store =
      (run plan.recording schedule collection typeName cancelled (store, log)).forget := by
  have hdeadline : deadlineOf plan.recording = deadlineOf plan := rfl
  have hcount : (plan.recording.store.count (store, log)).1 = (plan.store.count store).1 := rfl
  have hadaptive : plan.recording.sampling.isAdaptive = plan.sampling.isAdaptive := rfl
  cases hd : deadlineOf plan with
  | error e =>
    rw [run, run, hdeadline, hd]
    rfl
  | ok deadline? =>
    cases hc : countOf (plan.store.count store).1 with
    | error e =>
      simp only [run, hdeadline, hd, hcount, hc]
      rfl
    | ok total =>
      rw [run_of_countOf hd hc, run_of_countOf (hdeadline.trans hd) (hcount ▸ hc)]
      let started : Progress (σ × List Exchange) :=
        { Progress.started plan.recording collection typeName (store, log) total with cancelled }
      dsimp only
      rw [hadaptive]
      split
      · rfl
      · split
        · exact adaptiveRun_forget schedule deadline? total started
        · exact fixedRun_forget total started

end Sampling

end DocSchema
