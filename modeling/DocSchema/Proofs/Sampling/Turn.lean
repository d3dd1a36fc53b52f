import DocSchema.Sampling.Run

/-!
# A turn of an adaptive run

What one round of the loop over the batches does in a run that nothing interrupts: there is no deadline,
the run is not cancelled before it begins, and no draw is the moment at which it is cancelled. Every
checkpoint is passed then, and fetching ahead differs from fetching in turn in nothing but the state in
which the store is left.

- `turn`: a round, given what is left at a stop and what follows a batch after which the run goes on.
- `sequential_eq_turn`, `overlapped_eq_turn`: both loops take one turn after the other.
- `overlapped_eq`: the loop that fetches ahead comes to the same end.
- `run_of_countOf`: what a run is once its documents are counted; `run_eq_adaptiveRun`, when there are some.
-/

namespace DocSchema

/-- No draw from a store is the moment at which a run is cancelled. -/
def Store.NeverCancels {σ : Type} (store : Store σ) : Prop :=
  ∀ size state, (store.draw size state).1.cancels = false

namespace Sampling

variable {σ : Type}

/-- How the batches of a run end: for a reason or with an error, and at some progress. -/
abbrev Ending (σ : Type) : Type :=
  Except RunError StopReason × Progress σ

/-- What a run asks for next. -/
def Progress.size (p : Progress σ) (plan : Plan σ) : Nat :=
  nextSize plan.sampling p.batches p.sampled

/-- What a run is answered next. -/
def Progress.fetch (p : Progress σ) (plan : Plan σ) : Fetched σ :=
  Sampling.fetch plan (p.batches + 1) (p.size plan) p.store

/-- The progress after a batch of some documents whose merging came to a state, with notices. -/
def settled (plan : Plan σ) (p : Progress σ) (count : Nat) (merged : Accumulator × List Notice) :
    Progress σ :=
  let q : Progress σ :=
    { p with
      accumulator := merged.1
      batches := p.batches + 1
      sampled := p.sampled + count
      stable :=
        stableAfter plan.sampling p.stable (merged.1.uniquePathCount - p.accumulator.uniquePathCount)
      notices := merged.2.reverse ++ p.notices }
  q.note (batchNotices plan p q)

section Turn

variable (plan : Plan σ) (share : Amount) (left : Progress σ → Progress σ)
  (next : Progress σ → Ending σ)

/-- What follows a batch that was merged: the end, when the run breaks off or has had enough, and else the next
turn. -/
def judged (p : Progress σ) : Ending σ :=
  match verdict? plan.sampling share p.stable p.sampled with
  | some ending => (ending, left p)
  | none => next p

/-- What follows an answer. -/
def answered (p : Progress σ) : Except RunError (List Raw) → Ending σ
  | .error e => (.error e, p)
  | .ok [] => (.ok .exhausted, p)
  | .ok (r :: rs) =>
    judged plan share left next
      (settled plan p (r :: rs).length
        (ingestAll plan.extraction (p.batches + 1) 0 (r :: rs) p.accumulator))

/-- A turn of a loop over batches. -/
def turn (p : Progress σ) : Ending σ :=
  if p.size plan = 0 then (.ok .maxSamplesReached, p)
  else answered plan share left next (p.fetched (p.size plan) (p.fetch plan)) (p.fetch plan).batch

end Turn

/-- What a run that fetches ahead leaves when it stops. -/
def Schedule.leave (schedule : Schedule) (plan : Plan σ) (p : Progress σ) : Progress σ :=
  if schedule.fetchesLeftOver && p.size plan != 0 then { p with store := (p.fetch plan).store } else p

variable {plan : Plan σ} {share : Amount} {p : Progress σ}

/-- A batch that was asked for and is not empty takes some of the budget. -/
theorem budget_lt (hsize : p.size plan ≠ 0) (count : Nat) :
    plan.sampling.maxSamples - (p.sampled + (count + 1)) < plan.sampling.maxSamples - p.sampled := by
  have hle : p.size plan ≤ plan.sampling.maxSamples - p.sampled := nextSize_le _ _ _
  omega

theorem sequential_of_size_eq_zero {limits : Limits} (hsize : p.size plan = 0) :
    sequential plan limits p = (.ok .maxSamplesReached, p) := by
  rw [sequential]
  exact dif_pos hsize

/-! ## Without interruption -/

theorem cancelled_fetched (hcancels : plan.store.NeverCancels) (hp : p.cancelled = false) :
    (p.fetched (p.size plan) (p.fetch plan)).cancelled = false := by
  have hfetch : (p.fetch plan).cancels = false := hcancels _ _
  rw [Progress.fetched, hp, hfetch]
  rfl

theorem checkpoint_fetched (hcancels : plan.store.NeverCancels) (hp : p.cancelled = false) :
    checkpoint plan none (p.fetched (p.size plan) (p.fetch plan)).cancelled
      (p.fetched (p.size plan) (p.fetch plan)) = .ok (p.fetched (p.size plan) (p.fetch plan)) := by
  rw [cancelled_fetched hcancels hp]
  rfl

theorem sequential_eq_turn (hcancels : plan.store.NeverCancels) (hp : p.cancelled = false) :
    sequential plan { share } p = turn plan share id (sequential plan { share }) p := by
  rw [turn]
  by_cases hsize : p.size plan = 0
  · rw [if_pos hsize, sequential_of_size_eq_zero hsize]
  rw [if_neg hsize, sequential]
  refine (dif_neg hsize).trans ?_
  dsimp only
  split
  · rename_i e hbatch
    rw [Progress.fetch, Progress.size, hbatch, answered]
  · rename_i batch hbatch
    rw [Progress.fetch, Progress.size, hbatch]
    split
    · rename_i e heq
      cases (checkpoint_fetched hcancels hp).symm.trans heq
    · rename_i checked heq
      cases (checkpoint_fetched hcancels hp).symm.trans heq
      cases batch with
      | nil => rfl
      | cons r rs => rfl

theorem overlapped_eq_turn (hcancels : plan.store.NeverCancels) (schedule : Schedule)
    (hp : p.cancelled = false) :
    overlapped plan { share } schedule p =
      turn plan share (schedule.leave plan) (overlapped plan { share } schedule) p := by
  rw [overlapped, turn]
  by_cases hsize : p.size plan = 0
  · rw [if_pos hsize]
    exact dif_pos hsize
  rw [if_neg hsize]
  refine (dif_neg hsize).trans ?_
  have hfetch : (p.fetch plan).cancels = false := hcancels _ _
  have hseen : checkpoint plan none
      (p.cancelled || (schedule.seesCancel p.batches && (p.fetch plan).cancels))
      (p.fetched (p.size plan) (p.fetch plan)) = .ok (p.fetched (p.size plan) (p.fetch plan)) := by
    rw [hp, hfetch, Bool.and_false]
    rfl
  dsimp only
  split
  · rename_i e heq
    cases hseen.symm.trans heq
  · rename_i checked heq
    cases hseen.symm.trans heq
    split
    · rename_i e hbatch
      rw [Progress.fetch, Progress.size, hbatch, answered]
    · rename_i batch hbatch
      rw [Progress.fetch, Progress.size, hbatch]
      cases batch with
      | nil => rfl
      | cons r rs => rfl

/-- A run that fetches ahead ends as one that fetches in turn, except for the state of the store. -/
theorem overlapped_eq (hcancels : plan.store.NeverCancels) (schedule : Schedule)
    (hp : p.cancelled = false) :
    ∃ store, overlapped plan { share } schedule p =
      ((sequential plan { share } p).1, { (sequential plan { share } p).2 with store }) := by
  induction hbudget : plan.sampling.maxSamples - p.sampled using Nat.strongRecOn generalizing p with
  | _ budget ih =>
    rw [overlapped_eq_turn hcancels schedule hp, sequential_eq_turn hcancels hp, turn, turn]
    by_cases hsize : p.size plan = 0
    · rw [if_pos hsize, if_pos hsize]
      exact ⟨p.store, rfl⟩
    rw [if_neg hsize, if_neg hsize]
    cases (p.fetch plan).batch with
    | error e => exact ⟨_, rfl⟩
    | ok batch =>
      cases batch with
      | nil => exact ⟨_, rfl⟩
      | cons r rs =>
        rw [answered, answered, judged, judged]
        split
        · rw [Schedule.leave]
          split
          · exact ⟨_, rfl⟩
          · exact ⟨_, rfl⟩
        · refine ih _ ?_ (cancelled_fetched hcancels hp) rfl
          rw [← hbudget]
          exact budget_lt hsize _

/-! ## From the count on -/

/-- The progress of a run over a collection once its documents are counted. -/
def Progress.started (plan : Plan σ) (collection typeName : String) (store : σ) (total : Nat) :
    Progress σ :=
  let p : Progress σ :=
    { store := (plan.store.count store).2
      accumulator := .fresh collection typeName
      readings := 1 }
  p.note [.started total]

section Counted

variable {schedule : Schedule} {collection typeName : String} {store : σ} {total : Nat}

theorem deadlineOf_of_none (htimeout : plan.sampling.timeout? = none) : deadlineOf plan = .ok none := by
  rw [deadlineOf, htimeout]

theorem result_of_countOf_error {deadline? : Option (Amount × Binary64)} {cancelled : Bool} {e : RunError}
    (hdeadline : deadlineOf plan = .ok deadline?) (hcount : countOf (plan.store.count store).1 = .error e) :
    (run plan schedule collection typeName cancelled store).result = .error e := by
  simp only [run, hdeadline, hcount, Outcome.failed]

/-- What a run is once its documents are counted. -/
theorem run_of_countOf {deadline? : Option (Amount × Binary64)} {cancelled : Bool}
    (hdeadline : deadlineOf plan = .ok deadline?) (hcount : countOf (plan.store.count store).1 = .ok total) :
    run plan schedule collection typeName cancelled store =
      let started : Progress σ := { Progress.started plan collection typeName store total with cancelled }
      if total = 0 then complete total .emptyCollection [] started
      else if plan.sampling.isAdaptive then adaptiveRun plan schedule deadline? total started
      else fixedRun plan total started := by
  simp only [run, hdeadline, hcount]
  rfl

theorem result_of_count_error {e : RunError} (htimeout : plan.sampling.timeout? = none)
    (hcount : countOf (plan.store.count store).1 = .error e) :
    (run plan schedule collection typeName false store).result = .error e :=
  result_of_countOf_error (deadlineOf_of_none htimeout) hcount

theorem run_eq_complete (htimeout : plan.sampling.timeout? = none)
    (hcount : countOf (plan.store.count store).1 = .ok 0) :
    run plan schedule collection typeName false store =
      complete 0 .emptyCollection [] (.started plan collection typeName store 0) :=
  run_of_countOf (deadlineOf_of_none htimeout) hcount

theorem run_eq_adaptiveRun (hadaptive : plan.sampling.isAdaptive = true)
    (htimeout : plan.sampling.timeout? = none)
    (hcount : countOf (plan.store.count store).1 = .ok total) (hpos : 0 < total) :
    run plan schedule collection typeName false store =
      adaptiveRun plan schedule none total (.started plan collection typeName store total) := by
  rw [run_of_countOf (deadlineOf_of_none htimeout) hcount]
  dsimp only
  rw [if_neg (Nat.ne_of_gt hpos), if_pos hadaptive]
  rfl

theorem adaptiveRun_of_none {deadline? : Option (Amount × Binary64)}
    (h : fractionLimit? plan.sampling.maxFraction total = none) :
    adaptiveRun plan schedule deadline? total p = .failed .outOfRange true p := by
  rw [adaptiveRun, h]

theorem adaptiveRun_of_some {deadline? : Option (Amount × Binary64)}
    (h : fractionLimit? plan.sampling.maxFraction total = some share) :
    adaptiveRun plan schedule deadline? total p = conclude total
      (if plan.sampling.prefetches then overlapped plan { share, deadline? } schedule p
      else sequential plan { share, deadline? } p) := by
  rw [adaptiveRun, h]

end Counted

theorem countOf_int {n : Nat} (h : n < Number.tenTo Number.maxDigits) :
    countOf (.ok (.int n)) = .ok n := by
  rw [countOf, Raw.toInt_int]
  exact if_pos h

end Sampling

/-! ## Scripted stores -/

/-- A store that counts some documents, and gives answers in order. -/
def Store.scripted (total : Nat) (answers : Nat → Except SourceFault (List Raw)) : Store Nat where
  count i := (.ok (.int total), i)
  draw _ i := ({ answer := (answers i).map .list }, i + 1)

theorem Store.neverCancels_scripted (total : Nat) (answers : Nat → Except SourceFault (List Raw)) :
    (Store.scripted total answers).NeverCancels :=
  fun _ _ => rfl

/-- A plan for a scripted store. -/
def Sampling.Plan.scripted (sampling : SamplingSettings) (total : Nat)
    (answers : Nat → Except SourceFault (List Raw)) : Plan Nat where
  store := .scripted total answers
  sampling
  extraction := {}
  clock _ := .zero

end DocSchema
