import DocSchema.Proofs.Number.Range
import DocSchema.Proofs.Sampling.Round
import DocSchema.Proofs.Settings.Reading
import Mathlib.Algebra.Group.Nat.Defs

/-!
# How runs fail

A run tells what went wrong with an error of its own when its store fails to count or to hand out
documents, when it is cancelled and when it is out of time. What is not told so is arithmetic on the numbers that the
store and the settings give: what the store counts is read as a whole number, and deadlines and shares are computed as
floating-point numbers. Nor is what the run cannot tell, because a number has too many digits: that a draw of some size
has failed, and how many stable batches it waits for.

- `sequential_halts`, `overlapped_halts`: how a loop comes to its end.
- `adaptiveRun_halts`: how an adaptive run does.
- `failsIn_of_result`: where a run fails.
- `run_escapes_iff`: the errors with which a run fails that are not its own.
-/

namespace DocSchema

open Number (twoTo tenTo maxDigits)

namespace Sampling

variable {σ : Type} {plan : Plan σ} {p q : Progress σ} {e : RunError}

/-! ## The loops -/

theorem exists_fault_of_fetch {number size : Nat} {store : σ}
    (h : (fetch plan number size store).batch = .error e) : ∃ fault, e = .drawFailed number size fault := by
  rw [fetch] at h
  dsimp only at h
  cases hdocuments : (plan.store.draw size store).1.documents with
  | ok documents =>
    rw [hdocuments] at h
    cases h
  | error fault =>
    rw [hdocuments] at h
    cases h
    exact ⟨fault, rfl⟩

theorem eq_of_checkpoint_error {deadline? : Option (Amount × Binary64)} {cancelled : Bool}
    (h : checkpoint plan deadline? cancelled p = .error e) :
    e = .cancelled p.batches ∨ ∃ budget, e = .timedOut p.batches budget := by
  unfold checkpoint at h
  split at h
  · cases h
    exact .inl rfl
  · split at h
    · cases h
    · split at h
      · cases h
        exact .inr ⟨_, rfl⟩
      · cases h

/-- The progress of a run once its next batch is fetched. -/
def Progress.drawn (p : Progress σ) (plan : Plan σ) : Progress σ :=
  p.fetched (p.size plan) (p.fetch plan)

/-- How a loop comes to its end in which a property of the progress is kept. At each checkpoint it sees whether the
run is cancelled, as far as it knows. -/
inductive Halts (plan : Plan σ) (limits : Limits) (sees : Progress σ → Bool) (I : Progress σ → Prop) :
    Except RunError StopReason → Prop
  | budget : Halts plan limits sees I (.ok .maxSamplesReached)
  | exhausted : Halts plan limits sees I (.ok .exhausted)
  | enough {p : Progress σ} {reason : StopReason}
      (reason_eq : stopReason? plan.sampling limits.share p.stable p.sampled = some reason) :
      Halts plan limits sees I (.ok reason)
  | fetch {p : Progress σ} {e : RunError} (holds : I p) (fails : (p.fetch plan).batch = .error e) :
      Halts plan limits sees I (.error e)
  | checkpoint {p : Progress σ} {e : RunError} (holds : I p)
      (fails : checkpoint plan limits.deadline? (sees p) (p.drawn plan) = .error e) :
      Halts plan limits sees I (.error e)
  | breaksOff {p checked : Progress σ} {r : Raw} {rs : List Raw} (holds : I p) (size_ne : p.size plan ≠ 0)
      (comes : (p.fetch plan).batch = .ok (r :: rs))
      (passes : checkpoint plan limits.deadline? (sees p) (p.drawn plan) = .ok checked)
      (long : Number.isWritable plan.sampling.stableBatches = false) : Halts plan limits sees I (.error .untold)

/-- Whether a run that fetches in turn sees at its checkpoint that it is cancelled. -/
def Progress.seesInTurn (plan : Plan σ) (p : Progress σ) : Bool :=
  (p.drawn plan).cancelled

/-- Whether a run that fetches ahead sees at its checkpoint that it is cancelled, which it may have been while the
batch was fetched. -/
def Progress.seesAhead (plan : Plan σ) (schedule : Schedule) (p : Progress σ) : Bool :=
  p.cancelled || (schedule.seesCancel p.batches && (p.fetch plan).cancels)

/-- Whether a run sees at its checkpoint that it is cancelled. -/
def Progress.sees (plan : Plan σ) (schedule : Schedule) : Progress σ → Bool :=
  if plan.sampling.prefetches then seesAhead plan schedule else seesInTurn plan

section Loop

variable {I : Progress σ → Prop} {limits : Limits} {sees : Progress σ → Bool} {schedule : Schedule}

/-- What follows a batch: the loop breaks off, it has had enough, or it comes to its end in a later round. -/
theorem judged_halts {left : Progress σ → Progress σ} {next : Progress σ → Ending σ} {checked q : Progress σ}
    {r : Raw} {rs : List Raw} (h : I p) (hsize : p.size plan ≠ 0) (hbatch : (p.fetch plan).batch = .ok (r :: rs))
    (hchecked : checkpoint plan limits.deadline? (sees p) (p.drawn plan) = .ok checked)
    (hnext : Number.isWritable plan.sampling.stableBatches = true → Halts plan limits sees I (next q).1) :
    Halts plan limits sees I (judged plan limits.share left next q).1 := by
  rw [judged]
  split
  · rename_i ending hverdict
    cases ending with
    | ok reason => exact .enough (verdict?_eq_some_ok_iff.1 hverdict).2
    | error e =>
      obtain ⟨hlong, rfl⟩ := verdict?_eq_some_error_iff.1 hverdict
      exact .breaksOff h hsize hbatch hchecked hlong
  · rename_i hverdict
    exact hnext (verdict?_eq_none_iff.1 hverdict).1

theorem sequential_halts (hkept : Kept plan I) (h : I p) :
    Halts plan limits (Progress.seesInTurn plan) I (sequential plan limits p).1 := by
  induction hbudget : plan.sampling.maxSamples - p.sampled using Nat.strongRecOn generalizing p with
  | _ budget ih =>
    rw [sequential_eq_checked]
    split
    · exact .budget
    rename_i hsize
    dsimp only
    split
    · rename_i hbatch
      exact .fetch h hbatch
    rename_i batch hbatch
    split
    · rename_i hchecked
      exact .checkpoint h hchecked
    rename_i checked hchecked
    obtain ⟨readings, rfl⟩ := exists_readings_of_checkpoint hchecked
    cases batch with
    | nil => exact .exhausted
    | cons r rs =>
      rw [answered]
      exact judged_halts h hsize hbatch hchecked fun htold =>
        ih _ (hbudget ▸ budget_settled hsize hchecked rs.length _) (hkept htold p (r :: rs) readings h hbatch) rfl

theorem overlapped_halts (hkept : Kept plan I) (h : I p) :
    Halts plan limits (Progress.seesAhead plan schedule) I (overlapped plan limits schedule p).1 := by
  induction hbudget : plan.sampling.maxSamples - p.sampled using Nat.strongRecOn generalizing p with
  | _ budget ih =>
    rw [overlapped_eq_checked]
    split
    · exact .budget
    rename_i hsize
    dsimp only
    split
    · rename_i hchecked
      exact .checkpoint h hchecked
    rename_i checked hchecked
    obtain ⟨readings, rfl⟩ := exists_readings_of_checkpoint hchecked
    cases hbatch : (p.fetch plan).batch with
    | error fault => exact .fetch h hbatch
    | ok batch =>
      cases batch with
      | nil => exact .exhausted
      | cons r rs =>
        rw [answered]
        exact judged_halts h hsize hbatch hchecked fun htold =>
          ih _ (hbudget ▸ budget_settled hsize hchecked rs.length _) (hkept htold p (r :: rs) readings h hbatch) rfl

theorem Halts.ne_emptyCollection {reason : StopReason} (h : Halts plan limits sees I (.ok reason)) :
    reason ≠ .emptyCollection := by
  cases h with
  | budget => exact StopReason.noConfusion
  | exhausted => exact StopReason.noConfusion
  | enough reason_eq =>
    rintro rfl
    rw [stopReason?] at reason_eq
    split at reason_eq
    · cases reason_eq
    · split at reason_eq
      · cases reason_eq
      · split at reason_eq <;> cases reason_eq

/-- What holds only of runs that cannot tell of a batch is kept, for they come to no second one. -/
theorem kept_of_long (I : Progress σ → Prop) :
    Kept plan fun p => Number.isWritable plan.sampling.stableBatches = false → I p :=
  fun htold _ _ _ _ _ hlong => by cases htold.symm.trans hlong

/-- An adaptive run comes to its end when its loop does, unless the share to sample is of a number too
large. -/
theorem adaptiveRun_halts {deadline? : Option (Amount × Binary64)} {total : Nat} (hkept : Kept plan I)
    (h : I p) :
    fractionLimit? plan.sampling.maxFraction total = none ∧
        (adaptiveRun plan schedule deadline? total p).result = .error .outOfRange ∨
      ∃ share result, fractionLimit? plan.sampling.maxFraction total = some share ∧
        Halts plan { share, deadline? } (Progress.sees plan schedule) I result ∧
        (adaptiveRun plan schedule deadline? total p).result.map (fun c => c.metrics.stopReason?) =
          result.map some := by
  cases hlimit : fractionLimit? plan.sampling.maxFraction total with
  | none =>
    rw [adaptiveRun_of_none hlimit]
    exact .inl ⟨rfl, rfl⟩
  | some share =>
    rw [adaptiveRun_of_some hlimit]
    have hhalts : Halts plan { share, deadline? } (Progress.sees plan schedule) I (if plan.sampling.prefetches then
        overlapped plan { share, deadline? } schedule p else sequential plan { share, deadline? } p).1 := by
      rw [Progress.sees]
      split
      · exact overlapped_halts hkept h
      · exact sequential_halts hkept h
    refine .inr ⟨share, _, rfl, hhalts, ?_⟩
    rw [conclude]
    split
    · rename_i hresult
      rw [hresult]
      rfl
    · rename_i hresult
      rw [hresult]
      rfl

end Loop

/-! ## The run -/

section Run

variable {schedule : Schedule} {collection typeName : String} {cancelled : Bool} {store : σ}
  {deadline? : Option (Amount × Binary64)}

theorem result_of_deadlineOf_error (h : deadlineOf plan = .error e) :
    (run plan schedule collection typeName cancelled store).result = .error e := by
  simp only [run, h, Outcome.failed]

theorem deadlineOf_eq_error_iff :
    deadlineOf plan = .error e ↔ e = .outOfRange ∧ ∃ n, plan.sampling.timeout? = some (.whole n) ∧
      twoTo 1024 ≤ n.natAbs + twoTo 970 := by
  rw [deadlineOf]
  cases plan.sampling.timeout? with
  | none => simp
  | some budget =>
    cases budget with
    | whole n =>
      simp only [Sampling.deadline?, Option.some.injEq, Amount.whole.injEq, exists_eq_left',
        ← Binary64.ofInt?_eq_none_iff]
      cases Binary64.ofInt? n with
      | none => simp [eq_comm]
      | some x => simp
    | truth => simp [Sampling.deadline?]
    | float x => simp [Sampling.deadline?]

theorem fractionLimit?_eq_none_iff {share : Amount} {total : Nat} :
    fractionLimit? share total = none ↔
      (∃ x, share = .float x) ∧ twoTo 1024 ≤ total + twoTo 970 := by
  rw [← Int.natAbs_natCast total, ← Binary64.ofInt?_eq_none_iff]
  cases share with
  | whole n => simp [fractionLimit?]
  | truth => simp [fractionLimit?]
  | float x => simp [fractionLimit?]

theorem exists_fault_of_fixedRun {total : Nat} (h : (fixedRun plan total p).result = .error e) :
    ∃ fault, e = .drawFailed 1 plan.sampling.fixedSampleSize fault := by
  have hbatch : (fetch plan 1 plan.sampling.fixedSampleSize p.store).batch = .error e := by
    rw [fixedRun] at h
    split at h
    · rename_i hfailed
      cases h
      exact hfailed
    · cases h
  exact exists_fault_of_fetch hbatch

/-- A run that comes to its end has counted its documents, and ends for want of any exactly when there are
none. -/
theorem emptyCollection_iff_of_result {c : Completed}
    (h : (run plan schedule collection typeName cancelled store).result = .ok c) :
    ∃ total, countOf (plan.store.count store).1 = .ok total ∧
      (c.metrics.stopReason? = some .emptyCollection ↔ total = 0) := by
  cases hdeadline : deadlineOf plan with
  | error e => cases (result_of_deadlineOf_error hdeadline).symm.trans h
  | ok deadline? =>
    cases hcount : countOf (plan.store.count store).1 with
    | error e => cases (result_of_countOf_error hdeadline hcount).symm.trans h
    | ok total =>
      refine ⟨total, rfl, ?_⟩
      rw [run_of_countOf hdeadline hcount] at h
      dsimp only at h
      split at h
      · rename_i hzero
        cases h
        exact iff_of_true rfl hzero
      rename_i hpos
      refine iff_of_false ?_ hpos
      split at h
      · obtain ⟨-, hresult⟩ | ⟨share, result, -, hhalts, hresult⟩ :=
          adaptiveRun_halts (I := fun _ => True) (fun _ _ _ _ _ _ => trivial) trivial
        · cases hresult.symm.trans h
        · rw [h] at hresult
          cases result with
          | error e => cases hresult
          | ok reason =>
            rw [show c.metrics.stopReason? = some reason from Except.ok.inj hresult]
            exact fun hreason => hhalts.ne_emptyCollection (Option.some.inj hreason)
      · rw [fixedRun] at h
        split at h
        · cases h
        · cases h
          exact fun hreason => StopReason.noConfusion (Option.some.inj hreason)

/-- Where a run fails with an error: before it asks anything, as it counts, or as it samples. -/
inductive FailsIn (plan : Plan σ) (schedule : Schedule) (collection typeName : String) (cancelled : Bool) (store : σ)
    (e : RunError) : Prop
  | deadline (deadline_eq : deadlineOf plan = .error e)
  | count {deadline? : Option (Amount × Binary64)} (deadline_eq : deadlineOf plan = .ok deadline?)
      (count_eq : countOf (plan.store.count store).1 = .error e)
  | adaptive {deadline? : Option (Amount × Binary64)} {total : Nat} (deadline_eq : deadlineOf plan = .ok deadline?)
      (count_eq : countOf (plan.store.count store).1 = .ok total) (total_ne : total ≠ 0)
      (adaptive : plan.sampling.isAdaptive = true)
      (result_eq : (adaptiveRun plan schedule deadline? total
        { Progress.started plan collection typeName store total with cancelled }).result = .error e)
  | fixed {total : Nat} (result_eq : (fixedRun plan total
        { Progress.started plan collection typeName store total with cancelled }).result = .error e)

theorem failsIn_of_result (h : (run plan schedule collection typeName cancelled store).result = .error e) :
    FailsIn plan schedule collection typeName cancelled store e := by
  cases hdeadline : deadlineOf plan with
  | error fault =>
    cases (result_of_deadlineOf_error hdeadline).symm.trans h
    exact .deadline hdeadline
  | ok deadline? =>
    cases hcount : countOf (plan.store.count store).1 with
    | error fault =>
      cases (result_of_countOf_error hdeadline hcount).symm.trans h
      exact .count hdeadline hcount
    | ok total =>
      rw [run_of_countOf hdeadline hcount] at h
      dsimp only at h
      split at h
      · cases h
      rename_i htotal
      split at h
      · rename_i hadaptive
        exact .adaptive hdeadline hcount htotal hadaptive h
      · exact .fixed h

/-- The ways in which a run fails with an error that is not its own. -/
inductive Escapes (plan : Plan σ) (store : σ) : RunError → Prop
  /-- The time that the run may take is given as a whole number that is too large. -/
  | budget {n : Int} (timeout_eq : plan.sampling.timeout? = some (.whole n))
      (large : twoTo 1024 ≤ n.natAbs + twoTo 970) : Escapes plan store .outOfRange
  /-- What the store counts is no whole number. -/
  | count {deadline? : Option (Amount × Binary64)} {answer : Raw} {fault : NumberFault}
      (deadline_eq : deadlineOf plan = .ok deadline?)
      (answer_eq : (plan.store.count store).1 = .ok answer) (fault_eq : answer.toInt = .error fault) :
      Escapes plan store (.badCount fault)
  /-- The store counts a number that has too many digits to be reported. -/
  | digits {deadline? : Option (Amount × Binary64)} {answer : Raw} {n : Int}
      (deadline_eq : deadlineOf plan = .ok deadline?)
      (answer_eq : (plan.store.count store).1 = .ok answer) (number_eq : answer.toInt = .ok n)
      (long : tenTo maxDigits ≤ n.toNat) : Escapes plan store (.badCount .notWritten)
  /-- An adaptive run samples a share that is a floating-point number, of too many documents. -/
  | share {deadline? : Option (Amount × Binary64)} {total : Nat} {x : Binary64}
      (deadline_eq : deadlineOf plan = .ok deadline?)
      (count_eq : countOf (plan.store.count store).1 = .ok total)
      (adaptive : plan.sampling.isAdaptive = true) (fraction_eq : plan.sampling.maxFraction = .float x)
      (large : twoTo 1024 ≤ total + twoTo 970) : Escapes plan store .outOfRange

/-- The ways in which a run fails because it cannot tell a number, which has too many digits. The size of a draw is one
that the settings ask for (`size_of_drawFailed`). -/
inductive Untold (plan : Plan σ) (schedule : Schedule) (collection typeName : String) (cancelled : Bool) (store : σ) :
    RunError → Prop
  /-- A draw fails, and its size cannot be told. -/
  | draw {number size : Nat} {fault : SourceFault} (long : Number.isWritable size = false)
      (failed : (run plan schedule collection typeName cancelled store).result =
        .error (.drawFailed number size fault)) :
      Untold plan schedule collection typeName cancelled store (.drawFailed number size fault)
  /-- The first batch of an adaptive run comes, and how many stable batches it waits for cannot be told. -/
  | batch {deadline? : Option (Amount × Binary64)} {total : Nat} {share : Amount} {p checked : Progress σ} {r : Raw}
      {rs : List Raw} (deadline_eq : deadlineOf plan = .ok deadline?)
      (count_eq : countOf (plan.store.count store).1 = .ok total) (total_ne : total ≠ 0)
      (adaptive : plan.sampling.isAdaptive = true)
      (share_eq : fractionLimit? plan.sampling.maxFraction total = some share)
      (started : p = { Progress.started plan collection typeName store total with cancelled })
      (size_ne : p.size plan ≠ 0) (comes : (p.fetch plan).batch = .ok (r :: rs))
      (passes : checkpoint plan deadline? (Progress.sees plan schedule p) (p.drawn plan) = .ok checked)
      (long : Number.isWritable plan.sampling.stableBatches = false) :
      Untold plan schedule collection typeName cancelled store .untold

/-- A count that is no error of the store, and none that a run may go on with. -/
theorem escapes_of_countOf (hdeadline : deadlineOf plan = .ok deadline?)
    (hcount : countOf (plan.store.count store).1 = .error e) (hown : e.isOwn = false) :
    Escapes plan store e := by
  cases hanswer : (plan.store.count store).1 with
  | error fault =>
    rw [hanswer] at hcount
    cases hcount
    cases hown
  | ok answer =>
    rw [hanswer, countOf] at hcount
    split at hcount
    · rename_i n hnumber
      split at hcount
      · cases hcount
      · rename_i hlong
        cases hcount
        rw [Nat.not_lt] at hlong
        exact .digits hdeadline hanswer hnumber hlong
    · rename_i fault hfault
      cases hcount
      exact .count hdeadline hanswer hfault

theorem escapes_of_result
    (h : (run plan schedule collection typeName cancelled store).result = .error e) (hown : e.isOwn = false) :
    Escapes plan store e ∨ Untold plan schedule collection typeName cancelled store e := by
  cases failsIn_of_result h with
  | deadline deadline_eq =>
    obtain ⟨rfl, n, htimeout, hlarge⟩ := deadlineOf_eq_error_iff.1 deadline_eq
    exact .inl (.budget htimeout hlarge)
  | count deadline_eq count_eq => exact .inl (escapes_of_countOf deadline_eq count_eq hown)
  | @adaptive deadline? total deadline_eq count_eq total_ne adaptive result_eq =>
    obtain ⟨hnone, hended⟩ | ⟨share, result, hshare, hhalts, hended⟩ := adaptiveRun_halts
        (kept_of_long fun q : Progress σ =>
          q = { Progress.started plan collection typeName store total with cancelled }) fun _ => rfl
    · obtain ⟨⟨x, hfraction⟩, hlarge⟩ := fractionLimit?_eq_none_iff.1 hnone
      cases result_eq.symm.trans hended
      exact .inl (.share deadline_eq count_eq adaptive hfraction hlarge)
    rw [result_eq] at hended
    cases result with
    | ok reason => cases hended
    | error fault =>
      cases hended
      cases hhalts with
      | fetch _ fails =>
        obtain ⟨fault, rfl⟩ := exists_fault_of_fetch fails
        exact .inr (.draw hown h)
      | checkpoint _ fails => obtain rfl | ⟨budget, rfl⟩ := eq_of_checkpoint_error fails <;> cases hown
      | breaksOff holds size_ne comes passes long =>
        exact .inr (.batch deadline_eq count_eq total_ne adaptive hshare (holds long) size_ne comes passes long)
  | fixed result_eq =>
    obtain ⟨fault, rfl⟩ := exists_fault_of_fixedRun result_eq
    exact .inr (.draw hown h)

/-- The size of a batch that its store fails to hand out is one that the settings ask for. -/
theorem size_of_drawFailed {number size : Nat} {fault : SourceFault}
    (h : (run plan schedule collection typeName cancelled store).result = .error (.drawFailed number size fault)) :
    size = plan.sampling.fixedSampleSize ∨ ∃ batches sampled, size = nextSize plan.sampling batches sampled := by
  cases failsIn_of_result h with
  | deadline deadline_eq => cases (deadlineOf_eq_error_iff.1 deadline_eq).1
  | count _ count_eq =>
    unfold countOf at count_eq
    split at count_eq
    · cases count_eq
    split at count_eq
    · split at count_eq <;> cases count_eq
    · cases count_eq
  | adaptive _ _ _ _ result_eq =>
    obtain ⟨-, hended⟩ | ⟨share, result, -, hhalts, hended⟩ :=
      adaptiveRun_halts (I := fun _ => True) (fun _ _ _ _ _ _ => trivial) trivial
    · cases hended.symm.trans result_eq
    rw [result_eq] at hended
    cases result with
    | ok reason => cases hended
    | error e =>
      cases hended
      cases hhalts with
      | @fetch q _ _ fails =>
        obtain ⟨fault', hfault⟩ := exists_fault_of_fetch fails
        cases hfault
        exact .inr ⟨q.batches, q.sampled, rfl⟩
      | checkpoint _ fails => obtain hfault | ⟨budget, hfault⟩ := eq_of_checkpoint_error fails <;> cases hfault
  | fixed result_eq =>
    obtain ⟨fault', hfault⟩ := exists_fault_of_fixedRun result_eq
    cases hfault
    exact .inl rfl

theorem judged_of_long {left : Progress σ → Progress σ} {next : Progress σ → Ending σ} {share : Amount}
    (h : Number.isWritable plan.sampling.stableBatches = false) :
    judged plan share left next p = (.error .untold, left p) := by
  rw [judged, verdict?_eq_some_error_iff.2 ⟨h, rfl⟩]

/-- The first batch that cannot be told of is the end of the loop. -/
theorem loop_of_long {share : Amount} {checked : Progress σ} {r : Raw} {rs : List Raw} (hsize : p.size plan ≠ 0)
    (hbatch : (p.fetch plan).batch = .ok (r :: rs))
    (hchecked : checkpoint plan deadline? (Progress.sees plan schedule p) (p.drawn plan) = .ok checked)
    (hlong : Number.isWritable plan.sampling.stableBatches = false) :
    (if plan.sampling.prefetches then overlapped plan { share, deadline? } schedule p
      else sequential plan { share, deadline? } p).1 = .error .untold := by
  rw [Progress.sees] at hchecked
  split
  · rename_i hprefetches
    rw [if_pos hprefetches, Progress.seesAhead, Progress.drawn] at hchecked
    rw [overlapped_eq_checked, if_neg hsize]
    dsimp only
    rw [hchecked, hbatch]
    dsimp only
    rw [answered, judged_of_long hlong]
  · rename_i hprefetches
    rw [if_neg hprefetches, Progress.seesInTurn, Progress.drawn] at hchecked
    rw [sequential_eq_checked, if_neg hsize, hbatch]
    dsimp only
    rw [hchecked]
    dsimp only
    rw [answered, judged_of_long hlong]

theorem Untold.result (h : Untold plan schedule collection typeName cancelled store e) :
    (run plan schedule collection typeName cancelled store).result = .error e ∧ e.isOwn = false := by
  cases h with
  | draw long failed => exact ⟨failed, long⟩
  | batch deadline_eq count_eq total_ne adaptive share_eq started size_ne comes passes long =>
    refine ⟨?_, rfl⟩
    rw [run_of_countOf deadline_eq count_eq]
    dsimp only
    rw [if_neg total_ne, if_pos adaptive, adaptiveRun_of_some share_eq, ← started, conclude,
      loop_of_long size_ne comes passes long]
    rfl

theorem Escapes.result (h : Escapes plan store e) :
    (run plan schedule collection typeName cancelled store).result = .error e ∧ e.isOwn = false := by
  cases h with
  | budget timeout_eq large =>
    exact ⟨result_of_deadlineOf_error (deadlineOf_eq_error_iff.2 ⟨rfl, _, timeout_eq, large⟩), rfl⟩
  | count deadline_eq answer_eq fault_eq =>
    refine ⟨result_of_countOf_error deadline_eq ?_, rfl⟩
    rw [answer_eq, countOf, fault_eq]
  | digits deadline_eq answer_eq number_eq long =>
    refine ⟨result_of_countOf_error deadline_eq ?_, rfl⟩
    rw [answer_eq, countOf, number_eq]
    exact if_neg (Nat.not_lt.2 long)
  | @share deadline? total x deadline_eq count_eq adaptive fraction_eq large =>
    have hpos : total ≠ 0 := by
      rintro rfl
      rw [Nat.zero_add] at large
      exact Nat.not_lt.2 large (Number.twoTo_lt (by decide))
    have hnone : fractionLimit? plan.sampling.maxFraction total = none :=
      fractionLimit?_eq_none_iff.2 ⟨⟨x, fraction_eq⟩, large⟩
    rw [run_of_countOf deadline_eq count_eq]
    dsimp only
    rw [if_neg hpos, if_pos adaptive, adaptiveRun_of_none hnone]
    exact ⟨rfl, rfl⟩

/-- **Which errors escape.** Whatever its store counts and hands out, a run fails with an error of its own,
unless one of the numbers it computes with is no number or too large, or one of those it tells has too many digits. -/
theorem run_escapes_iff (plan : Plan σ) (schedule : Schedule) (collection typeName : String)
    (cancelled : Bool) (store : σ) (e : RunError) :
    (run plan schedule collection typeName cancelled store).result = .error e ∧ e.isOwn = false ↔
      Escapes plan store e ∨ Untold plan schedule collection typeName cancelled store e :=
  ⟨fun h => escapes_of_result h.1 h.2, fun h => h.elim Escapes.result Untold.result⟩

/-- A plan for a store that counts whatever it is made with, and has no document to give. -/
def Plan.counting (answer : Raw) : Plan Unit where
  store :=
    { count := fun state => (.ok answer, state)
      draw := fun _ state => ({ answer := .ok (.list []) }, state) }
  sampling := {}
  extraction := {}
  clock _ := .zero

/-- The default settings are accepted, and a store may count nothing at all, or more documents than a share
can be computed of. The run fails with the error of the conversion then, and does not tell that its store has
failed. -/
theorem run_escapes_miscounted :
    SamplingSettings.overriding {} [] = .ok {} ∧
      (run (Plan.counting .null) {} "items" "Item" false ()).result =
        .error (.badCount (.notIntLike "NoneType")) ∧
      (run (Plan.counting (.int (10 ^ 400 : Nat))) {} "items" "Item" false ()).result = .error .outOfRange ∧
      (RunError.badCount (.notIntLike "NoneType")).isOwn = false ∧ RunError.outOfRange.isOwn = false := by
  refine ⟨SamplingSettings.overriding_self, ?_, ?_, rfl, rfl⟩
  · have hdeadline : deadlineOf (Plan.counting .null) = .ok none := rfl
    have hcount : countOf ((Plan.counting .null).store.count ()).1 =
      .error (.badCount (.notIntLike "NoneType")) := rfl
    exact result_of_countOf_error hdeadline hcount
  · have hlarge : 10 ^ 400 < tenTo maxDigits := by decide +kernel
    have hcount : countOf ((Plan.counting (.int (10 ^ 400 : Nat))).store.count ()).1 = .ok (10 ^ 400) :=
      countOf_int hlarge
    have hlimit :
        fractionLimit? (Plan.counting (.int (10 ^ 400 : Nat))).sampling.maxFraction (10 ^ 400) = none := by
      decide +kernel
    have hpos : 10 ^ 400 ≠ 0 := by decide +kernel
    have hdeadline : deadlineOf (Plan.counting (.int (10 ^ 400 : Nat))) = .ok none := rfl
    rw [run_of_countOf hdeadline hcount]
    dsimp only
    rw [if_neg hpos, if_pos (by rfl), adaptiveRun_of_none hlimit]
    rfl

end Run

end Sampling

end DocSchema
