import DocSchema.Proofs.Sampling.Failure
import DocSchema.Proofs.Sampling.StopRule

/-!
# Runs that are cancelled before they begin

An adaptive run that was cancelled beforehand makes its first request and no other, and fails at the
checkpoint after it. A run that takes one sample of a fixed size has no checkpoint: it ends as if it had
not been cancelled.

- `sequential_cancelled`, `overlapped_cancelled`: the loops of a cancelled run.
- `run_cancelled`: the run as a whole.
-/

namespace DocSchema.Sampling

variable {σ : Type} {plan : Plan σ} {p : Progress σ} {limits : Limits}

/-- The first draw of an adaptive run. -/
def firstDraw (plan : Plan σ) (start : σ) : Draw :=
  (plan.store.draw (nextSize plan.sampling 0 0) start).1

/-- With what an adaptive run fails that was cancelled before it began. Fetching in turn, it is told of a first
fetch that fails, and fetching ahead it does not wait for it. -/
def cancelledError (plan : Plan σ) (start : σ) : RunError :=
  match (firstDraw plan start).documents with
  | .error fault =>
    if plan.sampling.prefetches then .cancelled 0
    else .drawFailed 1 (nextSize plan.sampling 0 0) fault
  | .ok _ => .cancelled 0

theorem checkpoint_cancelled (deadline? : Option (Amount × Binary64)) :
    checkpoint plan deadline? true p = .error (.cancelled p.batches) :=
  if_pos rfl

theorem sequential_cancelled (hcancelled : p.cancelled = true) (hsize : p.size plan ≠ 0) :
    sequential plan limits p =
      match (p.fetch plan).batch with
      | .error e => (.error e, p.drawn plan)
      | .ok _ => (.error (.cancelled p.batches), p.drawn plan) := by
  have hdrawn : (p.fetched (p.size plan) (p.fetch plan)).cancelled = true := by
    rw [Progress.fetched, hcancelled, Bool.true_or]
  rw [sequential_eq_checked, if_neg hsize]
  dsimp only
  rw [hdrawn, checkpoint_cancelled]
  rfl

theorem overlapped_cancelled {schedule : Schedule} (hcancelled : p.cancelled = true)
    (hsize : p.size plan ≠ 0) :
    overlapped plan limits schedule p = (.error (.cancelled p.batches), p.drawn plan) := by
  rw [overlapped_eq_checked, if_neg hsize, hcancelled, Bool.true_or]
  dsimp only
  rw [checkpoint_cancelled]
  rfl

section Run

variable {schedule : Schedule} {collection typeName : String} {store : σ}

theorem fixedRun_cancelled (total : Nat) (cancelled : Bool) :
    fixedRun plan total { p with cancelled } = fixedRun plan total p := by
  rw [fixedRun, fixedRun]
  dsimp only
  cases (fetch plan 1 plan.sampling.fixedSampleSize p.store).batch with
  | error e => rfl
  | ok batch => rfl

/-- A run that takes one sample does not ask whether it was cancelled. -/
theorem run_cancelled_of_fixed (hfixed : plan.sampling.isAdaptive = false) :
    run plan schedule collection typeName true store = run plan schedule collection typeName false store := by
  cases hdeadline : deadlineOf plan with
  | error e => simp only [run, hdeadline, Outcome.failed]
  | ok deadline? =>
    cases hcount : countOf (plan.store.count store).1 with
    | error e => simp only [run, hdeadline, hcount, Outcome.failed]
    | ok total =>
      rw [run_of_countOf hdeadline hcount, run_of_countOf hdeadline hcount]
      dsimp only
      split
      · rfl
      · rw [hfixed, if_neg Bool.false_ne_true, if_neg Bool.false_ne_true]
        exact fixedRun_cancelled total true

/-- **What a cancelled run comes to.** -/
theorem run_cancelled (schedule : Schedule) (collection typeName : String) (store : σ)
    {base : SamplingSettings} {fields : Settings.Fields} {total : Nat}
    (haccepted : SamplingSettings.overriding base fields = .ok plan.sampling)
    (hcount : countOf (plan.store.count store).1 = .ok total) (hpos : 0 < total) :
    let start := (plan.store.count store).2
    let outcome := run plan schedule collection typeName true store
    (plan.sampling.isAdaptive = true → ¬Escapes plan store .outOfRange →
      outcome.result = .error (cancelledError plan start) ∧
        outcome.requests = [nextSize plan.sampling 0 0]) ∧
    (plan.sampling.isAdaptive = true → Escapes plan store .outOfRange →
      outcome.result = .error .outOfRange) ∧
    (plan.sampling.isAdaptive = false → outcome = run plan schedule collection typeName false store) := by
  intro start outcome
  refine ⟨fun hadaptive hfits => ?_, fun _ hescapes => hescapes.result.1, run_cancelled_of_fixed⟩
  obtain ⟨hinitial, -, hmax⟩ := SamplingSettings.sizes_pos haccepted
  have hsize : nextSize plan.sampling 0 0 ≠ 0 := by
    rw [nextSize, if_pos rfl]
    omega
  cases hdeadline : deadlineOf plan with
  | error e =>
    obtain ⟨-, n, htimeout, hlarge⟩ := deadlineOf_eq_error_iff.1 hdeadline
    exact absurd (.budget htimeout hlarge) hfits
  | ok deadline? =>
    cases hlimit : fractionLimit? plan.sampling.maxFraction total with
    | none =>
      obtain ⟨⟨x, hfraction⟩, hlarge⟩ := fractionLimit?_eq_none_iff.1 hlimit
      exact absurd (.share hdeadline hcount hadaptive hfraction hlarge) hfits
    | some share =>
      let started : Progress σ := { Progress.started plan collection typeName store total with cancelled := true }
      have houtcome : outcome = conclude total (if plan.sampling.prefetches then
          overlapped plan { share, deadline? } schedule started
          else sequential plan { share, deadline? } started) := by
        rw [← adaptiveRun_of_some hlimit, show outcome = _ from run_of_countOf hdeadline hcount]
        dsimp only
        rw [if_neg (Nat.ne_of_gt hpos), if_pos hadaptive]
      have hcancelled : started.cancelled = true := rfl
      have hstarted : started.size plan ≠ 0 := hsize
      have hfetch : (started.fetch plan).batch =
          (firstDraw plan start).documents.mapError (.drawFailed 1 (nextSize plan.sampling 0 0)) := rfl
      rw [houtcome, cancelledError]
      cases hprefetch : plan.sampling.prefetches with
      | true =>
        rw [if_pos rfl, overlapped_cancelled hcancelled hstarted]
        cases (firstDraw plan start).documents with
        | error fault => exact ⟨rfl, rfl⟩
        | ok documents => exact ⟨rfl, rfl⟩
      | false =>
        rw [if_neg Bool.false_ne_true, sequential_cancelled hcancelled hstarted, hfetch]
        cases (firstDraw plan start).documents with
        | error fault => exact ⟨rfl, rfl⟩
        | ok documents => exact ⟨rfl, rfl⟩

/-- With the settings that hold by default, of nine documents a first batch is drawn and thrown away. -/
theorem run_cancelled_scripted :
    let plan := Plan.scripted {} 9 fun _ => .ok [.ofFields [("a", .int 1)]]
    SamplingSettings.overriding {} [] = .ok plan.sampling ∧ countOf (plan.store.count 0).1 = .ok 9 ∧
      (run plan {} "items" "Item" true 0).result = .error (.cancelled 0) ∧
      (run plan {} "items" "Item" true 0).requests = [50] := by
  intro plan
  have hcount : countOf (plan.store.count 0).1 = .ok 9 := countOf_int (by decide +kernel)
  have hfits : ¬Escapes plan 0 .outOfRange := by
    intro h
    cases h with
    | budget timeout_eq large => cases timeout_eq
    | share deadline_eq count_eq adaptive fraction_eq large =>
      obtain rfl := Except.ok.inj (hcount.symm.trans count_eq)
      exact absurd large (by decide +kernel)
  obtain ⟨hresult, hrequests⟩ := (@run_cancelled Nat plan {} "items" "Item" 0 {} [] 9
    SamplingSettings.overriding_self hcount (by decide)).1 rfl hfits
  exact ⟨SamplingSettings.overriding_self, hcount, hresult, hrequests⟩

/-- A run that is to take one sample of a fixed size returns an outcome although it was cancelled before it
began, and has merged the document it was handed. -/
theorem run_cancelled_unnoticed :
    let plan := Plan.scripted { adaptive := .bool false } 1 fun _ => .ok [.ofFields [("a", .int 1)]]
    SamplingSettings.overriding {} [("adaptive", .bool false)] = .ok plan.sampling ∧
      countOf (plan.store.count 0).1 = .ok 1 ∧
      (run plan {} "items" "Item" true 0).result.toOption.map (fun c => c.metrics.totalSampled) = some 1 := by
  intro plan
  refine ⟨?_, countOf_int (by decide +kernel), by decide +kernel⟩
  exact SamplingSettings.overriding_eq_ok_iff.2
    ⟨rfl, rfl, rfl, rfl, rfl, rfl, rfl, SamplingSettings.fractionOf_default, rfl, rfl, rfl⟩

end Run

end DocSchema.Sampling
