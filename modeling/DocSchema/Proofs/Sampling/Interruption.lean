import DocSchema.Proofs.Sampling.Round
import DocSchema.Proofs.Sampling.StopRule
import Mathlib.Algebra.Group.Int.Defs

/-!
# Runs that are cancelled or run out of time

An adaptive run asks whether it may go on each time a batch has come, before it merges it. Until it is told
no it does what the run does that nothing interrupts, so what an interruption changes can be read off that
run: the batch that came last is thrown away, and no more are asked for.

- `Plan.calm`: the run that nothing interrupts, on a store that gives the same answers.
- `InterruptedAt`: the first number of batches after which a run may not go on.
- `Reached.sequential_compares`: the loop against that of the calm run.
- `run_interrupted`: the run as a whole.
-/

namespace DocSchema

/-- A store that gives the same answers, and no draw from which is the moment at which a run is cancelled. -/
def Store.calm {σ : Type} (store : Store σ) : Store σ where
  count := store.count
  draw size state := ({ (store.draw size state).1 with cancels := false }, (store.draw size state).2)

/-- Any number of seconds above zero is accepted as the time that a run may take. -/
theorem SamplingSettings.overriding_timeout {n : Int} (h : 0 < n) :
    overriding {} [("timeout_seconds", .int n)] = .ok { timeout? := some (.whole n) } := by
  have hamount : fractionOf (.int n) = .ok (.whole n) := fractionOf_eq_ok_iff.2 ⟨rfl, Amount.isPositive_whole.2 h⟩
  have htimeout : timeoutOf (.int n) = .ok (some (.whole n)) := timeoutOf_eq_ok_iff.2 (.inr (.inr ⟨_, hamount, rfl⟩))
  exact overriding_eq_ok_iff.2 ⟨rfl, rfl, rfl, rfl, rfl, rfl, rfl, fractionOf_default, htimeout, rfl, rfl⟩

theorem Store.neverCancels_calm {σ : Type} (store : Store σ) : store.calm.NeverCancels :=
  fun _ _ => rfl

namespace Sampling

variable {σ : Type}

/-- The plan of a run without a deadline that is given the same answers and is never cancelled. -/
def Plan.calm (plan : Plan σ) : Plan σ :=
  { plan with store := plan.store.calm, sampling := { plan.sampling with timeout? := none } }

section Interruption

variable (plan : Plan σ) (deadline? : Option (Amount × Binary64)) (cancelled : Bool) (start : σ)

/-- What an adaptive run is handed when it has merged some batches and asks for one more. -/
def drawAfter (n : Nat) : Draw :=
  (plan.store.draw (nextSize plan.sampling n (trail plan.store plan.sampling start n).2)
    (trail plan.store plan.sampling start n).1).1

/-- Whether a run is cancelled before its first draws are over. -/
def cancelledBefore (draws : Nat) : Bool :=
  cancelled || (List.range draws).any fun n => (drawAfter plan start n).cancels

/-- Why a run that has merged some batches may not merge one more, if so. The checkpoint is passed after
the draw. The first reading of the clock set the deadline, and each checkpoint takes one more. -/
def interruption? (n : Nat) : Option RunError :=
  if cancelledBefore plan cancelled start (n + 1) then some (.cancelled n)
  else
    match deadline? with
    | none => none
    | some (budget, limit) =>
      if limit.le (plan.clock (n + 1)) then some (.timedOut n budget) else none

/-- A run may go on after fewer batches, but not after some number of them. -/
def InterruptedAt (n : Nat) (e : RunError) : Prop :=
  interruption? plan deadline? cancelled start n = some e ∧
    ∀ m < n, interruption? plan deadline? cancelled start m = none

end Interruption

section Loop

variable {plan : Plan σ} {deadline? : Option (Amount × Binary64)} {cancelled : Bool} {start : σ}
  {share : Amount} {n n' : Nat} {e e' : RunError} {p : Progress σ}

theorem InterruptedAt.unique (h : InterruptedAt plan deadline? cancelled start n e)
    (h' : InterruptedAt plan deadline? cancelled start n' e') : n = n' ∧ e = e' := by
  have hle {n n' : Nat} {e e' : RunError} (h : InterruptedAt plan deadline? cancelled start n e)
      (h' : InterruptedAt plan deadline? cancelled start n' e') : n ≤ n' := by
    apply Nat.le_of_not_lt
    intro hlt
    cases (h.2 n' hlt).symm.trans h'.1
  obtain rfl : n = n' := Nat.le_antisymm (hle h h') (hle h' h)
  exact ⟨rfl, Option.some.inj (h.1.symm.trans h'.1)⟩

/-! ## Requests -/

/-- What follows an answer takes back no request. -/
theorem requests_suffix_answered {next : Progress σ → Ending σ} {batch : Except RunError (List Raw)}
    (hnext : ∀ q, p.sampled < q.sampled → q.requests <:+ (next q).2.requests) :
    p.requests <:+ (answered plan share id next p batch).2.requests := by
  match batch with
  | .error e => exact List.suffix_refl _
  | .ok [] => exact List.suffix_refl _
  | .ok (r :: rs) =>
    rw [answered, judged]
    split
    · exact List.suffix_refl _
    · exact hnext (settled plan p (r :: rs).length _) (Nat.lt_add_of_pos_right (Nat.succ_pos rs.length))

/-- A loop takes back no request. -/
theorem requests_suffix_sequential (limits : Limits) (p : Progress σ) :
    p.requests <:+ (sequential plan limits p).2.requests := by
  induction hbudget : plan.sampling.maxSamples - p.sampled using Nat.strongRecOn generalizing p with
  | _ budget ih =>
    rw [sequential_eq_checked]
    split
    · exact List.suffix_refl _
    rename_i hsize
    have hdrawn : p.requests <:+ (p.fetched (p.size plan) (p.fetch plan)).requests := List.suffix_cons _ _
    dsimp only
    split
    · exact hdrawn
    split
    · exact hdrawn
    rename_i checked hchecked
    obtain ⟨readings, rfl⟩ := exists_readings_of_checkpoint hchecked
    refine hdrawn.trans (requests_suffix_answered (p := { p.fetched _ _ with readings }) fun q hq => ?_)
    exact ih _ (hbudget ▸ budget_lt_of_lt hsize hq) q rfl

/-! ## The loop against that of the calm run -/

/-- A progress without what may interrupt a run. -/
def Progress.quiet (p : Progress σ) : Progress σ :=
  { p with cancelled := false, readings := 1 }

/-- A progress after some batches of a run that was not interrupted yet. -/
structure Reached (plan : Plan σ) (deadline? : Option (Amount × Binary64)) (cancelled : Bool) (start : σ)
    (n : Nat) (p : Progress σ) : Prop where
  trail_eq : trail plan.store plan.sampling start n = (p.store, p.sampled)
  batches_eq : p.batches = n
  requests_eq : p.requests.length = n
  cancelled_eq : p.cancelled = cancelledBefore plan cancelled start n
  readings_eq : deadline?.isSome = true → p.readings = n + 1
  before : ∀ m < n, interruption? plan deadline? cancelled start m = none

/-- How the batches of a run end, against those of the calm run: with the interruption, when there is one
before the calm run has made all its requests, and else as those do. -/
inductive Compares (plan : Plan σ) (deadline? : Option (Amount × Binary64)) (cancelled : Bool) (start : σ)
    (calm : Ending σ) : Ending σ → Prop
  | cut {n : Nat} {e : RunError} {documents : List Raw} {p : Progress σ}
      (interrupted : InterruptedAt plan deadline? cancelled start n e)
      (documents_eq : (drawAfter plan start n).documents = .ok documents)
      (length_eq : p.requests.length = n + 1) (suffix : p.requests <:+ calm.2.requests) :
      Compares plan deadline? cancelled start calm (.error e, p)
  | same {result : Except RunError StopReason} {p : Progress σ} (calm_eq : calm = (result, p.quiet))
      (fails : ∀ n e, InterruptedAt plan deadline? cancelled start n e → n < p.requests.length →
        ∃ fault, (drawAfter plan start n).documents = .error fault) :
      Compares plan deadline? cancelled start calm (result, p)

namespace Reached

variable (h : Reached plan deadline? cancelled start n p)

include h

/-- What the run is answered next. -/
theorem batch_fetch : (p.fetch plan).batch =
    (drawAfter plan start n).documents.mapError (.drawFailed (n + 1) (p.size plan)) := by
  rw [drawAfter, h.trail_eq, ← h.batches_eq]
  rfl

/-- A run is known to be cancelled when it was before its last draw was over. -/
theorem cancelled_fetched : (p.fetched (p.size plan) (p.fetch plan)).cancelled =
    cancelledBefore plan cancelled start (n + 1) := by
  have hdraw : (p.fetch plan).cancels = (drawAfter plan start n).cancels := by
    rw [drawAfter, h.trail_eq, ← h.batches_eq]
    rfl
  rw [Progress.fetched, hdraw, h.cancelled_eq, cancelledBefore, cancelledBefore, List.range_succ,
    List.any_append, List.any_cons, List.any_nil, Bool.or_false, Bool.or_assoc]

/-- The checkpoint says whether the run is interrupted. -/
theorem checkpoint_eq : ∃ readings, (deadline?.isSome = true → readings = n + 2) ∧
    checkpoint plan deadline? (p.fetched (p.size plan) (p.fetch plan)).cancelled
        (p.fetched (p.size plan) (p.fetch plan)) =
      match interruption? plan deadline? cancelled start n with
      | some e => .error e
      | none => .ok { p.fetched (p.size plan) (p.fetch plan) with readings } := by
  obtain rfl : p.batches = n := h.batches_eq
  rw [h.cancelled_fetched, checkpoint.eq_def, interruption?.eq_def]
  cases cancelledBefore plan cancelled start (p.batches + 1) with
  | true => exact ⟨p.batches + 2, fun _ => rfl, rfl⟩
  | false =>
    cases deadline? with
    | none => exact ⟨p.readings, fun hsome => (by cases hsome), rfl⟩
    | some deadline =>
      have hreadings : (p.fetched (p.size plan) (p.fetch plan)).readings = p.batches + 1 := h.readings_eq rfl
      refine ⟨p.batches + 2, fun _ => rfl, ?_⟩
      simp only [Bool.false_eq_true, if_false, hreadings]
      split
      · rfl
      · rfl

/-- A run that passes its checkpoint and merges a batch has come one batch further. -/
theorem settled (hnone : interruption? plan deadline? cancelled start n = none) {batch : List Raw}
    (hbatch : (drawAfter plan start n).documents = .ok batch) {readings : Nat}
    (hreadings : deadline?.isSome = true → readings = n + 2) (merged : Accumulator × List Notice) :
    Reached plan deadline? cancelled start (n + 1)
      (settled plan { p.fetched (p.size plan) (p.fetch plan) with readings } batch.length merged) where
  trail_eq := by
    rw [drawAfter, h.trail_eq] at hbatch
    rw [trail, h.trail_eq]
    dsimp only at hbatch ⊢
    rw [hbatch, ← h.batches_eq]
    rfl
  batches_eq := congrArg (· + 1) h.batches_eq
  requests_eq := congrArg (· + 1) h.requests_eq
  cancelled_eq := h.cancelled_fetched
  readings_eq := hreadings
  before m hm := by
    rcases Nat.lt_succ_iff_lt_or_eq.1 hm with hlt | rfl
    · exact h.before m hlt
    · exact hnone

/-- A run ends as the calm run when it makes no request more, or when it may go on after the one more that it
makes or is refused it. -/
theorem compares_same {calm : Ending σ} {result : Except RunError StopReason} {q : Progress σ}
    (hcalm : calm = (result, q.quiet))
    (hrequests : q.requests.length = n ∨ q.requests.length = n + 1 ∧
      (interruption? plan deadline? cancelled start n = none ∨
        ∃ fault, (drawAfter plan start n).documents = .error fault)) :
    Compares plan deadline? cancelled start calm (result, q) := by
  refine .same hcalm fun m e hinterrupted hlt => ?_
  rcases hrequests with hlength | ⟨hlength, hlast⟩
  · cases (h.before m (hlength ▸ hlt)).symm.trans hinterrupted.1
  · rw [hlength] at hlt
    rcases Nat.lt_succ_iff_lt_or_eq.1 hlt with hm | rfl
    · cases (h.before m hm).symm.trans hinterrupted.1
    · rcases hlast with hnone | hfault
      · cases hnone.symm.trans hinterrupted.1
      · exact hfault

/-- Both runs have had enough, or neither, when the loops after it compare. -/
theorem judged_compares (hnext : Compares plan deadline? cancelled start
      (sequential plan.calm { share } p.quiet) (sequential plan { share, deadline? } p)) :
    Compares plan deadline? cancelled start
      (judged plan.calm share id (sequential plan.calm { share }) p.quiet)
      (judged plan share id (sequential plan { share, deadline? }) p) := by
  have hverdict : verdict? plan.calm.sampling share p.quiet.stable p.quiet.sampled =
    verdict? plan.sampling share p.stable p.sampled := rfl
  rw [judged, judged, hverdict]
  cases verdict? plan.sampling share p.stable p.sampled with
  | some ending => exact h.compares_same rfl (.inl h.requests_eq)
  | none => exact hnext

/-- A loop that was not interrupted yet ends as that of the calm run unless it is interrupted. The induction
is on what is left of the budget, as both loops take the same turns. -/
theorem sequential_compares : Compares plan deadline? cancelled start
    (sequential plan.calm { share } p.quiet) (sequential plan { share, deadline? } p) := by
  induction hbudget : plan.sampling.maxSamples - p.sampled using Nat.strongRecOn generalizing n p with
  | _ budget ih =>
    rw [sequential_eq_turn plan.store.neverCancels_calm rfl, turn, sequential_eq_checked]
    have hquiet : p.quiet.size plan.calm = p.size plan := rfl
    rw [hquiet]
    by_cases hsize : p.size plan = 0
    · rw [if_pos hsize, if_pos hsize]
      exact h.compares_same rfl (.inl h.requests_eq)
    rw [if_neg hsize, if_neg hsize]
    have hlength : (p.fetched (p.size plan) (p.fetch plan)).requests.length = n + 1 :=
      congrArg (· + 1) h.requests_eq
    have hsame : (p.quiet.fetch plan.calm).batch = (p.fetch plan).batch := rfl
    rw [hsame, h.batch_fetch]
    cases hdocuments : (drawAfter plan start n).documents with
    | error fault =>
      exact h.compares_same rfl (.inr ⟨hlength, .inr ⟨fault, hdocuments⟩⟩)
    | ok batch =>
      obtain ⟨readings, hreadings, hcheckpoint⟩ := h.checkpoint_eq
      have hanswer : (Except.ok batch).mapError (RunError.drawFailed (n + 1) (p.size plan)) = .ok batch := rfl
      rw [hanswer]
      dsimp only
      rw [hcheckpoint]
      cases hinterruption : interruption? plan deadline? cancelled start n with
      | some e =>
        refine .cut ⟨hinterruption, h.before⟩ hdocuments hlength ?_
        exact requests_suffix_answered (p := p.quiet.fetched _ _) fun q _ =>
          @requests_suffix_sequential σ plan.calm { share } q
      | none =>
        cases batch with
        | nil => exact h.compares_same rfl (.inr ⟨hlength, .inl hinterruption⟩)
        | cons r rs =>
          refine (h.settled hinterruption hdocuments hreadings _).judged_compares ?_
          refine ih _ ?_ (h.settled hinterruption hdocuments hreadings _) rfl
          rw [← hbudget]
          exact budget_lt hsize rs.length

end Reached

end Loop

/-! ## The run -/

/-- An outcome is that of the calm run, up to where the run is interrupted. When an interruption comes before
the requests of the calm run are over, and the fetch before it does not fail, the run ends with the
interruption and has made the requests of the calm run up to there, one more than it has merged batches. -/
structure Outcome.Cuts (plan : Plan σ) (deadline? : Option (Amount × Binary64)) (cancelled : Bool) (start : σ)
    (calm outcome : Outcome σ) : Prop where
  interrupted : ∀ n e documents, InterruptedAt plan deadline? cancelled start n e →
    n < calm.requests.length → (drawAfter plan start n).documents = .ok documents →
    outcome.result = .error e ∧ outcome.requests.length = n + 1 ∧
      outcome.requests = calm.requests.take (n + 1)
  undisturbed : (∀ n e, InterruptedAt plan deadline? cancelled start n e → n < calm.requests.length →
    ∃ fault, (drawAfter plan start n).documents = .error fault) → outcome = calm

section Run

variable {plan : Plan σ} {deadline? : Option (Amount × Binary64)} {cancelled : Bool} {start : σ}

theorem Outcome.cuts_self {outcome : Outcome σ} (h : outcome.requests = []) :
    Outcome.Cuts plan deadline? cancelled start outcome outcome where
  interrupted n _ _ _ hlt _ := absurd hlt (by rw [h]; exact Nat.not_lt_zero n)
  undisturbed _ := rfl

theorem requests_conclude (total : Nat) (ended : Ending σ) :
    (conclude total ended).requests = ended.2.requests.reverse := by
  rw [conclude]
  split
  · rfl
  · rfl

/-- Nothing that may interrupt a run is left in its outcome. -/
theorem conclude_quiet (total : Nat) (result : Except RunError StopReason) (p : Progress σ) :
    conclude total (result, p.quiet) = conclude total (result, p) := by
  cases result with
  | error e => rfl
  | ok reason => rfl

/-- What a run leaves whose batches end as the comparison says. -/
theorem Compares.cuts {calm ended : Ending σ} (h : Compares plan deadline? cancelled start calm ended)
    (total : Nat) :
    Outcome.Cuts plan deadline? cancelled start (conclude total calm) (conclude total ended) := by
  cases h with
  | @cut n e documents p interrupted documents_eq length_eq suffix =>
    have hlt : n < (conclude total calm).requests.length := by
      have hle : p.requests.length ≤ calm.2.requests.length := suffix.length_le
      rw [length_eq] at hle
      rwa [requests_conclude, List.length_reverse]
    constructor
    · intro n' e' documents' hinterrupted _ _
      obtain ⟨rfl, rfl⟩ := interrupted.unique hinterrupted
      have hprefix : p.requests.reverse <+: (conclude total calm).requests := by
        rw [requests_conclude]
        exact List.reverse_prefix.2 suffix
      have hlength : p.requests.reverse.length = n + 1 := by rw [List.length_reverse, length_eq]
      refine ⟨rfl, hlength, ?_⟩
      rw [← hlength]
      exact List.prefix_iff_eq_take.1 hprefix
    · intro hfails
      obtain ⟨fault, hfault⟩ := hfails n e interrupted hlt
      cases documents_eq.symm.trans hfault
  | @same result p calm_eq fails =>
    have hsame : conclude total calm = conclude total (result, p) := by rw [calm_eq, conclude_quiet]
    constructor
    · intro n e documents hinterrupted hlt hdocuments
      rw [hsame, requests_conclude, List.length_reverse] at hlt
      obtain ⟨fault, hfault⟩ := fails n e hinterrupted hlt
      cases hdocuments.symm.trans hfault
    · exact fun _ => hsame.symm

theorem outOfRange_of_deadlineOf {e : RunError} (h : deadlineOf plan = .error e) : e = .outOfRange := by
  rw [deadlineOf] at h
  split at h
  · cases h
  · split at h
    · cases h
    · exact (Except.error.inj h).symm

/-- **Where a run is interrupted.** An adaptive run that fetches in turn, on a store with some documents,
leaves what the calm run leaves, up to where it is interrupted. The deadline is computed first, and a run
whose deadline is a number too large fails before it asks for anything. -/
theorem run_interrupted {plan : Plan σ} (schedule : Schedule) {collection typeName : String}
    (cancelled : Bool) {store : σ} {total : Nat} (hadaptive : plan.sampling.isAdaptive = true)
    (hprefetch : plan.sampling.prefetches = false)
    (hcount : countOf (plan.store.count store).1 = .ok total) (hpos : 0 < total) :
    let outcome := run plan schedule collection typeName cancelled store
    (∀ deadline?, deadlineOf plan = .ok deadline? →
      Outcome.Cuts plan deadline? cancelled (plan.store.count store).2
        (run plan.calm schedule collection typeName false store) outcome) ∧
    ∀ e, deadlineOf plan = .error e → e = .outOfRange ∧ outcome.result = .error e ∧ outcome.requests = [] := by
  intro outcome
  constructor
  · intro deadline? hdeadline
    let started : Progress σ := { Progress.started plan collection typeName store total with cancelled }
    have hcalm : run plan.calm schedule collection typeName false store =
        adaptiveRun plan.calm schedule none total started.quiet :=
      run_eq_adaptiveRun hadaptive rfl hcount hpos
    have houtcome : outcome = adaptiveRun plan schedule deadline? total started := by
      simp only [outcome, run, hdeadline, hcount, if_neg (Nat.ne_of_gt hpos), hadaptive, if_true]
      rfl
    have hstarted : Reached plan deadline? cancelled (plan.store.count store).2 0 started :=
      ⟨rfl, rfl, rfl, (Bool.or_false _).symm, fun _ => rfl, fun m hm => absurd hm (Nat.not_lt_zero m)⟩
    rw [houtcome, hcalm]
    cases hlimit : fractionLimit? plan.sampling.maxFraction total with
    | none =>
      have hlimit' : fractionLimit? plan.calm.sampling.maxFraction total = none := hlimit
      rw [adaptiveRun_of_none hlimit, adaptiveRun_of_none hlimit']
      exact Outcome.cuts_self rfl
    | some share =>
      have hlimit' : fractionLimit? plan.calm.sampling.maxFraction total = some share := hlimit
      have hprefetch' : plan.calm.sampling.prefetches = false := hprefetch
      rw [adaptiveRun_of_some hlimit, adaptiveRun_of_some hlimit', hprefetch, hprefetch']
      exact hstarted.sequential_compares.cuts total
  · intro e hdeadline
    have hfailed : outcome = .failed e false
        { store, accumulator := .fresh collection typeName, cancelled, readings := 1 } := by
      simp only [outcome, run, hdeadline]
    rw [hfailed]
    exact ⟨outOfRange_of_deadlineOf hdeadline, rfl, rfl⟩

/-- The time is up when the second batch has come, and it is not merged; the third draw would have been the
moment at which the run is cancelled. -/
theorem run_interrupted_second :
    let plan : Plan Nat :=
      { store :=
          { count := fun i => (.ok (.int 9), i)
            draw := fun _ i =>
              ({ answer := .ok (.list [.ofFields [("a", .int 1)]]), cancels := i == 2 }, i + 1) }
        sampling := { timeout? := some (.whole 5) }
        extraction := {}
        clock := fun i => if i ≤ 1 then .zero else .finite false 4503599627370496 (-49) }
    let deadline? := some (Amount.whole 5, Binary64.finite false 5629499534213120 (-50))
    countOf (plan.store.count 0).1 = .ok 9 ∧ deadlineOf plan = .ok deadline? ∧
      InterruptedAt plan deadline? false 0 1 (.timedOut 1 (.whole 5)) ∧
      (run plan.calm {} "items" "Item" false 0).requests = [50, 200, 200] ∧
      (run plan {} "items" "Item" false 0).result = .error (.timedOut 1 (.whole 5)) ∧
      (run plan {} "items" "Item" false 0).requests.length = 2 := by
  intro plan deadline?
  have hcount : countOf (plan.store.count 0).1 = .ok 9 := countOf_int (by decide +kernel)
  have hlimit : Sampling.deadline? .zero (.whole 5) = some (.finite false 5629499534213120 (-50)) := by
    decide +kernel
  have hdeadline : deadlineOf plan = .ok deadline? := by
    simp only [deadlineOf, plan, if_pos (Nat.zero_le 1), hlimit, deadline?]
  have hinterrupted : InterruptedAt plan deadline? false 0 1 (.timedOut 1 (.whole 5)) := by
    have hlate : (Binary64.finite false 5629499534213120 (-50)).le (plan.clock 2) = true := by decide +kernel
    have hearly : (Binary64.finite false 5629499534213120 (-50)).le (plan.clock 1) = false := by
      decide +kernel
    have hcancelled : cancelledBefore plan false 0 2 = false := by decide +kernel
    have hcancelled' : cancelledBefore plan false 0 1 = false := by decide +kernel
    constructor
    · simp [interruption?, deadline?, hcancelled, hlate]
    · intro m hm
      obtain rfl : m = 0 := Nat.lt_one_iff.1 hm
      simp [interruption?, deadline?, hcancelled', hearly]
  have hcalm : (run plan.calm {} "items" "Item" false 0).requests = [50, 200, 200] := by decide +kernel
  have hcuts := (@run_interrupted Nat plan {} "items" "Item" false 0 9 rfl rfl hcount (by decide)).1
    deadline? hdeadline
  have hdocuments : (drawAfter plan 0 1).documents = .ok [.ofFields [("a", .int 1)]] := rfl
  obtain ⟨hresult, hlength, -⟩ := hcuts.interrupted 1 _ _ hinterrupted (by rw [hcalm]; decide) hdocuments
  exact ⟨hcount, hdeadline, hinterrupted, hcalm, hresult, hlength⟩

/-- A budget of very many seconds is accepted, and no reading of the clock reaches its end. The deadline is
computed as a floating-point number, though, and none is near it: the run fails, although the store has
no document to give and the calm run comes to its end. -/
theorem run_outOfRange_of_huge_timeout :
    let plan := Plan.scripted { timeout? := some (.whole (10 ^ 400)) } 1 fun _ => .ok []
    SamplingSettings.overriding {} [("timeout_seconds", .int (10 ^ 400))] = .ok plan.sampling ∧
      (run plan {} "items" "Item" false 0).result = .error .outOfRange ∧
      (run plan.calm {} "items" "Item" false 0).result.toOption.map (fun c => c.metrics.stopReason?) =
        some (some .exhausted) := by
  intro plan
  have hlimit : Sampling.deadline? .zero (.whole (10 ^ 400)) = none := by decide +kernel
  have hdeadline : deadlineOf plan = .error .outOfRange := by
    simp only [deadlineOf, plan, Plan.scripted, hlimit]
  have hlarge : (0 : Int) < 10 ^ 400 := by decide +kernel
  refine ⟨SamplingSettings.overriding_timeout hlarge, ?_, by decide +kernel⟩
  simp only [run, hdeadline, Outcome.failed]

end Run

end Sampling

end DocSchema
