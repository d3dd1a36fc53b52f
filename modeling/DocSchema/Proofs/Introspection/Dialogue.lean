import DocSchema.Introspection
import DocSchema.Proofs.Sampling.Round

/-!
# The calls of a run

A run over a collection uses its store in no other way than by calls that are answered: it counts the
documents once, and then asks for one batch after the other. What a run does between two calls is its own
business, so a run is a tree of calls, with a branch for each answer. Other calls to the same source may
come between two calls of a run.

- `Dialogue`: calls, each of which may depend on the answers to those before.
- `sequentialCalls`, `overlappedCalls`: the calls of the two loops over batches.
- `introspectCalls`: the calls of an introspection.
- `introspect_eq_on`: an introspection comes to what its calls come to.
- `introspectCalls_schedule`: how fetching ahead falls out changes no result.
-/

namespace DocSchema

/-- What is asked of a collection. -/
inductive Call
  | count
  | draw (size : Nat)

/-- What answers calls, from one state to the next. -/
abbrev Answering (σ : Type) : Type :=
  Call → σ → Except SourceFault Raw × σ

/-- A store that is asked by calls, and no draw from which is the moment at which a run is cancelled. -/
def Store.answering {σ : Type} (answer : Answering σ) : Store σ where
  count := answer .count
  draw size state := ({ answer := (answer (.draw size) state).1 }, (answer (.draw size) state).2)

/-- Calls that are made one after the other, each depending on the answers so far, and what they come to. -/
inductive Dialogue (α : Type)
  | done (result : α)
  | ask (call : Call) (next : Except SourceFault Raw → Dialogue α)

namespace Dialogue

variable {α β σ : Type}

/-- What calls come to that are answered from a state on. -/
def on (answer : Answering σ) : Dialogue α → σ → α × σ
  | .done result, state => (result, state)
  | .ask call next, state => (next (answer call state).1).on answer (answer call state).2

/-- The number of calls that are made when they are answered from a state on. -/
def length (answer : Answering σ) : Dialogue α → σ → Nat
  | .done _, _ => 0
  | .ask call next, state => (next (answer call state).1).length answer (answer call state).2 + 1

/-- The same calls, with something made of what they come to. -/
def map (f : α → β) : Dialogue α → Dialogue β
  | .done result => .done (f result)
  | .ask call next => .ask call fun given => (next given).map f

theorem map_map {γ : Type} (f : α → β) (g : β → γ) (d : Dialogue α) :
    (d.map f).map g = d.map fun result => g (f result) := by
  induction d with
  | done result => rfl
  | ask call next ih => exact congrArg (ask call) (funext ih)

theorem on_map (f : α → β) (answer : Answering σ) (d : Dialogue α) (state : σ) :
    (d.map f).on answer state = (f (d.on answer state).1, (d.on answer state).2) := by
  induction d generalizing state with
  | done result => rfl
  | ask call next ih => exact ih _ _

end Dialogue

namespace Sampling

variable {σ : Type}

/-! ## Runs without the state of their store -/

/-- A plan for a store that is asked by calls. -/
def Plan.over (rules : Plan Unit) (answer : Answering σ) : Plan σ :=
  { rules with store := .answering answer }

/-- A progress at a state of the store. -/
def Progress.within (p : Progress Unit) (store : σ) : Progress σ :=
  { p with store }

/-- An end at a state of the store. -/
def endWithin (e : Ending Unit × σ) : Ending σ :=
  (e.1.1, e.1.2.within e.2)

/-- What an answer brings to a run. -/
def brought (number size : Nat) (given : Except SourceFault Raw) : Fetched Unit where
  batch := (Draw.mk given false).documents.mapError (.drawFailed number size)
  cancels := false
  store := ()

section Calls

variable (rules : Plan Unit) (limits : Limits) (schedule : Schedule)

/-- The calls of the loop that fetches its batches in turn. -/
def sequentialCalls (p : Progress Unit) : Dialogue (Ending Unit) :=
  if _hsize : p.size rules = 0 then .done (.ok .maxSamplesReached, p)
  else
    .ask (.draw (p.size rules)) fun given =>
      let f := brought (p.batches + 1) (p.size rules) given
      let drawn := p.fetched (p.size rules) f
      match f.batch with
      | .error e => .done (.error e, drawn)
      | .ok batch =>
        match _h : checkpoint rules limits.deadline? drawn.cancelled drawn with
        | .error e => .done (.error e, drawn)
        | .ok checked =>
          match batch with
          | [] => .done (.ok .exhausted, checked)
          | r :: rs =>
            let q := settled rules checked (r :: rs).length
              (ingestAll rules.extraction (checked.batches + 1) 0 (r :: rs) checked.accumulator)
            match verdict? rules.sampling limits.share q.stable q.sampled with
            | some ending => .done (ending, q)
            | none => sequentialCalls q
termination_by rules.sampling.maxSamples - p.sampled
decreasing_by exact budget_settled _hsize _h rs.length _

/-- What is left to call when the loop that fetches ahead stops. -/
def leaveCalls (ending : Except RunError StopReason) (p : Progress Unit) : Dialogue (Ending Unit) :=
  if schedule.fetchesLeftOver && p.size rules != 0 then .ask (.draw (p.size rules)) fun _ => .done (ending, p)
  else .done (ending, p)

/-- The calls of the loop that fetches ahead. -/
def overlappedCalls (p : Progress Unit) : Dialogue (Ending Unit) :=
  if _hsize : p.size rules = 0 then .done (.ok .maxSamplesReached, p)
  else
    .ask (.draw (p.size rules)) fun given =>
      let f := brought (p.batches + 1) (p.size rules) given
      let drawn := p.fetched (p.size rules) f
      match _h : checkpoint rules limits.deadline? p.cancelled drawn with
      | .error e => .done (.error e, drawn)
      | .ok checked =>
        match f.batch with
        | .error e => .done (.error e, checked)
        | .ok [] => .done (.ok .exhausted, checked)
        | .ok (r :: rs) =>
          let q := settled rules checked (r :: rs).length
            (ingestAll rules.extraction (checked.batches + 1) 0 (r :: rs) checked.accumulator)
          match verdict? rules.sampling limits.share q.stable q.sampled with
          | some ending => leaveCalls rules schedule ending q
          | none => overlappedCalls q
termination_by rules.sampling.maxSamples - p.sampled
decreasing_by exact budget_settled _hsize _h rs.length _

end Calls

variable {rules : Plan Unit} {limits : Limits} {answer : Answering σ} {p : Progress Unit} {state : σ}

theorem checkpoint_within (deadline? : Option (Amount × Binary64)) (cancelled : Bool) :
    checkpoint (rules.over answer) deadline? cancelled (p.within state) =
      (checkpoint rules deadline? cancelled p).map fun q => q.within state := by
  cases cancelled with
  | true => rfl
  | false =>
    cases deadline? with
    | none => rfl
    | some deadline =>
      have hclock : (rules.over answer).clock (p.within state).readings = rules.clock p.readings := rfl
      simp only [checkpoint, Bool.false_eq_true, if_false, hclock]
      split
      · rfl
      · rfl

/-- What follows a batch that is merged: what is left to do at a stop, and else the next round. -/
def answeredCalls (rules : Plan Unit) (share : Amount)
    (leave : Except RunError StopReason → Progress Unit → Dialogue (Ending Unit))
    (next : Progress Unit → Dialogue (Ending Unit)) (p : Progress Unit) : List Raw → Dialogue (Ending Unit)
  | [] => .done (.ok .exhausted, p)
  | r :: rs =>
    let q := settled rules p (r :: rs).length
      (ingestAll rules.extraction (p.batches + 1) 0 (r :: rs) p.accumulator)
    match verdict? rules.sampling share q.stable q.sampled with
    | some ending => leave ending q
    | none => next q

theorem sequentialCalls_eq : sequentialCalls rules limits p =
    if p.size rules = 0 then .done (.ok .maxSamplesReached, p)
    else
      .ask (.draw (p.size rules)) fun given =>
        let f := brought (p.batches + 1) (p.size rules) given
        let drawn := p.fetched (p.size rules) f
        match f.batch with
        | .error e => .done (.error e, drawn)
        | .ok batch =>
          match checkpoint rules limits.deadline? drawn.cancelled drawn with
          | .error e => .done (.error e, drawn)
          | .ok checked =>
            answeredCalls rules limits.share (fun ending q => .done (ending, q))
              (sequentialCalls rules limits) checked batch := by
  rw [sequentialCalls]
  split
  · rfl
  refine congrArg _ (funext fun given => ?_)
  dsimp only
  split
  · rfl
  · rename_i batch hbatch
    split
    · rename_i e hchecked
      rw [hchecked]
    · rename_i checked hchecked
      rw [hchecked]
      cases batch with
      | nil => rfl
      | cons r rs => rfl

theorem answered_within {share : Amount} {left : Progress σ → Progress σ} {next : Progress σ → Ending σ}
    {leave' : Except RunError StopReason → Progress Unit → Dialogue (Ending Unit)}
    {next' : Progress Unit → Dialogue (Ending Unit)} (batch : List Raw)
    (hleave : ∀ ending q, endWithin ((leave' ending q).on answer state) = (ending, left (q.within state)))
    (hnext : ∀ q, p.sampled < q.sampled → next (q.within state) = endWithin ((next' q).on answer state)) :
    answered (rules.over answer) share left next (p.within state) (.ok batch) =
      endWithin ((answeredCalls rules share leave' next' p batch).on answer state) := by
  cases batch with
  | nil => rfl
  | cons r rs =>
    rw [answeredCalls]
    generalize hq : settled rules p (r :: rs).length
      (ingestAll rules.extraction (p.batches + 1) 0 (r :: rs) p.accumulator) = q
    have hsampled : p.sampled < q.sampled := by
      rw [← hq]
      exact Nat.lt_add_of_pos_right (Nat.succ_pos rs.length)
    have hjudged : answered (rules.over answer) share left next (p.within state) (.ok (r :: rs)) =
        judged (rules.over answer) share left next (q.within state) := by
      rw [← hq]
      rfl
    have hverdict : verdict? (rules.over answer).sampling share (q.within state).stable
      (q.within state).sampled = verdict? rules.sampling share q.stable q.sampled := rfl
    rw [hjudged, judged, hverdict]
    cases verdict? rules.sampling share q.stable q.sampled with
    | some ending => exact (hleave ending q).symm
    | none => exact hnext q hsampled

theorem sequential_within : sequential (rules.over answer) limits (p.within state) =
    endWithin ((sequentialCalls rules limits p).on answer state) := by
  induction hbudget : rules.sampling.maxSamples - p.sampled using Nat.strongRecOn generalizing p state with
  | _ budget ih =>
    rw [sequential_eq_checked, sequentialCalls_eq]
    have hsame : (p.within state).size (rules.over answer) = p.size rules := rfl
    rw [hsame]
    by_cases hsize : p.size rules = 0
    · rw [if_pos hsize, if_pos hsize]
      rfl
    rw [if_neg hsize, if_neg hsize]
    have hbatch : ((p.within state).fetch (rules.over answer)).batch =
      (brought (p.batches + 1) (p.size rules) (answer (.draw (p.size rules)) state).1).batch := rfl
    have hdrawn : (p.within state).fetched (p.size rules) ((p.within state).fetch (rules.over answer)) =
      (p.fetched (p.size rules) (brought (p.batches + 1) (p.size rules)
        (answer (.draw (p.size rules)) state).1)).within (answer (.draw (p.size rules)) state).2 := rfl
    rw [Dialogue.on]
    dsimp only
    rw [hbatch, hdrawn]
    cases (brought (p.batches + 1) (p.size rules) (answer (.draw (p.size rules)) state).1).batch with
    | error e => rfl
    | ok batch =>
      generalize hdrawn : p.fetched (p.size rules) (brought (p.batches + 1) (p.size rules) _) = drawn
      dsimp only
      have hcancelled : (drawn.within (answer (.draw (p.size rules)) state).2).cancelled = drawn.cancelled := rfl
      rw [checkpoint_within, hcancelled]
      cases hchecked : checkpoint rules limits.deadline? drawn.cancelled drawn with
      | error e => rfl
      | ok checked =>
        refine answered_within batch (fun _ _ => rfl) fun q hq => ih _ ?_ rfl
        have hsampled : checked.sampled = p.sampled := by
          rw [sampled_checkpoint hchecked, ← hdrawn]
          rfl
        rw [hsampled] at hq
        exact hbudget ▸ budget_lt_of_lt hsize hq

theorem overlappedCalls_eq {schedule : Schedule} : overlappedCalls rules limits schedule p =
    if p.size rules = 0 then .done (.ok .maxSamplesReached, p)
    else
      .ask (.draw (p.size rules)) fun given =>
        let f := brought (p.batches + 1) (p.size rules) given
        let drawn := p.fetched (p.size rules) f
        match checkpoint rules limits.deadline? p.cancelled drawn with
        | .error e => .done (.error e, drawn)
        | .ok checked =>
          match f.batch with
          | .error e => .done (.error e, checked)
          | .ok batch =>
            answeredCalls rules limits.share (leaveCalls rules schedule)
              (overlappedCalls rules limits schedule) checked batch := by
  rw [overlappedCalls]
  split
  · rfl
  refine congrArg _ (funext fun given => ?_)
  dsimp only
  split
  · rename_i e hchecked
    rw [hchecked]
  · rename_i checked hchecked
    rw [hchecked]
    dsimp only
    cases (brought (p.batches + 1) (p.size rules) given).batch with
    | error e => rfl
    | ok batch =>
      cases batch with
      | nil => rfl
      | cons r rs => rfl

theorem leaveCalls_on (schedule : Schedule) (ending : Except RunError StopReason) (q : Progress Unit) :
    endWithin ((leaveCalls rules schedule ending q).on answer state) =
      (ending, schedule.leave (rules.over answer) (q.within state)) := by
  have hsize : (q.within state).size (rules.over answer) = q.size rules := rfl
  rw [leaveCalls, Schedule.leave, hsize]
  split
  · rfl
  · rfl

theorem overlapped_within {schedule : Schedule} :
    overlapped (rules.over answer) limits schedule (p.within state) =
      endWithin ((overlappedCalls rules limits schedule p).on answer state) := by
  induction hbudget : rules.sampling.maxSamples - p.sampled using Nat.strongRecOn generalizing p state with
  | _ budget ih =>
    rw [overlapped_eq_checked, overlappedCalls_eq]
    have hsame : (p.within state).size (rules.over answer) = p.size rules := rfl
    rw [hsame]
    by_cases hsize : p.size rules = 0
    · rw [if_pos hsize, if_pos hsize]
      rfl
    rw [if_neg hsize, if_neg hsize]
    have hbatch : ((p.within state).fetch (rules.over answer)).batch =
      (brought (p.batches + 1) (p.size rules) (answer (.draw (p.size rules)) state).1).batch := rfl
    have hcancels : ((p.within state).cancelled ||
        (schedule.seesCancel (p.within state).batches && ((p.within state).fetch (rules.over answer)).cancels)) =
        p.cancelled := by
      have hnever : ((p.within state).fetch (rules.over answer)).cancels = false := rfl
      rw [hnever, Bool.and_false, Bool.or_false]
      rfl
    have hdrawn : (p.within state).fetched (p.size rules) ((p.within state).fetch (rules.over answer)) =
      (p.fetched (p.size rules) (brought (p.batches + 1) (p.size rules)
        (answer (.draw (p.size rules)) state).1)).within (answer (.draw (p.size rules)) state).2 := rfl
    rw [Dialogue.on]
    dsimp only
    rw [hbatch, hcancels, hdrawn, checkpoint_within]
    cases hchecked : checkpoint rules limits.deadline? p.cancelled (p.fetched (p.size rules) _) with
    | error e => rfl
    | ok checked =>
      dsimp only [Except.map]
      cases (brought (p.batches + 1) (p.size rules) (answer (.draw (p.size rules)) state).1).batch with
      | error e => rfl
      | ok batch =>
        refine answered_within batch (leaveCalls_on schedule) fun q hq => ih _ ?_ rfl
        have hsampled : checked.sampled = p.sampled := (sampled_checkpoint hchecked).trans rfl
        rw [hsampled] at hq
        exact hbudget ▸ budget_lt_of_lt hsize hq

/-! ## How fetching ahead falls out -/

/-- Whether a batch that was asked for is fetched after the end makes no difference to the end. -/
theorem overlappedCalls_schedule (schedule schedule' : Schedule) :
    ((overlappedCalls rules limits schedule p).on answer state).1 =
      ((overlappedCalls rules limits schedule' p).on answer state).1 := by
  induction hbudget : rules.sampling.maxSamples - p.sampled using Nat.strongRecOn generalizing p state with
  | _ budget ih =>
    rw [overlappedCalls_eq, overlappedCalls_eq]
    by_cases hsize : p.size rules = 0
    · rw [if_pos hsize, if_pos hsize]
    rw [if_neg hsize, if_neg hsize, Dialogue.on, Dialogue.on]
    dsimp only
    cases hchecked : checkpoint rules limits.deadline? p.cancelled (p.fetched (p.size rules) _) with
    | error e => rfl
    | ok checked =>
      dsimp only
      cases (brought (p.batches + 1) (p.size rules) (answer (.draw (p.size rules)) state).1).batch with
      | error e => rfl
      | ok batch =>
        cases batch with
        | nil => rfl
        | cons r rs =>
          simp only [answeredCalls]
          split
          · rename_i ending hverdict
            have hleave (schedule : Schedule) (q : Progress Unit) (state : σ) :
                ((leaveCalls rules schedule ending q).on answer state).1 = (ending, q) := by
              rw [leaveCalls]
              split
              · rfl
              · rfl
            rw [hleave, hleave]
          · exact ih _ (hbudget ▸ budget_settled hsize hchecked rs.length _) rfl

/-! ## The run -/

section Run

variable (rules : Plan Unit) (schedule : Schedule)

/-- The calls of one sample of a fixed size. -/
def fixedCalls (total : Nat) (p : Progress Unit) : Dialogue (Except RunError Completed) :=
  .ask (.draw rules.sampling.fixedSampleSize) fun given =>
    let f := brought 1 rules.sampling.fixedSampleSize given
    match f.batch with
    | .error e => .done (.error e)
    | .ok batch =>
      .done (complete total .fixedSample []
        (mergeBatch rules (p.fetched rules.sampling.fixedSampleSize f) batch)).result

/-- The calls of batches until the fields are stable. -/
def adaptiveCalls (deadline? : Option (Amount × Binary64)) (total : Nat) (p : Progress Unit) :
    Dialogue (Except RunError Completed) :=
  match fractionLimit? rules.sampling.maxFraction total with
  | none => .done (.error .outOfRange)
  | some share =>
    (if rules.sampling.prefetches then overlappedCalls rules { share, deadline? } schedule p
      else sequentialCalls rules { share, deadline? } p).map fun e => (conclude total e).result

/-- The calls of a run over a collection. -/
def runCalls (collection typeName : String) (cancelled : Bool) : Dialogue (Except RunError Completed) :=
  match deadlineOf rules with
  | .error e => .done (.error e)
  | .ok deadline? =>
    .ask .count fun given =>
      match countOf given with
      | .error e => .done (.error e)
      | .ok total =>
        let p : Progress Unit :=
          { store := (), accumulator := .fresh collection typeName, cancelled, readings := 1 }
        let started := p.note [.started total]
        if total = 0 then .done (complete total .emptyCollection [] started).result
        else if rules.sampling.isAdaptive then adaptiveCalls rules schedule deadline? total started
        else fixedCalls rules total started

end Run

/-- What a run leaves that ends at a state of the store. -/
theorem conclude_within (total : Nat) (e : Ending Unit × σ) :
    (conclude total (endWithin e)).result = (conclude total e.1).result ∧
      (conclude total (endWithin e)).store = e.2 := by
  obtain ⟨⟨result, p⟩, state⟩ := e
  cases result with
  | error e => exact ⟨rfl, rfl⟩
  | ok reason => exact ⟨rfl, rfl⟩

theorem fixedRun_on (total : Nat) :
    ((fixedRun (rules.over answer) total (p.within state)).result,
      (fixedRun (rules.over answer) total (p.within state)).store) =
      (fixedCalls rules total p).on answer state := by
  have hbatch : (fetch (rules.over answer) 1 rules.sampling.fixedSampleSize state).batch =
    (brought 1 rules.sampling.fixedSampleSize
      (answer (.draw rules.sampling.fixedSampleSize) state).1).batch := rfl
  rw [fixedCalls, Dialogue.on, fixedRun]
  dsimp only [Plan.over, Progress.within] at hbatch ⊢
  rw [hbatch]
  cases (brought 1 rules.sampling.fixedSampleSize
      (answer (.draw rules.sampling.fixedSampleSize) state).1).batch with
  | error e => rfl
  | ok batch => rfl

theorem adaptiveRun_on {schedule : Schedule} {deadline? : Option (Amount × Binary64)} (total : Nat) :
    ((adaptiveRun (rules.over answer) schedule deadline? total (p.within state)).result,
      (adaptiveRun (rules.over answer) schedule deadline? total (p.within state)).store) =
      (adaptiveCalls rules schedule deadline? total p).on answer state := by
  rw [adaptiveCalls]
  cases hlimit : fractionLimit? rules.sampling.maxFraction total with
  | none =>
    have hlimit' : fractionLimit? (rules.over answer).sampling.maxFraction total = none := hlimit
    rw [adaptiveRun_of_none hlimit']
    rfl
  | some share =>
    have hlimit' : fractionLimit? (rules.over answer).sampling.maxFraction total = some share := hlimit
    have hprefetches : (rules.over answer).sampling.prefetches = rules.sampling.prefetches := rfl
    rw [adaptiveRun_of_some hlimit', hprefetches]
    dsimp only
    rw [Dialogue.on_map]
    split
    · rw [overlapped_within]
      exact Prod.ext (conclude_within total _).1 (conclude_within total _).2
    · rw [sequential_within]
      exact Prod.ext (conclude_within total _).1 (conclude_within total _).2

/-- A run comes to what its calls come to. -/
theorem run_eq_on {schedule : Schedule} {collection typeName : String} {cancelled : Bool} :
    ((run (rules.over answer) schedule collection typeName cancelled state).result,
      (run (rules.over answer) schedule collection typeName cancelled state).store) =
      (runCalls rules schedule collection typeName cancelled).on answer state := by
  have hdeadline : deadlineOf (rules.over answer) = deadlineOf rules := rfl
  have hcount : (rules.over answer).store.count state = answer .count state := rfl
  rw [runCalls, run, hdeadline, hcount]
  cases deadlineOf rules with
  | error e => rfl
  | ok deadline? =>
    dsimp only
    rw [Dialogue.on]
    cases countOf (answer .count state).1 with
    | error e => rfl
    | ok total =>
      dsimp only
      by_cases htotal : total = 0
      · rw [if_pos htotal, if_pos htotal]
        rfl
      rw [if_neg htotal, if_neg htotal]
      have hadaptive : (rules.over answer).sampling.isAdaptive = rules.sampling.isAdaptive := rfl
      rw [hadaptive]
      let started : Progress Unit :=
        ({ store := (), accumulator := .fresh collection typeName, cancelled, readings := 1 } :
          Progress Unit).note [.started total]
      split
      · exact adaptiveRun_on (p := started) total
      · exact fixedRun_on (p := started) total

/-- How fetching ahead falls out changes no result of a run. -/
theorem runCalls_schedule (schedule schedule' : Schedule) {collection typeName : String} {cancelled : Bool} :
    ((runCalls rules schedule collection typeName cancelled).on answer state).1 =
      ((runCalls rules schedule' collection typeName cancelled).on answer state).1 := by
  rw [runCalls, runCalls]
  cases deadlineOf rules with
  | error e => rfl
  | ok deadline? =>
    dsimp only
    rw [Dialogue.on, Dialogue.on]
    cases countOf (answer .count state).1 with
    | error e => rfl
    | ok total =>
      dsimp only
      split
      · rfl
      split
      · rw [adaptiveCalls, adaptiveCalls]
        cases fractionLimit? rules.sampling.maxFraction total with
        | none => rfl
        | some share =>
          dsimp only
          rw [Dialogue.on_map, Dialogue.on_map]
          split
          · exact congrArg (fun e => (conclude total e).result) (overlappedCalls_schedule schedule schedule')
          · rfl
      · rfl

end Sampling

/-! ## The introspection -/

namespace Introspection

open Sampling

variable {σ : Type}

/-- What is made of the result of a run. -/
def resultOf (extraction : ExtractionSettings) (t : Target) (typeName : String) (times : RunTimes) :
    Except RunError Completed → Except IntrospectionError Report
  | .error e => .error (.run t.collection.plainText e)
  | .ok c => (report extraction t typeName times c).1

/-- The calls of a run over a collection whose name cannot be told. -/
def untoldCalls (rules : Plan Unit) (collection : String) (fault : Raw.ShowFault) :
    Dialogue (Except IntrospectionError Report) :=
  match deadlineOf rules with
  | .error e => .done (.error (.run collection e))
  | .ok _ => .ask .count fun given => .done (.error (untoldError collection fault given))

/-- The calls of a run over a collection whose name can be told. -/
def reportedCalls (rules : Plan Unit) (schedule : Schedule) (t : Target) (typeName : String) (cancelled : Bool)
    (times : RunTimes) : Dialogue (Except IntrospectionError Report) :=
  (runCalls rules schedule t.collection.plainText typeName cancelled).map
    (resultOf rules.extraction t typeName times)

/-- The calls of an introspection of a collection. -/
def introspectCalls (rules : Plan Unit) (schedule : Schedule) (t : Target) (cancelled : Bool)
    (times : RunTimes) : Dialogue (Except IntrospectionError Report) :=
  match typeNameOf t with
  | .error e => .done (.error e)
  | .ok typeName =>
    match t.collection.showFault? with
    | some fault => untoldCalls rules t.collection.plainText fault
    | none => reportedCalls rules schedule t typeName cancelled times

theorem untoldRun_on (rules : Plan Unit) (answer : Answering σ) (collection : String) (fault : Raw.ShowFault)
    (state : σ) :
    ((untoldRun (rules.over answer) collection fault state).result,
      (untoldRun (rules.over answer) collection fault state).store) =
      (untoldCalls rules collection fault).on answer state := by
  have hdeadline : deadlineOf (rules.over answer) = deadlineOf rules := rfl
  rw [untoldCalls, untoldRun, hdeadline]
  cases deadlineOf rules with
  | error e => rfl
  | ok deadline? => rfl

theorem reportedRun_on (rules : Plan Unit) (answer : Answering σ) (schedule : Schedule) (t : Target)
    (typeName : String) (cancelled : Bool) (times : RunTimes) (state : σ) :
    ((reportedRun (rules.over answer) schedule t typeName cancelled times state).result,
      (reportedRun (rules.over answer) schedule t typeName cancelled times state).store) =
      (reportedCalls rules schedule t typeName cancelled times).on answer state := by
  rw [reportedCalls, reportedRun, Dialogue.on_map, ← run_eq_on]
  cases (run (rules.over answer) schedule t.collection.plainText typeName cancelled state).result with
  | error e => rfl
  | ok c => rfl

/-- An introspection comes to what its calls come to. -/
theorem introspect_eq_on (rules : Plan Unit) (answer : Answering σ) (schedule : Schedule) (t : Target)
    (cancelled : Bool) (times : RunTimes) (state : σ) :
    ((introspect (rules.over answer) schedule t cancelled times state).result,
      (introspect (rules.over answer) schedule t cancelled times state).store) =
      (introspectCalls rules schedule t cancelled times).on answer state := by
  rw [introspectCalls, introspect]
  cases typeNameOf t with
  | error e => rfl
  | ok typeName =>
    cases t.collection.showFault? with
    | some fault => exact untoldRun_on ..
    | none => exact reportedRun_on ..

/-- How fetching ahead falls out changes no result of an introspection. -/
theorem introspectCalls_schedule {rules : Plan Unit} {answer : Answering σ} (schedule schedule' : Schedule)
    {t : Target} {cancelled : Bool} {times : RunTimes} {state : σ} :
    ((introspectCalls rules schedule t cancelled times).on answer state).1 =
      ((introspectCalls rules schedule' t cancelled times).on answer state).1 := by
  rw [introspectCalls, introspectCalls]
  cases typeNameOf t with
  | error e => rfl
  | ok typeName =>
    cases t.collection.showFault? with
    | some fault => rfl
    | none =>
      dsimp only [reportedCalls]
      rw [Dialogue.on_map, Dialogue.on_map]
      exact congrArg (resultOf rules.extraction t typeName times) (runCalls_schedule schedule schedule')

end Introspection

end DocSchema
