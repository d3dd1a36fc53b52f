import DocSchema.Sampling.Adaptive

/-!
# Runs over a collection

A run counts the documents of a collection and samples it: until the fields are stable, or once with
a fixed size. Nothing is drawn from an empty collection.
-/

namespace DocSchema.Sampling

variable {σ : Type}

/-- What a run that came to its end leaves. -/
structure Completed where
  metrics : RunMetrics
  accumulator : Accumulator
  warnings : List Notice := []

/-- How a run went: its result, what it reported, and what it asked of the store. -/
structure Outcome (σ : Type) where
  result : Except RunError Completed
  notices : List Notice
  counted : Bool
  requests : List Nat
  store : σ

namespace Outcome

/-- The outcome of a run that fails at some progress. -/
def failed (e : RunError) (counted : Bool) (p : Progress σ) : Outcome σ where
  result := .error e
  notices := p.notices.reverse
  counted
  requests := p.requests.reverse
  store := p.store

end Outcome

/-- The metrics of a run at its end. -/
def metricsOf (p : Progress σ) (total : Nat) (reason : StopReason) : RunMetrics where
  collection := p.accumulator.collection
  totalCount := total
  batchCount := p.batches
  totalSampled := p.sampled
  documentsSkipped := p.accumulator.documentsSkipped
  uniqueFieldPaths := p.accumulator.uniquePathCount
  stopReason? := some reason
  converged := reason == .converged
  stableBatches := p.stable

/-- The outcome of a run that ends for a reason, with warnings. -/
def complete (total : Nat) (reason : StopReason) (warnings : List Notice) (p : Progress σ) :
    Outcome σ :=
  let ended := p.note (warnings ++
    [.finished p.sampled p.batches p.accumulator.uniquePathCount reason])
  { result := .ok { metrics := metricsOf p total reason, accumulator := p.accumulator, warnings }
    notices := ended.notices.reverse
    counted := true
    requests := ended.requests.reverse
    store := ended.store }

/-- The warnings about the end of an adaptive run. -/
def endWarnings (reason : StopReason) (p : Progress σ) : List Notice :=
  if reason = .converged then [] else [.unstable reason p.sampled]

/-- One sample of a fixed size. -/
def fixedRun (plan : Plan σ) (total : Nat) (p : Progress σ) : Outcome σ :=
  let size := plan.sampling.fixedSampleSize
  let f := fetch plan 1 size p.store
  let drawn := p.fetched size f
  match f.batch with
  | .error e => .failed e true drawn
  | .ok batch => complete total .fixedSample [] (mergeBatch plan drawn batch)

/-- The outcome of an adaptive run once its batches have come to an end. -/
def conclude (total : Nat) (ended : Except RunError StopReason × Progress σ) : Outcome σ :=
  match ended.1 with
  | .error e => .failed e true ended.2
  | .ok reason => complete total reason (endWarnings reason ended.2) ended.2

/-- Batches until the fields are stable (`_run_adaptive`). -/
def adaptiveRun (plan : Plan σ) (schedule : Schedule) (deadline? : Option (Amount × Binary64))
    (total : Nat) (p : Progress σ) : Outcome σ :=
  match fractionLimit? plan.sampling.maxFraction total with
  | none => .failed .outOfRange true p
  | some share =>
    let limits : Limits := { share, deadline? }
    conclude total
      (if plan.sampling.prefetches then overlapped plan limits schedule p
      else sequential plan limits p)

/-- The deadline of a run that may take some time, from the first reading of the clock. -/
def deadlineOf (plan : Plan σ) : Except RunError (Option (Amount × Binary64)) :=
  match plan.sampling.timeout? with
  | none => .ok none
  | some budget =>
    match deadline? (plan.clock 0) budget with
    | some limit => .ok (some (budget, limit))
    | none => .error .outOfRange

/-- The number of documents that a store counts (`_count`); a negative count is none. A count is reported, so it has
no more digits than a number may be written with. -/
def countOf (answer : Except SourceFault Raw) : Except RunError Nat :=
  match answer with
  | .error f => .error (.countFailed f)
  | .ok r =>
    match r.toInt with
    | .ok n => if n.toNat < Number.tenTo Number.maxDigits then .ok n.toNat else .error (.badCount .notWritten)
    | .error f => .error (.badCount f)

/-- A run over a collection (`run`). It may have been cancelled before it began. -/
def run (plan : Plan σ) (schedule : Schedule) (collection typeName : String) (cancelled : Bool)
    (store : σ) : Outcome σ :=
  let p : Progress σ :=
    { store, accumulator := .fresh collection typeName, cancelled, readings := 1 }
  match deadlineOf plan with
  | .error e => .failed e false p
  | .ok deadline? =>
    let (answer, store) := plan.store.count store
    let counted := { p with store }
    match countOf answer with
    | .error e => .failed e true counted
    | .ok total =>
      let started := counted.note [.started total]
      if total = 0 then complete total .emptyCollection [] started
      else if plan.sampling.isAdaptive then adaptiveRun plan schedule deadline? total started
      else fixedRun plan total started

end DocSchema.Sampling
