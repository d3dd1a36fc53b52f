import DocSchema.Sampling.Batch
import DocSchema.Sampling.Store
import DocSchema.Settings.Sampling

/-!
# The progress of a run

How far a run has come, and the steps that all ways of sampling share: the size of the next batch,
fetching it, asking whether the run may go on, merging it, and asking whether it has been enough.

- `nextSize_le`: a batch never asks for more than the budget leaves.
- `stopReason?_isSome_of_budget`: a run whose budget is spent stops.
- `verdict?_eq_some_error_iff`: a run breaks off after a batch exactly when the batch cannot be told of.
-/

namespace DocSchema

/-- Why a run fails. -/
inductive RunError
  | countFailed (fault : SourceFault)
  | drawFailed (batch size : Nat) (fault : SourceFault)
  | badCount (fault : NumberFault)
  | outOfRange
  /-- The number of stable batches that are waited for has too many digits to be told. -/
  | untold
  | cancelled (batches : Nat)
  | timedOut (batches : Nat) (budget : Amount)
  deriving Repr

namespace RunError

/-- Whether an error tells that the store has failed, that the run was cancelled, or that it was out of time. -/
def isOwn : RunError → Bool
  | .drawFailed _ size _ => Number.isWritable size
  | .badCount _ | .outOfRange | .untold => false
  | _ => true

/-- The text of an amount of seconds. -/
def budgetText : Amount → String
  | .whole n => Number.intText n
  | .truth => "True"
  | .float x => x.text

/-- The message about a failed run over a collection. That a draw has failed cannot be told if its size has too many
digits. -/
def message (collection : String) : RunError → String
  | .countFailed fault => "Failed to count documents in " ++ collection ++ ": " ++ fault.message
  | .drawFailed batch size fault =>
    if Number.isWritable size then
      "Failed to sample batch " ++ Number.natText batch ++ " (" ++ Number.natText size ++
        " documents) from " ++ collection ++ ": " ++ fault.message
    else NumberFault.notWritten.message
  | .badCount fault => fault.message
  | .outOfRange => NumberFault.tooLarge.message
  | .untold => NumberFault.notWritten.message
  | .cancelled batches =>
    "Introspection of " ++ collection ++ " cancelled after " ++ Number.natText batches ++ " batch(es)"
  | .timedOut batches budget =>
    "Introspection of " ++ collection ++ " timed out after " ++ Number.natText batches ++
      " batch(es) (" ++ budgetText budget ++ "s budget)"

end RunError

namespace Sampling

/-- What does not change during a run. -/
structure Plan (σ : Type) where
  store : Store σ
  sampling : SamplingSettings
  extraction : ExtractionSettings
  /-- The successive readings of the clock, in seconds. -/
  clock : Nat → Binary64

/-- How far a run has come. Notices and requests are kept with the newest first. -/
structure Progress (σ : Type) where
  store : σ
  accumulator : Accumulator
  cancelled : Bool := false
  readings : Nat := 0
  batches : Nat := 0
  sampled : Nat := 0
  stable : Nat := 0
  notices : List Notice := []
  requests : List Nat := []

/-- What a fetch brought: the documents or a failure, whether the run was cancelled meanwhile, and
the store after it. -/
structure Fetched (σ : Type) where
  batch : Except RunError (List Raw)
  cancels : Bool
  store : σ

variable {σ : Type}

namespace Progress

/-- Adds notices, the oldest first. -/
def note (p : Progress σ) (notices : List Notice) : Progress σ :=
  { p with notices := notices.reverse ++ p.notices }

end Progress

/-- The size of the next batch: that of the settings, and no more than the budget leaves (`_request`). -/
def nextSize (s : SamplingSettings) (batches sampled : Nat) : Nat :=
  min (if batches = 0 then s.initialBatchSize else s.batchSize) (s.maxSamples - sampled)

/-- Fetches a batch of a size (`_fetch`). -/
def fetch (plan : Plan σ) (number size : Nat) (store : σ) : Fetched σ :=
  let (draw, store) := plan.store.draw size store
  { batch := draw.documents.mapError (.drawFailed number size)
    cancels := draw.cancels
    store }

/-- The sum of a reading of the clock and an amount of seconds, unless that is too large. -/
def deadline? (reading : Binary64) : Amount → Option Binary64
  | .whole n => (Binary64.ofInt? n).map reading.add
  | .truth => some (reading.add .one)
  | .float x => some (reading.add x)

/-- Asks whether a run may go on that has a deadline (`_check_cancelled`); a cancelled run is told before one that is
out of time. -/
def checkpoint (plan : Plan σ) (deadline : Option (Amount × Binary64)) (cancelled : Bool)
    (p : Progress σ) : Except RunError (Progress σ) :=
  if cancelled then .error (.cancelled p.batches)
  else
    match deadline with
    | none => .ok p
    | some (budget, limit) =>
      if limit.le (plan.clock p.readings) then .error (.timedOut p.batches budget)
      else .ok { p with readings := p.readings + 1 }

/-- Merges a batch and counts its documents (`_receive`). -/
def mergeBatch (plan : Plan σ) (p : Progress σ) (batch : List Raw) : Progress σ :=
  let number := p.batches + 1
  let merged := ingestAll plan.extraction number 0 batch p.accumulator
  { p with
    accumulator := merged.1
    batches := number
    sampled := p.sampled + batch.length
    notices := merged.2.reverse ++ p.notices }

/-- The number of stable batches in a row after one that brought some new paths. -/
def stableAfter (s : SamplingSettings) (stable newPaths : Nat) : Nat :=
  if newPaths < s.newPathThreshold then stable + 1 else 0

/-- Merges a batch and counts the stable batches in a row. -/
def absorb (plan : Plan σ) (p : Progress σ) (batch : List Raw) : Progress σ :=
  let merged := mergeBatch plan p batch
  let newPaths := merged.accumulator.uniquePathCount - p.accumulator.uniquePathCount
  { merged with stable := stableAfter plan.sampling p.stable newPaths }

/-- The notice about a batch that brought the run from one state to another, if it can be told. -/
def batchNotices (plan : Plan σ) (before after : Progress σ) : List Notice :=
  if Number.isWritable plan.sampling.stableBatches then
    [.batchMerged after.batches (after.sampled - before.sampled)
      (after.accumulator.uniquePathCount - before.accumulator.uniquePathCount) after.stable
      plan.sampling.stableBatches]
  else []

/-- The number of documents at which a share of a collection is reached, unless it is too large. -/
def fractionLimit? (share : Amount) (total : Nat) : Option Amount :=
  match share with
  | .whole n => some (.whole (n * total))
  | .truth => some (.whole total)
  | .float x => (Binary64.ofInt? total).map fun t => .float (x.mul t)

/-- Whether a number of documents has reached a limit. -/
def reaches (limit : Amount) (documents : Nat) : Bool :=
  match limit with
  | .whole n => decide (n ≤ documents)
  | .truth => decide (1 ≤ documents)
  | .float x => x.leInt documents

/-- Why a run has been enough after some documents and stable batches, if it has. -/
def stopReason? (s : SamplingSettings) (limit : Amount) (stable sampled : Nat) :
    Option StopReason :=
  if s.stableBatches ≤ stable then some .converged
  else if s.maxSamples ≤ sampled then some .maxSamplesReached
  else if reaches limit sampled then some .fractionSampledReached
  else none

/-- How a run ends after some documents and stable batches, if it does: the last batch cannot be told of, or the run
has been enough. -/
def verdict? (s : SamplingSettings) (limit : Amount) (stable sampled : Nat) :
    Option (Except RunError StopReason) :=
  if Number.isWritable s.stableBatches then (stopReason? s limit stable sampled).map .ok else some (.error .untold)

theorem nextSize_le (s : SamplingSettings) (batches sampled : Nat) :
    nextSize s batches sampled ≤ s.maxSamples - sampled :=
  Nat.min_le_right _ _

theorem sampled_checkpoint {plan : Plan σ} {deadline : Option (Amount × Binary64)}
    {cancelled : Bool} {p q : Progress σ} (h : checkpoint plan deadline cancelled p = .ok q) :
    q.sampled = p.sampled := by
  unfold checkpoint at h
  split at h
  · cases h
  · split at h
    · cases h
      rfl
    · split at h
      · cases h
      · cases h
        rfl

theorem stopReason?_isSome_of_budget {s : SamplingSettings} {limit : Amount} {stable sampled : Nat}
    (h : s.maxSamples ≤ sampled) : (stopReason? s limit stable sampled).isSome = true := by
  rw [stopReason?, if_pos h]
  split <;> rfl

theorem verdict?_eq_none_iff {s : SamplingSettings} {limit : Amount} {stable sampled : Nat} :
    verdict? s limit stable sampled = none ↔
      Number.isWritable s.stableBatches = true ∧ stopReason? s limit stable sampled = none := by
  rw [verdict?]
  split
  · simp [*]
  · simp [*]

theorem verdict?_eq_some_ok_iff {s : SamplingSettings} {limit : Amount} {stable sampled : Nat} {reason : StopReason} :
    verdict? s limit stable sampled = some (.ok reason) ↔
      Number.isWritable s.stableBatches = true ∧ stopReason? s limit stable sampled = some reason := by
  rw [verdict?]
  split
  · simp [*]
  · simp [*]

theorem verdict?_eq_some_error_iff {s : SamplingSettings} {limit : Amount} {stable sampled : Nat} {e : RunError} :
    verdict? s limit stable sampled = some (.error e) ↔ Number.isWritable s.stableBatches = false ∧ e = .untold := by
  rw [verdict?]
  split
  · simp [*]
  · simp [*, eq_comm]

end Sampling

end DocSchema
