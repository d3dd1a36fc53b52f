import DocSchema.Calendar.Moment
import DocSchema.Number.Binary64

/-!
# Metrics of a run

Why a run ended, and how much it drew.

- `ofTag?_tag`: a reason is found by its name.
-/

namespace DocSchema

/-- Why a run ended. -/
inductive StopReason
  | converged
  | maxSamplesReached
  | fractionSampledReached
  | exhausted
  | fixedSample
  | emptyCollection
  deriving DecidableEq, Repr

namespace StopReason

/-- All reasons. -/
def all : List StopReason :=
  [.converged, .maxSamplesReached, .fractionSampledReached, .exhausted, .fixedSample,
    .emptyCollection]

/-- The name of a reason. -/
def tag : StopReason → String
  | .converged => "converged"
  | .maxSamplesReached => "max_samples_reached"
  | .fractionSampledReached => "fraction_sampled_reached"
  | .exhausted => "exhausted"
  | .fixedSample => "fixed_sample"
  | .emptyCollection => "empty_collection"

/-- The reason with a name. -/
def ofTag? (s : String) : Option StopReason :=
  all.find? (·.tag == s)

/-- The message about a name that no reason has; it takes the name as shown. -/
def unknownTag (shown : String) : String :=
  shown ++ " is not a valid StopReason"

theorem ofTag?_tag (r : StopReason) : ofTag? r.tag = some r := by
  cases r <;> rfl

end StopReason

/-- The metrics of a run. -/
structure RunMetrics where
  collection : String
  totalCount : Int := 0
  batchCount : Int := 0
  totalSampled : Int := 0
  documentsSkipped : Int := 0
  uniqueFieldPaths : Int := 0
  stopReason? : Option StopReason := none
  converged : Bool := false
  stableBatches : Int := 0
  deriving Repr

namespace RunMetrics

/-- The number of documents that were merged (`documents_merged`). -/
def documentsMerged (m : RunMetrics) : Int :=
  m.totalSampled - m.documentsSkipped

/-- The drawn documents as a share of the collection (`sampled_fraction`). -/
def sampledFraction (m : RunMetrics) : Binary64 :=
  if m.totalCount = 0 then .zero
  else
    .ofRatio (decide (m.totalSampled < 0) != decide (m.totalCount < 0)) m.totalSampled.natAbs
      m.totalCount.natAbs

end RunMetrics

/-- When a run began and ended. -/
structure RunTimes where
  started : Moment
  completed? : Option Moment := none
  deriving Repr

namespace RunTimes

/-- Whether the two moments can be compared: both or neither have an offset. -/
def isComparable (t : RunTimes) : Bool :=
  match t.completed? with
  | some stop => stop.offset?.isSome == t.started.offset?.isSome
  | none => true

/-- The duration of a run in milliseconds (`duration_ms`); a run that has not ended has none yet. -/
def durationMillis (t : RunTimes) : Int :=
  match t.completed? with
  | some stop => Moment.millisBetween t.started stop
  | none => 0

end RunTimes

end DocSchema
