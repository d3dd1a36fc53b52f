import DocSchema.Settings.Fault

/-!
# Settings of the sampling

How many documents are drawn at a time and in all, when the fields count as complete, and how long a
run may take.

- `Amount.isPositive_whole`: a whole amount is positive when it is above zero.
-/

namespace DocSchema

/-- An amount that need not be whole; a truth value counts as one. -/
inductive Amount
  | whole (n : Int)
  | truth
  | float (x : Binary64)
  deriving DecidableEq, Repr

namespace Amount

/-- The amount that a value gives, if it is a number. -/
def ofRaw? : Raw → Option Amount
  | .int n | .long n => some (.whole n)
  | .float x => some (.float x)
  | _ => none

/-- The value of an amount. -/
def toRaw : Amount → Raw
  | .whole n => .int n
  | .truth => .bool true
  | .float x => .float x

/-- Whether an amount is not at most zero; a NaN is not. -/
def isPositive : Amount → Bool
  | .whole n => decide (0 < n)
  | .truth => true
  | .float x => !x.leInt 0

theorem isPositive_whole {n : Int} : (whole n).isPositive = true ↔ 0 < n := by
  simp [isPositive]

end Amount

/-- How a collection is sampled. -/
structure SamplingSettings where
  initialBatchSize : Nat := 50
  batchSize : Nat := 200
  maxSamples : Nat := 5000
  maxFraction : Amount := .float (.finite false 7205759403792794 (-53))
  newPathThreshold : Nat := 2
  stableBatches : Nat := 3
  adaptive : Raw := .bool true
  fixedSampleSize : Nat := 500
  prefetch : Raw := .bool false
  timeout? : Option Amount := none
  deriving Repr

namespace SamplingSettings

/-- The names of the settings. -/
def names : List String :=
  ["initial_batch_size", "batch_size", "max_samples", "max_fraction", "new_path_threshold",
    "stable_batches", "adaptive", "fixed_sample_size", "prefetch", "timeout_seconds"]

/-- The settings by name. -/
def toFields (s : SamplingSettings) : Settings.Fields :=
  [("initial_batch_size", .int s.initialBatchSize), ("batch_size", .int s.batchSize),
    ("max_samples", .int s.maxSamples), ("max_fraction", s.maxFraction.toRaw),
    ("new_path_threshold", .int s.newPathThreshold), ("stable_batches", .int s.stableBatches),
    ("adaptive", s.adaptive), ("fixed_sample_size", .int s.fixedSampleSize),
    ("prefetch", s.prefetch),
    ("timeout_seconds", (s.timeout?.map Amount.toRaw).getD .null)]

/-- The share of a collection to draw at most: a positive number, and no truth value. -/
def fractionOf [Stack] (r : Raw) : Except SettingsFault Amount :=
  match Amount.ofRaw? r with
  | some amount => if amount.isPositive then .ok amount else .error (.showing r .fraction)
  | none => .error (.showing r .fraction)

/-- The time a run may take, if it is limited: a positive number. -/
def timeoutOf [Stack] (r : Raw) : Except SettingsFault (Option Amount) :=
  match r with
  | .null => .ok none
  | .bool true => .ok (some .truth)
  | r => match Amount.ofRaw? r with
    | some amount => if amount.isPositive then .ok (some amount) else .error (.showing r .timeout)
    | none => .error (.showing r .timeout)

/-- The settings that differ from others in the named fields (`SamplingConfig`). -/
def overriding [Stack] (base : SamplingSettings) (fields : Settings.Fields) :
    Except SettingsFault SamplingSettings := do
  Settings.checkNames names fields
  let value (name : String) : Raw :=
    Settings.value fields name (Settings.value base.toFields name .null)
  let initialBatchSize ← Settings.positive "initial_batch_size" (value "initial_batch_size")
  let batchSize ← Settings.positive "batch_size" (value "batch_size")
  let maxSamples ← Settings.positive "max_samples" (value "max_samples")
  let stableBatches ← Settings.positive "stable_batches" (value "stable_batches")
  let fixedSampleSize ← Settings.positive "fixed_sample_size" (value "fixed_sample_size")
  let newPathThreshold ← Settings.nonNegative "new_path_threshold" (value "new_path_threshold")
  let maxFraction ← fractionOf (value "max_fraction")
  let timeout? ← timeoutOf (value "timeout_seconds")
  .ok { initialBatchSize, batchSize, maxSamples, maxFraction, newPathThreshold, stableBatches,
        adaptive := value "adaptive", fixedSampleSize, prefetch := value "prefetch", timeout? }

/-- Whether batches are drawn until the fields are stable, rather than one sample of fixed size. -/
def isAdaptive (s : SamplingSettings) : Bool :=
  s.adaptive.isTrue

/-- Whether the next batch is fetched while the current one is merged. -/
def prefetches (s : SamplingSettings) : Bool :=
  s.prefetch.isTrue

end SamplingSettings

end DocSchema
