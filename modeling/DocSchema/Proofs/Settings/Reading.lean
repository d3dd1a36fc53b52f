import DocSchema.Proofs.Value.Proper
import DocSchema.Settings.Extraction
import DocSchema.Settings.Sampling

/-!
# How settings are read

Settings are read field by field: the fields that are named come with new values, the others with the values of
the settings that are overridden. Each value has its own check, and is held in a form of its own: a whole number
without its width, the starts of hidden keys as a tuple without those that are not true.

- `SamplingSettings.overriding_eq_ok_iff`, `ExtractionSettings.overriding_eq_ok_iff`: when settings are accepted,
  and what they hold.
- `overriding_self`: the settings that hold by default are accepted as they are.
- `ReadFrom.value_eq`: a setting has its given value, as it is held.
- `held_held`: a value that is held already stays as it is.
-/

namespace DocSchema

namespace Raw

/-- A value, without the width of a whole number. -/
def plainWhole : Raw → Raw
  | .long n => .int n
  | r => r

theorem plainWhole_of_int? {r : Raw} {n : Int} (h : r.int? = some n) : r.plainWhole = .int n := by
  cases r with
  | int m => exact congrArg int (Option.some.inj h)
  | long m => exact congrArg int (Option.some.inj h)
  | _ => cases h

@[simp] theorem plainWhole_plainWhole (r : Raw) : r.plainWhole.plainWhole = r.plainWhole := by
  cases r <;> rfl

end Raw

namespace Settings

variable {name : String} {r : Raw} {n : Nat}

theorem positive_eq_ok_iff [Stack] : positive name r = .ok n ↔ r.int? = some (n : Int) ∧ 0 < n := by
  rw [positive]
  cases hint : r.int? with
  | none => simp
  | some m =>
    simp only [Option.some.injEq]
    constructor
    · intro h
      split at h
      · obtain rfl := Except.ok.inj h
        omega
      · cases h
    · rintro ⟨rfl, hpos⟩
      rw [if_pos (by omega), Int.toNat_natCast]

theorem nonNegative_eq_ok_iff [Stack] : nonNegative name r = .ok n ↔ r.int? = some (n : Int) := by
  rw [nonNegative]
  cases hint : r.int? with
  | none => simp
  | some m =>
    simp only [Option.some.injEq]
    constructor
    · intro h
      split at h
      · obtain rfl := Except.ok.inj h
        omega
      · cases h
    · rintro rfl
      rw [if_pos (by omega), Int.toNat_natCast]

theorem plainWhole_of_positive [Stack] (h : positive name r = .ok n) : r.plainWhole = .int n :=
  Raw.plainWhole_of_int? (positive_eq_ok_iff.1 h).1

theorem plainWhole_of_nonNegative [Stack] (h : nonNegative name r = .ok n) : r.plainWhole = .int n :=
  Raw.plainWhole_of_int? (nonNegative_eq_ok_iff.1 h)

end Settings

/-! ## Settings of the sampling -/

namespace Amount

variable {r : Raw} {amount : Amount}

theorem plainWhole_of_ofRaw? (h : ofRaw? r = some amount) : r.plainWhole = amount.toRaw := by
  cases r with
  | int n => rw [← Option.some.inj h]; rfl
  | long n => rw [← Option.some.inj h]; rfl
  | float x => rw [← Option.some.inj h]; rfl
  | _ => cases h

end Amount

namespace SamplingSettings

variable {base s : SamplingSettings} {fields : Settings.Fields} {given : String → Raw} {name : String} {r : Raw}

theorem fractionOf_eq_ok_iff [Stack] {amount : Amount} :
    fractionOf r = .ok amount ↔ Amount.ofRaw? r = some amount ∧ amount.isPositive = true := by
  rw [fractionOf]
  cases Amount.ofRaw? r with
  | none => simp
  | some other =>
    cases hpos : other.isPositive with
    | false =>
      simp only [hpos, Bool.false_eq_true, if_false, reduceCtorEq, Option.some.injEq, false_iff]
      rintro ⟨rfl, h⟩
      exact Bool.false_ne_true (hpos.symm.trans h)
    | true =>
      simp only [hpos, if_true, Except.ok.injEq, Option.some.injEq]
      exact ⟨fun h => ⟨h, h ▸ hpos⟩, And.left⟩

/-- A limit is none, a truth value, or a number as a share is one. -/
theorem timeoutOf_eq_ok_iff [Stack] {limit : Option Amount} :
    timeoutOf r = .ok limit ↔ r = .null ∧ limit = none ∨ r = .bool true ∧ limit = some .truth ∨
      ∃ amount, fractionOf r = .ok amount ∧ limit = some amount := by
  simp only [fractionOf_eq_ok_iff]
  rw [timeoutOf.eq_def]
  split
  · simp [Amount.ofRaw?, eq_comm (a := limit)]
  · simp [Amount.ofRaw?, eq_comm (a := limit)]
  · rename_i hnull htrue
    have hnot : ¬r = .null ∧ ¬r = .bool true := ⟨hnull, htrue⟩
    simp only [hnot.1, hnot.2, false_and, false_or]
    cases hamount : Amount.ofRaw? r with
    | none => simp
    | some other =>
      cases hpos : other.isPositive with
      | false => simp [hpos]
      | true =>
        simp only [hpos, if_true, Except.ok.injEq, Option.some.injEq]
        constructor
        · rintro rfl
          exact ⟨other, ⟨rfl, hpos⟩, rfl⟩
        · rintro ⟨amount, ⟨rfl, -⟩, rfl⟩
          rfl

/-- The settings hold given values, each of which passes its check. -/
structure ReadFrom [Stack] (given : String → Raw) (s : SamplingSettings) : Prop where
  initialBatchSize : Settings.positive "initial_batch_size" (given "initial_batch_size") = .ok s.initialBatchSize
  batchSize : Settings.positive "batch_size" (given "batch_size") = .ok s.batchSize
  maxSamples : Settings.positive "max_samples" (given "max_samples") = .ok s.maxSamples
  stableBatches : Settings.positive "stable_batches" (given "stable_batches") = .ok s.stableBatches
  fixedSampleSize : Settings.positive "fixed_sample_size" (given "fixed_sample_size") = .ok s.fixedSampleSize
  newPathThreshold : Settings.nonNegative "new_path_threshold" (given "new_path_threshold") = .ok s.newPathThreshold
  maxFraction : fractionOf (given "max_fraction") = .ok s.maxFraction
  timeout : timeoutOf (given "timeout_seconds") = .ok s.timeout?
  adaptive : s.adaptive = given "adaptive"
  prefetch : s.prefetch = given "prefetch"

/-- Settings are accepted if all fields are known and each value passes its check. -/
theorem overriding_eq_ok_iff [Stack] :
    overriding base fields = .ok s ↔ Settings.checkNames names fields = .ok () ∧
      s.ReadFrom fun name => Settings.value fields name (Settings.value base.toFields name .null) := by
  constructor
  · intro h
    obtain ⟨⟨⟩, hnames, h⟩ := exists_of_bind_ok h
    obtain ⟨initialBatchSize, hinitial, h⟩ := exists_of_bind_ok h
    obtain ⟨batchSize, hbatch, h⟩ := exists_of_bind_ok h
    obtain ⟨maxSamples, hmax, h⟩ := exists_of_bind_ok h
    obtain ⟨stableBatches, hstable, h⟩ := exists_of_bind_ok h
    obtain ⟨fixedSampleSize, hfixed, h⟩ := exists_of_bind_ok h
    obtain ⟨newPathThreshold, hthreshold, h⟩ := exists_of_bind_ok h
    obtain ⟨maxFraction, hfraction, h⟩ := exists_of_bind_ok h
    obtain ⟨timeout?, htimeout, h⟩ := exists_of_bind_ok h
    obtain rfl := Except.ok.inj h
    exact ⟨hnames, hinitial, hbatch, hmax, hstable, hfixed, hthreshold, hfraction, htimeout, rfl, rfl⟩
  · rintro ⟨hnames, h⟩
    simp only [overriding, hnames, h.initialBatchSize, h.batchSize, h.maxSamples, h.stableBatches,
      h.fixedSampleSize, h.newPathThreshold, h.maxFraction, h.timeout, ← h.adaptive, ← h.prefetch]
    rfl

/-- The share that holds by default is accepted. -/
theorem fractionOf_default [Stack] :
    fractionOf ({} : SamplingSettings).maxFraction.toRaw = .ok ({} : SamplingSettings).maxFraction :=
  fractionOf_eq_ok_iff.2 ⟨rfl, by decide +kernel⟩

/-- The settings that hold by default are accepted as they are. -/
theorem overriding_self [Stack] : overriding {} [] = .ok {} :=
  overriding_eq_ok_iff.2 ⟨rfl, rfl, rfl, rfl, rfl, rfl, rfl, fractionOf_default, rfl, rfl, rfl⟩

/-- The value of a setting by its name. -/
def value (s : SamplingSettings) (name : String) : Raw :=
  Settings.value s.toFields name .null

/-- A value as the setting of a name holds it. -/
def held (name : String) (r : Raw) : Raw :=
  if name = "adaptive" ∨ name = "prefetch" then r else r.plainWhole

theorem held_held (name : String) (r : Raw) : held name (held name r) = held name r := by
  unfold held
  split <;> simp

theorem plainWhole_of_fractionOf [Stack] {amount : Amount} (h : fractionOf r = .ok amount) : r.plainWhole = amount.toRaw :=
  Amount.plainWhole_of_ofRaw? (fractionOf_eq_ok_iff.1 h).1

theorem plainWhole_of_timeoutOf [Stack] {limit : Option Amount} (h : timeoutOf r = .ok limit) :
    r.plainWhole = (limit.map Amount.toRaw).getD .null := by
  obtain ⟨rfl, rfl⟩ | ⟨rfl, rfl⟩ | ⟨amount, hamount, rfl⟩ := timeoutOf_eq_ok_iff.1 h
  · rfl
  · rfl
  · exact plainWhole_of_fractionOf hamount

/-- Each setting has its given value. -/
theorem ReadFrom.value_eq [Stack] (h : s.ReadFrom given) (hname : name ∈ names) : s.value name = held name (given name) := by
  simp only [names, List.mem_cons, List.not_mem_nil, or_false] at hname
  obtain rfl | rfl | rfl | rfl | rfl | rfl | rfl | rfl | rfl | rfl := hname
  · exact (Settings.plainWhole_of_positive h.initialBatchSize).symm
  · exact (Settings.plainWhole_of_positive h.batchSize).symm
  · exact (Settings.plainWhole_of_positive h.maxSamples).symm
  · exact (plainWhole_of_fractionOf h.maxFraction).symm
  · exact (Settings.plainWhole_of_nonNegative h.newPathThreshold).symm
  · exact (Settings.plainWhole_of_positive h.stableBatches).symm
  · exact h.adaptive
  · exact (Settings.plainWhole_of_positive h.fixedSampleSize).symm
  · exact h.prefetch
  · exact (plainWhole_of_timeoutOf h.timeout).symm

end SamplingSettings

/-! ## Settings of the extraction -/

namespace ExtractionSettings

variable {base s : ExtractionSettings} {fields : Settings.Fields} {given : String → Raw} {name : String}
  {r : Raw} {starts : List Raw}

/-- The starts that a value gives are true. -/
theorem isTrue_of_startsOf (h : startsOf r = .ok starts) : ∀ start ∈ starts, start.isTrue = true := by
  rw [startsOf] at h
  split at h
  · cases h
    exact fun start hstart => (List.mem_filter.1 hstart).2
  · split at h
    · cases h
      exact fun start hstart => (List.mem_filter.1 hstart).2
    · cases h

/-- True starts are given as they are. -/
theorem startsOf_tuple (h : ∀ start ∈ starts, start.isTrue = true) : startsOf (.tuple starts) = .ok starts :=
  congrArg Except.ok (List.filter_eq_self.2 h)

/-- The settings hold given values, each of which passes its check. -/
structure ReadFrom [Stack] (given : String → Raw) (s : ExtractionSettings) : Prop where
  maxDepth : Settings.positive "max_depth" (given "max_depth") = .ok s.maxDepth
  maxDepth_le : s.maxDepth ≤ depthLimit
  arraySampleSize : Settings.positive "array_sample_size" (given "array_sample_size") = .ok s.arraySampleSize
  hiddenStarts : startsOf (given "excluded_prefixes") = .ok s.hiddenStarts
  identifierField : s.identifierField = given "identifier_field"
  identifierField_isTrue : s.identifierField.isTrue = true
  detectIdentifiers : s.detectIdentifiers = given "detect_identifier_strings"

/-- Settings are accepted if all fields are known and each value passes its check. -/
theorem overriding_eq_ok_iff [Stack] :
    overriding base fields = .ok s ↔ Settings.checkNames names fields = .ok () ∧
      s.ReadFrom fun name => Settings.value fields name (Settings.value base.toFields name .null) := by
  constructor
  · intro h
    obtain ⟨⟨⟩, hnames, h⟩ := exists_of_bind_ok h
    obtain ⟨maxDepth, hdepth, h⟩ := exists_of_bind_ok h
    obtain ⟨arraySampleSize, hsize, h⟩ := exists_of_bind_ok h
    split at h
    · cases h
    rename_i hle
    obtain ⟨hiddenStarts, hstarts, h⟩ := exists_of_bind_ok h
    dsimp only at h
    split at h
    · rename_i htrue
      obtain rfl := Except.ok.inj h
      exact ⟨hnames, hdepth, Nat.not_lt.1 hle, hsize, hstarts, rfl, htrue, rfl⟩
    · cases h
  · rintro ⟨hnames, h⟩
    simp only [overriding, hnames, h.maxDepth, h.arraySampleSize, h.hiddenStarts, ← h.identifierField,
      h.identifierField_isTrue, ← h.detectIdentifiers]
    exact if_neg (Nat.not_lt.2 h.maxDepth_le)

/-- The settings that hold by default are accepted as they are. -/
theorem overriding_self [Stack] : overriding {} [] = .ok {} := by rfl

/-- The value of a setting by its name. -/
def value (s : ExtractionSettings) (name : String) : Raw :=
  Settings.value s.toFields name .null

/-- A value as the setting of a name holds it. -/
def held (name : String) (r : Raw) : Raw :=
  if name = "excluded_prefixes" then
    match startsOf r with
    | .ok starts => .tuple starts
    | .error _ => r
  else if name = "identifier_field" ∨ name = "detect_identifier_strings" then r
  else r.plainWhole

theorem held_held (name : String) (r : Raw) : held name (held name r) = held name r := by
  unfold held
  split
  · cases h : startsOf r with
    | ok starts => simp only [startsOf_tuple (isTrue_of_startsOf h)]
    | error fault => simp only [h]
  · split <;> simp

/-- Each setting has its given value. -/
theorem ReadFrom.value_eq [Stack] (h : s.ReadFrom given) (hname : name ∈ names) : s.value name = held name (given name) := by
  simp only [names, List.mem_cons, List.not_mem_nil, or_false] at hname
  obtain rfl | rfl | rfl | rfl | rfl := hname
  · exact (Settings.plainWhole_of_positive h.maxDepth).symm
  · exact (Settings.plainWhole_of_positive h.arraySampleSize).symm
  · rw [held, if_pos rfl, h.hiddenStarts]
    rfl
  · exact h.identifierField
  · exact h.detectIdentifiers

end ExtractionSettings

end DocSchema
