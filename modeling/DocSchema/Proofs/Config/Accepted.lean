import DocSchema.Proofs.Config.Layers

/-!
# Accepted settings

Settings come to be with values for some of their fields, as those for all collections of a configuration, or as
those of one collection. On each of these ways they are checked, by what is refused: a share that is at most zero, a
field of the identifier that is not true. What is not refused need not be as it should be. A NaN is not at most zero
and is no positive number either, and a true value need not be a text.

- `Amount.isPositive_iff`: the amounts that are not refused.
- `SamplingSettings.constructed_iff`, `ExtractionSettings.constructed_iff`: the settings that come to be are those
  that pass all checks.
- `accepted_settings`: which settings come to be, and which of them are as they should be.
-/

namespace DocSchema

/-! ## Amounts -/

theorem Binary64.extended?_eq_none_iff {x : Binary64} : x.extended? = none ↔ x = .nan := by
  cases x with
  | nan => simp [extended?]
  | infinity negative => simp [extended?]
  | finite negative significand exponent => simp [extended?, toRat?]

namespace Amount

/-- Whether an amount is greater than zero; a NaN is not. -/
def isAbove : Amount → Bool
  | .whole n => decide (0 < n)
  | .truth => true
  | .float x => (Binary64.finite false 0 0).lt x

/-- An amount that is not at most zero is greater than zero, or a NaN. -/
theorem isPositive_iff {amount : Amount} :
    amount.isPositive = true ↔ amount.isAbove = true ∨ amount = .float .nan := by
  cases amount with
  | whole n => simp [isPositive, isAbove]
  | truth => simp [isPositive, isAbove]
  | float x =>
    have hzero : (Binary64.finite false 0 0).extended? = some (.at ((0 : Int) : Rat)) := by
      simp [Binary64.extended?, Binary64.toRat?]
    rw [isPositive, isAbove, Binary64.lt, Binary64.leInt, hzero, float.injEq, ← Binary64.extended?_eq_none_iff]
    cases x.extended? with
    | none => simp
    | some p => simp

theorem ne_nan_of_isAbove {amount : Amount} (h : amount.isAbove = true) : amount ≠ .float .nan := by
  rintro rfl
  cases h

theorem ofRaw?_toRaw {amount : Amount} (h : amount ≠ .truth) : ofRaw? amount.toRaw = some amount := by
  cases amount with
  | whole n => rfl
  | truth => exact absurd rfl h
  | float x => rfl

end Amount

theorem Settings.exists_int_of_positive [Stack] {name : String} {r : Raw} {n : Nat} (h : positive name r = .ok n) :
    ∃ m, r.int? = some m ∧ 0 < m := by
  obtain ⟨hint, hpos⟩ := positive_eq_ok_iff.1 h
  exact ⟨n, hint, Int.natCast_pos.2 hpos⟩

/-! ## Settings of the sampling -/

namespace SamplingSettings

/-- The sizes that must be above zero. -/
def sizes (s : SamplingSettings) : List Nat :=
  [s.initialBatchSize, s.batchSize, s.maxSamples, s.stableBatches, s.fixedSampleSize]

/-- The names of the sizes that must be above zero. -/
def sizeNames : List String :=
  ["initial_batch_size", "batch_size", "max_samples", "stable_batches", "fixed_sample_size"]

/-- The settings pass all checks. -/
structure IsAccepted (s : SamplingSettings) : Prop where
  sizes : ∀ size ∈ s.sizes, 0 < size
  notTruth : s.maxFraction ≠ .truth
  maxFraction : s.maxFraction.isPositive = true
  timeout : ∀ limit, s.timeout? = some limit → limit.isPositive = true

/-- The settings are as they should be: sizes are above zero, and so are the share and a limit of time. -/
structure IsValid (s : SamplingSettings) : Prop where
  sizes : ∀ size ∈ s.sizes, 0 < size
  maxFraction : s.maxFraction.isAbove = true
  timeout : ∀ limit, s.timeout? = some limit → limit.isAbove = true

/-- The settings come to be: with values for some fields and the defaults for the others, or in a configuration. -/
inductive Constructed [Stack] : SamplingSettings → Prop
  | direct {s : SamplingSettings} {fields : Settings.Fields} (accepted : overriding {} fields = .ok s) : Constructed s
  | ofAll {data : Raw} {c : Config} (accepted : Config.ofRaw data = .ok c) : Constructed c.sampling
  | ofOne {data : Raw} {c : Config} {entry : CollectionSettings} (accepted : Config.ofRaw data = .ok c)
      (entry_mem : entry ∈ c.collections) : Constructed (c.samplingOf entry)

variable {base s : SamplingSettings} {fields : Settings.Fields}

/-- Values are accepted as sizes and as the threshold only if they are whole numbers in the range. -/
theorem exists_int_of_overriding [Stack] (h : overriding base fields = .ok s) {name : String} {r : Raw}
    (hr : fields.lookup name = some r) :
    (name ∈ sizeNames → ∃ n, r.int? = some n ∧ 0 < n) ∧
      (name = "new_path_threshold" → ∃ n, r.int? = some n ∧ 0 ≤ n) := by
  have hread := (overriding_eq_ok_iff.1 h).2
  have hgiven : Settings.value fields name (Settings.value base.toFields name .null) = r := by
    simp [Settings.value, hr]
  constructor
  · intro hname
    simp only [sizeNames, List.mem_cons, List.not_mem_nil, or_false] at hname
    obtain rfl | rfl | rfl | rfl | rfl := hname
    · exact Settings.exists_int_of_positive (hgiven ▸ hread.initialBatchSize)
    · exact Settings.exists_int_of_positive (hgiven ▸ hread.batchSize)
    · exact Settings.exists_int_of_positive (hgiven ▸ hread.maxSamples)
    · exact Settings.exists_int_of_positive (hgiven ▸ hread.stableBatches)
    · exact Settings.exists_int_of_positive (hgiven ▸ hread.fixedSampleSize)
  · rintro rfl
    have hthreshold := hread.newPathThreshold
    rw [hgiven, Settings.nonNegative_eq_ok_iff] at hthreshold
    exact ⟨_, hthreshold, Int.natCast_nonneg _⟩

theorem ne_truth_of_fractionOf [Stack] {r : Raw} {amount : Amount} (h : fractionOf r = .ok amount) : amount ≠ .truth := by
  rintro rfl
  have hraw := (fractionOf_eq_ok_iff.1 h).1
  cases r <;> cases hraw

theorem isPositive_of_timeoutOf [Stack] {r : Raw} {limit : Amount} (h : timeoutOf r = .ok (some limit)) :
    limit.isPositive = true := by
  obtain ⟨-, hnone⟩ | ⟨-, htruth⟩ | ⟨amount, hamount, hsome⟩ := timeoutOf_eq_ok_iff.1 h
  · cases hnone
  · cases htruth
    rfl
  · cases hsome
    exact (fractionOf_eq_ok_iff.1 hamount).2

theorem isAccepted_of_overriding [Stack] (h : overriding base fields = .ok s) : s.IsAccepted := by
  have hread := (overriding_eq_ok_iff.1 h).2
  refine { sizes := ?_, notTruth := ?_, maxFraction := ?_, timeout := ?_ }
  · simp only [sizes, List.forall_mem_cons]
    exact ⟨Settings.positive_ok hread.initialBatchSize, Settings.positive_ok hread.batchSize,
      Settings.positive_ok hread.maxSamples, Settings.positive_ok hread.stableBatches,
      Settings.positive_ok hread.fixedSampleSize, List.forall_mem_nil _⟩
  · exact ne_truth_of_fractionOf hread.maxFraction
  · exact (fractionOf_eq_ok_iff.1 hread.maxFraction).2
  · intro limit hlimit
    have htimeout := hread.timeout
    rw [hlimit] at htimeout
    exact isPositive_of_timeoutOf htimeout

theorem fractionOf_toRaw [Stack] {amount : Amount} (htruth : amount ≠ .truth) (hpositive : amount.isPositive = true) :
    fractionOf amount.toRaw = .ok amount :=
  fractionOf_eq_ok_iff.2 ⟨Amount.ofRaw?_toRaw htruth, hpositive⟩

theorem timeoutOf_toRaw [Stack] {limit : Option Amount} (h : ∀ amount, limit = some amount → amount.isPositive = true) :
    timeoutOf ((limit.map Amount.toRaw).getD .null) = .ok limit := by
  rw [timeoutOf_eq_ok_iff]
  cases limit with
  | none => exact .inl ⟨rfl, rfl⟩
  | some amount =>
    by_cases htruth : amount = .truth
    · subst htruth
      exact .inr (.inl ⟨rfl, rfl⟩)
    · exact .inr (.inr ⟨amount, fractionOf_toRaw htruth (h amount rfl), rfl⟩)

/-- The settings hold their own values, if these pass all checks, whatever the values of other fields are. -/
theorem IsAccepted.readFrom [Stack] (h : s.IsAccepted) (otherwise : String → Raw) :
    s.ReadFrom fun name => Settings.value s.toFields name (otherwise name) := by
  have hsizes := h.sizes
  simp only [SamplingSettings.sizes, List.forall_mem_cons] at hsizes
  obtain ⟨hinitial, hbatch, hmax, hstable, hfixed, -⟩ := hsizes
  exact
    { initialBatchSize := Settings.positive_eq_ok_iff.2 ⟨rfl, hinitial⟩
      batchSize := Settings.positive_eq_ok_iff.2 ⟨rfl, hbatch⟩
      maxSamples := Settings.positive_eq_ok_iff.2 ⟨rfl, hmax⟩
      stableBatches := Settings.positive_eq_ok_iff.2 ⟨rfl, hstable⟩
      fixedSampleSize := Settings.positive_eq_ok_iff.2 ⟨rfl, hfixed⟩
      newPathThreshold := Settings.nonNegative_eq_ok_iff.2 rfl
      maxFraction := fractionOf_toRaw h.notTruth h.maxFraction
      timeout := timeoutOf_toRaw h.timeout
      adaptive := rfl
      prefetch := rfl }

/-- Settings that pass all checks are accepted when all their values are given. -/
theorem IsAccepted.constructed [Stack] (h : s.IsAccepted) : s.Constructed :=
  .direct (overriding_eq_ok_iff.2 ⟨rfl, h.readFrom _⟩ : overriding {} s.toFields = .ok s)

theorem isAccepted_of_constructed [Stack] (h : s.Constructed) : s.IsAccepted := by
  cases h with
  | direct accepted => exact isAccepted_of_overriding accepted
  | ofAll accepted =>
    exact layering.holds_of_outer isAccepted_of_overriding (Config.read_of_ofRaw accepted).sampling
  | ofOne accepted entry_mem =>
    have hread := Config.read_of_ofRaw accepted
    obtain ⟨i, item, -, hentry⟩ := hread.exists_item entry_mem
    exact layering.holds_of_layers isAccepted_of_overriding hread.sampling hentry.sampling

/-- The settings that come to be are those that pass all checks. -/
theorem constructed_iff [Stack] : s.Constructed ↔ s.IsAccepted :=
  ⟨isAccepted_of_constructed, IsAccepted.constructed⟩

/-- The settings that pass all checks are as they should be, unless an amount is a NaN. -/
theorem isAccepted_and_iff :
    s.IsAccepted ∧ s.maxFraction ≠ .float .nan ∧ s.timeout? ≠ some (.float .nan) ↔
      s.IsValid ∧ s.maxFraction ≠ .truth := by
  constructor
  · rintro ⟨h, hfraction, htimeout⟩
    refine ⟨⟨h.sizes, (Amount.isPositive_iff.1 h.maxFraction).resolve_right hfraction, fun limit hlimit => ?_⟩,
      h.notTruth⟩
    exact (Amount.isPositive_iff.1 (h.timeout limit hlimit)).resolve_right fun hnan => htimeout (hnan ▸ hlimit)
  · rintro ⟨h, htruth⟩
    refine ⟨⟨h.sizes, htruth, Amount.isPositive_iff.2 (.inl h.maxFraction), fun limit hlimit =>
      Amount.isPositive_iff.2 (.inl (h.timeout limit hlimit))⟩, ?_, ?_⟩
    · exact Amount.ne_nan_of_isAbove h.maxFraction
    · intro hnan
      exact Amount.ne_nan_of_isAbove (h.timeout _ hnan) rfl

end SamplingSettings

/-! ## Settings of the extraction -/

namespace ExtractionSettings

/-- The settings pass all checks. -/
structure IsAccepted (e : ExtractionSettings) : Prop where
  maxDepth : 0 < e.maxDepth ∧ e.maxDepth ≤ depthLimit
  arraySampleSize : 0 < e.arraySampleSize
  identifierField : e.identifierField.isTrue = true
  hiddenStarts : ∀ start ∈ e.hiddenStarts, start.isTrue = true

/-- The settings are as they should be: the field of the identifier has a name, and the starts of hidden keys are
texts that are not empty. -/
structure IsValid (e : ExtractionSettings) : Prop where
  maxDepth : 1 ≤ e.maxDepth ∧ e.maxDepth ≤ 200
  arraySampleSize : 0 < e.arraySampleSize
  identifierField : ∃ name, e.identifierField.text? = some name ∧ name ≠ ""
  hiddenStarts : ∀ start ∈ e.hiddenStarts, ∃ text, start.text? = some text ∧ text ≠ ""

/-- The settings come to be: with values for some fields and the defaults for the others, or in a configuration. -/
inductive Constructed [Stack] : ExtractionSettings → Prop
  | direct {e : ExtractionSettings} {fields : Settings.Fields} (accepted : overriding {} fields = .ok e) : Constructed e
  | ofAll {data : Raw} {c : Config} (accepted : Config.ofRaw data = .ok c) : Constructed c.extraction
  | ofOne {data : Raw} {c : Config} {entry : CollectionSettings} (accepted : Config.ofRaw data = .ok c)
      (entry_mem : entry ∈ c.collections) : Constructed (c.extractionOf entry)

variable {base e : ExtractionSettings} {fields : Settings.Fields}

theorem isAccepted_of_overriding [Stack] (h : overriding base fields = .ok e) : e.IsAccepted := by
  have hread := (overriding_eq_ok_iff.1 h).2
  exact ⟨⟨Settings.positive_ok hread.maxDepth, hread.maxDepth_le⟩, Settings.positive_ok hread.arraySampleSize,
    hread.identifierField_isTrue, isTrue_of_startsOf hread.hiddenStarts⟩

/-- Values are accepted as the depth and as the size of a sample only if they are whole numbers above zero. -/
theorem exists_int_of_overriding [Stack] (h : overriding base fields = .ok e) {name : String} {r : Raw}
    (hr : fields.lookup name = some r) (hname : name = "max_depth" ∨ name = "array_sample_size") :
    ∃ n, r.int? = some n ∧ 0 < n := by
  have hread := (overriding_eq_ok_iff.1 h).2
  have hgiven : Settings.value fields name (Settings.value base.toFields name .null) = r := by
    simp [Settings.value, hr]
  obtain rfl | rfl := hname
  · exact Settings.exists_int_of_positive (hgiven ▸ hread.maxDepth)
  · exact Settings.exists_int_of_positive (hgiven ▸ hread.arraySampleSize)

/-- The settings hold their own values, if these pass all checks, whatever the values of other fields are. -/
theorem IsAccepted.readFrom [Stack] (h : e.IsAccepted) (otherwise : String → Raw) :
    e.ReadFrom fun name => Settings.value e.toFields name (otherwise name) where
  maxDepth := Settings.positive_eq_ok_iff.2 ⟨rfl, h.maxDepth.1⟩
  maxDepth_le := h.maxDepth.2
  arraySampleSize := Settings.positive_eq_ok_iff.2 ⟨rfl, h.arraySampleSize⟩
  hiddenStarts := startsOf_tuple h.hiddenStarts
  identifierField := rfl
  identifierField_isTrue := h.identifierField
  detectIdentifiers := rfl

/-- Settings that pass all checks are accepted when all their values are given. -/
theorem IsAccepted.constructed [Stack] (h : e.IsAccepted) : e.Constructed :=
  .direct (overriding_eq_ok_iff.2 ⟨rfl, h.readFrom _⟩ : overriding {} e.toFields = .ok e)

theorem isAccepted_of_constructed [Stack] (h : e.Constructed) : e.IsAccepted := by
  cases h with
  | direct accepted => exact isAccepted_of_overriding accepted
  | ofAll accepted =>
    exact layering.holds_of_outer isAccepted_of_overriding (Config.read_of_ofRaw accepted).extraction
  | ofOne accepted entry_mem =>
    have hread := Config.read_of_ofRaw accepted
    obtain ⟨i, item, -, hentry⟩ := hread.exists_item entry_mem
    exact layering.holds_of_layers isAccepted_of_overriding hread.extraction hentry.extraction

/-- The settings that come to be are those that pass all checks. -/
theorem constructed_iff [Stack] : e.Constructed ↔ e.IsAccepted :=
  ⟨isAccepted_of_constructed, IsAccepted.constructed⟩

/-- A value is a text that is not empty if it is a text and is true. -/
theorem exists_text_iff {r : Raw} : (∃ text, r.text? = some text ∧ text ≠ "") ↔ r.isTrue = true ∧ r.text?.isSome := by
  cases r with
  | text s => simp [Raw.text?, Raw.isTrue]
  | code s => simp [Raw.text?, Raw.isTrue]
  | _ => simp [Raw.text?]

/-- The settings that pass all checks are as they should be, unless a name or a start is no text. -/
theorem isAccepted_and_iff :
    e.IsAccepted ∧ e.identifierField.text?.isSome ∧ (∀ start ∈ e.hiddenStarts, start.text?.isSome) ↔ e.IsValid := by
  constructor
  · rintro ⟨h, hname, hstarts⟩
    exact ⟨h.maxDepth, h.arraySampleSize, exists_text_iff.2 ⟨h.identifierField, hname⟩,
      fun start hstart => exists_text_iff.2 ⟨h.hiddenStarts start hstart, hstarts start hstart⟩⟩
  · intro h
    have hstarts := fun start hstart => exists_text_iff.1 (h.hiddenStarts start hstart)
    obtain ⟨htrue, hname⟩ := exists_text_iff.1 h.identifierField
    exact ⟨⟨h.maxDepth, h.arraySampleSize, htrue, fun start hstart => (hstarts start hstart).1⟩, hname,
      fun start hstart => (hstarts start hstart).2⟩

end ExtractionSettings

/-- **Accepted settings.** The settings that come to be, in whatever way, are those that pass all checks. They are as
they should be exactly if no amount is a NaN, and if the field of the identifier and the starts of hidden keys are
texts. Values given for sizes are whole numbers in the range, and no truth values. -/
theorem accepted_settings [Stack] (s : SamplingSettings) (e : ExtractionSettings) :
    (s.Constructed ↔ s.IsAccepted) ∧
      (s.Constructed ∧ s.maxFraction ≠ .float .nan ∧ s.timeout? ≠ some (.float .nan) ↔
        s.IsValid ∧ s.maxFraction ≠ .truth) ∧
      (∀ base fields name r, SamplingSettings.overriding base fields = .ok s → fields.lookup name = some r →
        (name ∈ SamplingSettings.sizeNames → ∃ n, r.int? = some n ∧ 0 < n) ∧
          (name = "new_path_threshold" → ∃ n, r.int? = some n ∧ 0 ≤ n)) ∧
      (e.Constructed ↔ e.IsAccepted) ∧
      (e.Constructed ∧ e.identifierField.text?.isSome ∧ (∀ start ∈ e.hiddenStarts, start.text?.isSome) ↔
        e.IsValid) ∧
      ∀ base fields name r, ExtractionSettings.overriding base fields = .ok e → fields.lookup name = some r →
        name = "max_depth" ∨ name = "array_sample_size" → ∃ n, r.int? = some n ∧ 0 < n := by
  rw [SamplingSettings.constructed_iff, ExtractionSettings.constructed_iff]
  exact ⟨.rfl, SamplingSettings.isAccepted_and_iff,
    fun _ _ _ _ h hr => SamplingSettings.exists_int_of_overriding h hr,
    .rfl, ExtractionSettings.isAccepted_and_iff,
    fun _ _ _ _ h hr => ExtractionSettings.exists_int_of_overriding h hr⟩

/-- A share that is a NaN is accepted, and so are a name and a start that are whole numbers. -/
theorem constructed_unfit :
    let s : SamplingSettings := { maxFraction := .float .nan }
    let e : ExtractionSettings := { identifierField := .int 5, hiddenStarts := [.int 1] }
    s.Constructed ∧ ¬s.IsValid ∧ e.Constructed ∧ ¬e.IsValid := by
  intro s e
  have hs : SamplingSettings.overriding {} [("max_fraction", .float .nan)] = .ok s := by rfl
  have he : ExtractionSettings.overriding {}
      [("identifier_field", .int 5), ("excluded_prefixes", .list [.int 1, .text ""])] = .ok e := by rfl
  refine ⟨.direct hs, fun h => ?_, .direct he, fun h => ?_⟩
  · exact absurd h.maxFraction (by decide)
  · obtain ⟨name, hname, -⟩ := h.identifierField
    cases hname

end DocSchema
