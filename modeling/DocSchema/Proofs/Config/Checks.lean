import DocSchema.Proofs.Config.Accepted

/-!
# Checks of settings

The values of settings are checked one after the other, each by a check of its own, and the first that is refused
decides how the settings fail. Most checks tell a value as it is shown. The failure goes unreported then if the value
cannot be shown, and so it does if the starts of hidden keys are wanted of a value that holds none.

- `Check.Describes`: a value is checked as a check says.
- `firstEscape?_getD`: values that are accepted already do not matter.
- `Settings.Checked`: settings of either kind, which fail by the first check that refuses a value.
-/

namespace DocSchema

/-- What a fault of settings is for a configuration, if it is not reported. -/
def SettingsFault.unreported? : SettingsFault → Option ConfigFault
  | .misuse m => some (.misuse m)
  | .notShown fault => some (.notShown fault)
  | _ => none

theorem SettingsFault.unreported?_showing [Stack] {r : Raw} {make : String → SettingsFault}
    (hmake : ∀ s, (make s).unreported? = none) :
    (showing r make).unreported? = r.showFault?.map .notShown := by
  rw [showing]
  cases r.showFault? with
  | none => exact hmake r.shown
  | some fault => rfl

/-! ## Checks of settings -/

namespace Settings

/-- A check of a setting: the values that it accepts, and what comes of a value that it refuses, if that is not
reported. -/
structure Check where
  name : String
  accepts : Raw → Bool
  escape? : Raw → Option ConfigFault

namespace Check

/-- A check that tells a value that it refuses as it is shown. -/
def telling [Stack] (name : String) (accepts : Raw → Bool) : Check where
  name
  accepts
  escape? r := r.showFault?.map .notShown

@[simp] theorem telling_accepts [Stack] (name : String) (accepts : Raw → Bool) :
    (telling name accepts).accepts = accepts := rfl

/-- A whole number above zero. -/
def size [Stack] (name : String) : Check :=
  telling name fun r => r.int?.any (0 < ·)

/-- A whole number that is not negative. -/
def threshold [Stack] (name : String) : Check :=
  telling name fun r => r.int?.any (0 ≤ ·)

/-- A positive number. -/
def share [Stack] (name : String) : Check :=
  telling name fun r => (Amount.ofRaw? r).any Amount.isPositive

/-- A positive number, a truth value that holds, or nothing. -/
def limit [Stack] (name : String) : Check :=
  telling name fun
    | .null | .bool true => true
    | r => (Amount.ofRaw? r).any Amount.isPositive

/-- A number that is no greater than the greatest depth. -/
def depth [Stack] (name : String) : Check :=
  telling name fun r => r.int?.all (· ≤ (ExtractionSettings.depthLimit : Int))

/-- Something to go through. -/
def starts (name : String) : Check where
  name
  accepts r := r.elements?.isSome
  escape? r := some (.misuse (.notIterable r.typeName))

/-- Whether a check refuses the value of its setting, if there is one. -/
def refuses (c : Check) (value? : String → Option Raw) : Bool :=
  (value? c.name).any fun r => !c.accepts r

/-- A value is checked so. -/
structure Describes {α : Type} (c : Check) (r : Raw) (e : Except SettingsFault α) : Prop where
  accepts {a : α} : e = .ok a → c.accepts r = true
  refuses {fault : SettingsFault} : e = .error fault → c.accepts r = false ∧ fault.unreported? = c.escape? r

end Check

/-- What is not reported of the failure of settings. -/
def unreported? {α : Type} : Except SettingsFault α → Option ConfigFault
  | .ok _ => none
  | .error fault => fault.unreported?

/-- What is not reported when values are checked one after the other. -/
def firstEscape? (value : String → Raw) : List Check → Option ConfigFault
  | [] => none
  | c :: checks => if c.accepts (value c.name) then firstEscape? value checks else c.escape? (value c.name)

variable {name : String} {r : Raw} {c : Check} {checks : List Check} {f : ConfigFault}

theorem unreported?_bind {α β : Type} {e : Except SettingsFault α} {k : α → Except SettingsFault β}
    {value : String → Raw} (he : c.Describes (value c.name) e)
    (hk : ∀ a, e = .ok a → unreported? (k a) = firstEscape? value checks) :
    unreported? (e >>= k) = firstEscape? value (c :: checks) := by
  cases e with
  | ok a => rw [firstEscape?, if_pos (he.accepts rfl), ← hk a rfl]; rfl
  | error fault =>
    obtain ⟨hrefused, hescape⟩ := he.refuses rfl
    rw [firstEscape?, hrefused, if_neg Bool.false_ne_true, ← hescape]
    rfl

theorem Check.Describes.unreported?_eq_some_iff {α : Type} {e : Except SettingsFault α} (he : c.Describes r e) :
    unreported? e = some f ↔ c.accepts r = false ∧ c.escape? r = some f := by
  cases e with
  | ok a => simp [unreported?, he.accepts rfl]
  | error fault => simp [unreported?, he.refuses rfl]

/-- Only the values that are given decide, where those that hold without them are accepted. -/
theorem firstEscape?_getD {value? : String → Option Raw} {value : String → Raw}
    (hvalue : ∀ c ∈ checks, c.accepts (value c.name) = true) :
    firstEscape? (fun name => (value? name).getD (value name)) checks = some f ↔
      ∃ c r, checks.find? (·.refuses value?) = some c ∧ value? c.name = some r ∧ c.escape? r = some f := by
  induction checks with
  | nil => simp [firstEscape?]
  | cons c checks ih =>
    obtain ⟨hc, hchecks⟩ := List.forall_mem_cons.1 hvalue
    rw [firstEscape?]
    cases hr : value? c.name with
    | none =>
      -- the value that holds without one passes
      have hpasses : c.refuses value? = false := by rw [Check.refuses, hr]; rfl
      rw [Option.getD_none, if_pos hc, ih hchecks, List.find?_cons_of_neg (by simp [hpasses])]
    | some r =>
      have hrefuses : c.refuses value? = !c.accepts r := by rw [Check.refuses, hr]; rfl
      rw [Option.getD_some]
      cases haccepts : c.accepts r with
      | true => rw [if_pos rfl, ih hchecks, List.find?_cons_of_neg (by simp [hrefuses, haccepts])]
      | false =>
        rw [if_neg Bool.false_ne_true, List.find?_cons_of_pos (by simp [hrefuses, haccepts])]
        constructor
        · exact fun h => ⟨c, r, rfl, hr, h⟩
        · rintro ⟨c', r', hc', hr', h⟩
          obtain rfl := Option.some.inj hc'
          obtain rfl := Option.some.inj (hr.symm.trans hr')
          exact h

/-! ### The checks, one by one -/

/-- A check that refuses a value by showing it. -/
theorem Check.describes_of_showing [Stack] {α : Type} {e : Except SettingsFault α} (make : String → SettingsFault)
    (hmake : ∀ s, (make s).unreported? = none) (hescape : c.escape? r = r.showFault?.map .notShown)
    (h : (∃ a, e = .ok a) ∧ c.accepts r = true ∨ e = .error (.showing r make) ∧ c.accepts r = false) :
    c.Describes r e := by
  obtain ⟨⟨a, rfl⟩, haccepts⟩ | ⟨rfl, hrefused⟩ := h
  · exact ⟨fun _ => haccepts, fun h => nomatch h⟩
  · refine ⟨fun h => (nomatch h), fun h => ?_⟩
    obtain rfl := Except.error.inj h
    exact ⟨hrefused, (SettingsFault.unreported?_showing hmake).trans hescape.symm⟩

theorem describes_positive [Stack] : (Check.size name).Describes r (positive name r) := by
  refine Check.describes_of_showing (.notPositive name) (fun _ => rfl) rfl ?_
  unfold positive
  cases hint : r.int? with
  | none => exact .inr ⟨rfl, by simp [Check.size, hint]⟩
  | some n =>
    by_cases hpos : 0 < n
    · exact .inl ⟨⟨_, if_pos hpos⟩, by simp [Check.size, hint, hpos]⟩
    · exact .inr ⟨if_neg hpos, by simp [Check.size, hint, hpos]⟩

theorem describes_nonNegative [Stack] : (Check.threshold name).Describes r (nonNegative name r) := by
  refine Check.describes_of_showing (.negative name) (fun _ => rfl) rfl ?_
  unfold nonNegative
  cases hint : r.int? with
  | none => exact .inr ⟨rfl, by simp [Check.threshold, hint]⟩
  | some n =>
    by_cases hnonNeg : 0 ≤ n
    · exact .inl ⟨⟨_, if_pos hnonNeg⟩, by simp [Check.threshold, hint, hnonNeg]⟩
    · exact .inr ⟨if_neg hnonNeg, by simp [Check.threshold, hint, hnonNeg]⟩

theorem describes_fractionOf [Stack] : (Check.share name).Describes r (SamplingSettings.fractionOf r) := by
  refine Check.describes_of_showing .fraction (fun _ => rfl) rfl ?_
  unfold SamplingSettings.fractionOf
  cases hamount : Amount.ofRaw? r with
  | none => exact .inr ⟨rfl, by simp [Check.share, hamount]⟩
  | some amount =>
    by_cases hpos : amount.isPositive = true
    · exact .inl ⟨⟨_, if_pos hpos⟩, by simp [Check.share, hamount, hpos]⟩
    · exact .inr ⟨if_neg hpos, by simp [Check.share, hamount, hpos]⟩

theorem describes_timeoutOf [Stack] : (Check.limit name).Describes r (SamplingSettings.timeoutOf r) := by
  refine Check.describes_of_showing .timeout (fun _ => rfl) rfl ?_
  unfold SamplingSettings.timeoutOf
  split
  · exact .inl ⟨⟨_, rfl⟩, rfl⟩
  · exact .inl ⟨⟨_, rfl⟩, rfl⟩
  · rename_i hnull htrue
    have haccepts : (Check.limit name).accepts r = (Amount.ofRaw? r).any Amount.isPositive := by
      simp only [Check.limit, Check.telling_accepts]
    rw [haccepts]
    cases Amount.ofRaw? r with
    | none => exact .inr ⟨rfl, rfl⟩
    | some amount =>
      by_cases hpos : amount.isPositive = true
      · exact .inl ⟨⟨_, if_pos hpos⟩, hpos⟩
      · exact .inr ⟨if_neg hpos, Bool.eq_false_iff.2 hpos⟩

end Settings

/-! ## Settings of the sampling and of the extraction -/

namespace SamplingSettings

/-- The checks of the settings, in order. -/
def checks [Stack] : List Settings.Check :=
  [.size "initial_batch_size", .size "batch_size", .size "max_samples", .size "stable_batches",
    .size "fixed_sample_size", .threshold "new_path_threshold", .share "max_fraction", .limit "timeout_seconds"]

variable {base s : SamplingSettings} {fields : Settings.Fields}

theorem accepts_value [Stack] (h : s.IsAccepted) : ∀ c ∈ checks, c.accepts (s.value c.name) = true := by
  have hread := h.readFrom fun _ => .null
  simp only [checks, List.forall_mem_cons]
  exact ⟨Settings.describes_positive.accepts hread.initialBatchSize,
    Settings.describes_positive.accepts hread.batchSize, Settings.describes_positive.accepts hread.maxSamples,
    Settings.describes_positive.accepts hread.stableBatches,
    Settings.describes_positive.accepts hread.fixedSampleSize,
    Settings.describes_nonNegative.accepts hread.newPathThreshold,
    Settings.describes_fractionOf.accepts hread.maxFraction, Settings.describes_timeoutOf.accepts hread.timeout,
    List.forall_mem_nil _⟩

/-- Settings of known names fail by the first check that refuses a value. -/
theorem unreported?_overriding [Stack] (hnames : Settings.checkNames names fields = .ok ()) :
    Settings.unreported? (overriding base fields) =
      Settings.firstEscape? (fun name => (fields.lookup name).getD (base.value name)) checks := by
  rw [overriding, hnames]
  change Settings.unreported? (Settings.positive _ _ >>= _) = _
  -- five sizes come first
  iterate 5 refine Settings.unreported?_bind Settings.describes_positive fun _ _ => ?_
  refine Settings.unreported?_bind Settings.describes_nonNegative fun _ _ => ?_
  refine Settings.unreported?_bind Settings.describes_fractionOf fun _ _ => ?_
  refine Settings.unreported?_bind Settings.describes_timeoutOf fun _ _ => ?_
  rfl

end SamplingSettings

namespace ExtractionSettings

/-- The checks of the settings, in order. The last one is left out: it refuses a field of the identifier that is not
true, which is always reported. -/
def checks [Stack] : List Settings.Check :=
  [.size "max_depth", .size "array_sample_size", .depth "max_depth", .starts "excluded_prefixes"]

variable {base s : ExtractionSettings} {fields : Settings.Fields} {name : String} {r : Raw}

theorem describes_startsOf : (Settings.Check.starts name).Describes r (startsOf r) where
  accepts h := by
    rw [startsOf] at h
    split at h
    · rename_i hnone
      cases r <;> first | rfl | cases hnone
    · split at h
      · rename_i hitems
        simp [Settings.Check.starts, hitems]
      · cases h
  refuses h := by
    rw [startsOf] at h
    split at h
    · cases h
    · split at h
      · cases h
      · rename_i hitems
        cases h
        exact ⟨by simp [Settings.Check.starts, hitems], rfl⟩

theorem ite_error_eq_bind {α ε : Type} {p : Prop} [Decidable p] {fault : ε} {e : Except ε α} :
    (if p then .error fault else e) = (if p then .error fault else .ok ()) >>= fun _ => e := by
  split <;> rfl

/-- A number is shown without its width. -/
theorem describes_depth [Stack] {maxDepth : Nat} (hint : r.int? = some (maxDepth : Int)) :
    (Settings.Check.depth name).Describes r
      (if depthLimit < maxDepth then .error (.showing (.int maxDepth) .tooDeep) else .ok ()) where
  accepts h := by
    split at h
    · cases h
    · rename_i hle
      simpa [Settings.Check.depth, hint] using hle
  refuses h := by
    have hshow : r.showFault? = (Raw.int maxDepth).showFault? := by
      cases r with
      | int n => rw [← Option.some.inj hint]
      | long n =>
        rw [← Option.some.inj hint]
        simp only [Raw.showFault?, Raw.showFaultWithin?]
      | _ => cases hint
    split at h
    · rename_i hdeep
      obtain rfl := Except.error.inj h
      refine ⟨by simpa [Settings.Check.depth, hint] using hdeep, ?_⟩
      rw [SettingsFault.unreported?_showing fun _ => rfl, ← hshow]
      rfl
    · cases h

theorem accepts_value [Stack] (h : s.IsAccepted) : ∀ c ∈ checks, c.accepts (s.value c.name) = true := by
  have hread := h.readFrom fun _ => .null
  have hdepth : (s.value "max_depth").int? = some (s.maxDepth : Int) := rfl
  simp only [checks, List.forall_mem_cons]
  exact ⟨Settings.describes_positive.accepts hread.maxDepth,
    Settings.describes_positive.accepts hread.arraySampleSize,
    (describes_depth hdepth).accepts (if_neg (Nat.not_lt.2 hread.maxDepth_le)),
    describes_startsOf.accepts hread.hiddenStarts, List.forall_mem_nil _⟩

/-- Settings of known names fail by the first check that refuses a value. -/
theorem unreported?_overriding [Stack] (hnames : Settings.checkNames names fields = .ok ()) :
    Settings.unreported? (overriding base fields) =
      Settings.firstEscape? (fun name => (fields.lookup name).getD (base.value name)) checks := by
  rw [overriding, hnames]
  change Settings.unreported? (Settings.positive _ _ >>= _) = _
  refine Settings.unreported?_bind Settings.describes_positive fun maxDepth hdepth => ?_
  refine Settings.unreported?_bind Settings.describes_positive fun arraySampleSize _ => ?_
  have hint := (Settings.positive_eq_ok_iff.1 hdepth).1
  -- the depth is compared with the greatest one only after the size of a sample is checked
  rw [ite_error_eq_bind]
  refine Settings.unreported?_bind (describes_depth hint) fun _ _ => ?_
  refine Settings.unreported?_bind describes_startsOf fun _ _ => ?_
  dsimp only
  split <;> rfl

end ExtractionSettings

/-- Settings of either kind with their checks. -/
structure Settings.Checked (α : Type) extends Settings.Layering α where
  checks : List Settings.Check
  accepts_value {base s : α} {fields : Settings.Fields} : overriding base fields = .ok s →
    ∀ c ∈ checks, c.accepts (value s c.name) = true
  unreported?_overriding {base : α} {fields : Settings.Fields} : Settings.checkNames names fields = .ok () →
    Settings.unreported? (overriding base fields) =
      Settings.firstEscape? (fun name => (fields.lookup name).getD (value base name)) checks

/-- The settings of the sampling with their checks. -/
def SamplingSettings.checked [Stack] : Settings.Checked SamplingSettings where
  toLayering := layering
  checks := checks
  accepts_value h := accepts_value (isAccepted_of_overriding h)
  unreported?_overriding := unreported?_overriding

/-- The settings of the extraction with their checks. -/
def ExtractionSettings.checked [Stack] : Settings.Checked ExtractionSettings where
  toLayering := layering
  checks := checks
  accepts_value h := accepts_value (isAccepted_of_overriding h)
  unreported?_overriding := unreported?_overriding

end DocSchema
