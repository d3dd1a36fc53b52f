import DocSchema.Proofs.Introspection.Dialogue

/-!
# Runs without a limit of time

A run reads the clock for its deadline only. One that has none makes the same calls whatever the clock reads, and
comes to the same result, apart from the times that are noted in its report.

- `sequentialCalls_clock`, `overlappedCalls_clock`: the two loops over batches.
- `runCalls_clock`: a run.
- `introspectCalls_clock`: an introspection, whose report has other times.
-/

namespace DocSchema

/-- A report with other times. -/
def Report.at (r : Report) (times : RunTimes) : Report :=
  { r with times }

namespace Sampling

variable {rules : Plan Unit} (clock : Nat → Binary64) {share : Amount} {p : Progress Unit}

/-- What follows a batch is the same when the rest of the run is. -/
theorem answeredCalls_clock {leave leave' : Except RunError StopReason → Progress Unit → Dialogue (Ending Unit)}
    {next next' : Progress Unit → Dialogue (Ending Unit)} (batch : List Raw)
    (hleave : ∀ ending q, leave ending q = leave' ending q) (hnext : ∀ q, p.sampled < q.sampled → next q = next' q) :
    answeredCalls { rules with clock } share leave next p batch =
      answeredCalls rules share leave' next' p batch := by
  cases batch with
  | nil => rfl
  | cons r rs =>
    rw [answeredCalls, answeredCalls]
    have hsettled : settled { rules with clock } p (r :: rs).length
        (ingestAll rules.extraction (p.batches + 1) 0 (r :: rs) p.accumulator) =
      settled rules p (r :: rs).length
        (ingestAll rules.extraction (p.batches + 1) 0 (r :: rs) p.accumulator) := rfl
    dsimp only
    rw [hsettled]
    split
    · exact hleave _ _
    · exact hnext _ (Nat.lt_add_of_pos_right (Nat.succ_pos rs.length))

/-- The loop that fetches its batches in turn has no use for the clock. -/
theorem sequentialCalls_clock :
    sequentialCalls { rules with clock } { share } p = sequentialCalls rules { share } p := by
  induction hbudget : rules.sampling.maxSamples - p.sampled using Nat.strongRecOn generalizing p with
  | _ budget ih =>
    rw [sequentialCalls_eq, sequentialCalls_eq]
    have hsame : p.size { rules with clock } = p.size rules := rfl
    rw [hsame]
    by_cases hsize : p.size rules = 0
    · rw [if_pos hsize, if_pos hsize]
    rw [if_neg hsize, if_neg hsize]
    refine congrArg _ (funext fun given => ?_)
    dsimp only
    cases (brought (p.batches + 1) (p.size rules) given).batch with
    | error e => rfl
    | ok batch =>
      generalize hdrawn : p.fetched (p.size rules) (brought (p.batches + 1) (p.size rules) given) = drawn
      have hclock : checkpoint { rules with clock } none drawn.cancelled drawn =
        checkpoint rules none drawn.cancelled drawn := rfl
      dsimp only
      rw [hclock]
      cases hchecked : checkpoint rules none drawn.cancelled drawn with
      | error e => rfl
      | ok checked =>
        refine answeredCalls_clock clock batch (fun _ _ => rfl) fun q hq => ih _ ?_ rfl
        have hsampled : checked.sampled = p.sampled := by
          rw [sampled_checkpoint hchecked, ← hdrawn]
          rfl
        rw [hsampled] at hq
        exact hbudget ▸ budget_lt_of_lt hsize hq

/-- The loop that fetches ahead has no use for the clock. -/
theorem overlappedCalls_clock {schedule : Schedule} :
    overlappedCalls { rules with clock } { share } schedule p = overlappedCalls rules { share } schedule p := by
  induction hbudget : rules.sampling.maxSamples - p.sampled using Nat.strongRecOn generalizing p with
  | _ budget ih =>
    rw [overlappedCalls_eq, overlappedCalls_eq]
    have hsame : p.size { rules with clock } = p.size rules := rfl
    rw [hsame]
    by_cases hsize : p.size rules = 0
    · rw [if_pos hsize, if_pos hsize]
    rw [if_neg hsize, if_neg hsize]
    refine congrArg _ (funext fun given => ?_)
    dsimp only
    generalize hdrawn : p.fetched (p.size rules) (brought (p.batches + 1) (p.size rules) given) = drawn
    have hclock : checkpoint { rules with clock } none p.cancelled drawn =
      checkpoint rules none p.cancelled drawn := rfl
    rw [hclock]
    cases hchecked : checkpoint rules none p.cancelled drawn with
    | error e => rfl
    | ok checked =>
      dsimp only
      cases (brought (p.batches + 1) (p.size rules) given).batch with
      | error e => rfl
      | ok batch =>
        refine answeredCalls_clock clock batch (fun _ _ => rfl) fun q hq => ih _ ?_ rfl
        have hsampled : checked.sampled = p.sampled := by
          rw [sampled_checkpoint hchecked, ← hdrawn]
          rfl
        rw [hsampled] at hq
        exact hbudget ▸ budget_lt_of_lt hsize hq

theorem adaptiveCalls_clock {schedule : Schedule} (total : Nat) :
    adaptiveCalls { rules with clock } schedule none total p = adaptiveCalls rules schedule none total p := by
  rw [adaptiveCalls, adaptiveCalls]
  dsimp only
  cases fractionLimit? rules.sampling.maxFraction total with
  | none => rfl
  | some share =>
    dsimp only
    rw [overlappedCalls_clock, sequentialCalls_clock]

theorem deadlineOf_clock (htimeout : rules.sampling.timeout? = none) :
    deadlineOf { rules with clock } = .ok none := by
  rw [deadlineOf, htimeout]

/-- A run that has no deadline makes the same calls whatever the clock reads. -/
theorem runCalls_clock (htimeout : rules.sampling.timeout? = none) {schedule : Schedule}
    {collection typeName : String} {cancelled : Bool} :
    runCalls { rules with clock } schedule collection typeName cancelled =
      runCalls rules schedule collection typeName cancelled := by
  rw [runCalls, runCalls, deadlineOf_clock clock htimeout,
    show deadlineOf rules = .ok none from deadlineOf_clock rules.clock htimeout]
  refine congrArg (Dialogue.ask .count) (funext fun given => ?_)
  dsimp only
  cases countOf given with
  | error e => rfl
  | ok total =>
    dsimp only
    rw [adaptiveCalls_clock]
    rfl

end Sampling

namespace Introspection

open Sampling

variable {rules : Plan Unit} (clock : Nat → Binary64) {t : Target} (times times' : RunTimes)

/-- Other times make no other difference to a report. -/
theorem resultOf_at (extraction : ExtractionSettings) (typeName : String)
    (result : Except RunError Completed) :
    resultOf extraction t typeName times' result =
      (resultOf extraction t typeName times result).map fun r => r.at times' := by
  cases result with
  | error e => rfl
  | ok c =>
    rw [resultOf, resultOf, report, report]
    cases schemas extraction t typeName c with
    | error e => rfl
    | ok found =>
      dsimp only
      cases textPart "collection" t.collection with
      | error e => rfl
      | ok collection => rfl

/-- An introspection that has no deadline makes the same calls whatever the clock reads, and its report has other
times at most. -/
theorem introspectCalls_clock (htimeout : rules.sampling.timeout? = none) (schedule : Schedule)
    (cancelled : Bool) :
    introspectCalls { rules with clock } schedule t cancelled times' =
      (introspectCalls rules schedule t cancelled times).map (Except.map fun r => r.at times') := by
  rw [introspectCalls, introspectCalls]
  cases typeNameOf t with
  | error e => rfl
  | ok typeName =>
    cases t.collection.showFault? with
    | some fault =>
      dsimp only
      rw [untoldCalls, untoldCalls, deadlineOf_clock clock htimeout,
        show deadlineOf rules = .ok none from deadlineOf_clock rules.clock htimeout]
      rfl
    | none =>
      dsimp only [reportedCalls]
      rw [runCalls_clock clock htimeout, Dialogue.map_map]
      exact congrArg (Dialogue.map · _) (funext (resultOf_at times times' rules.extraction typeName))

end Introspection

end DocSchema
