import DocSchema.Proofs.Sampling.Course
import DocSchema.Proofs.Sampling.Turn
import DocSchema.Proofs.Settings.Reading
import Mathlib.Algebra.Group.Nat.Defs

/-!
# The stop rule of an adaptive run

A run that fetches its batches in turn, and that nothing interrupts, follows the course that the answers
of its store determine (`Course.Follows`).

- `Course.Answered`: a store gives the answers of a course. Every store gives those of some course
  (`Course.answered_ofStore`), and for all answers there is a store (`Course.answered_scripted`).
- `Course.Drives.at_settled`: what one turn brings about.
- `Course.Drives.sequential_ends`: where the loop ends.
- `run_follows_course`: the run as a whole.
-/

namespace DocSchema

/-- Accepted sizes are above zero. -/
theorem SamplingSettings.sizes_pos {base s : SamplingSettings} {fields : Settings.Fields}
    (h : overriding base fields = .ok s) :
    0 < s.initialBatchSize ∧ 0 < s.batchSize ∧ 0 < s.maxSamples := by
  have hread := (overriding_eq_ok_iff.1 h).2
  exact ⟨Settings.positive_ok hread.initialBatchSize, Settings.positive_ok hread.batchSize,
    Settings.positive_ok hread.maxSamples⟩

namespace Sampling

variable {σ : Type}

/-! ## Stores that give the answers of a course -/

/-- A store gives the answers of a course one after the other, going through some states, when it is
asked for as many documents as a run that follows the course asks for. -/
def Course.Answered (c : Course) (store : Store σ) (states : Nat → σ) : Prop :=
  ∀ n, (store.draw (c.request n) (states n)).1.documents = c.answers n ∧
    (store.draw (c.request n) (states n)).2 = states (n + 1)

/-- The state of a store after some answers to an adaptive run, and the number of documents in them. -/
def trail (store : Store σ) (s : SamplingSettings) (start : σ) : Nat → σ × Nat
  | 0 => (start, 0)
  | n + 1 =>
    let (state, sampled) := trail store s start n
    let drawn := store.draw (nextSize s n sampled) state
    (drawn.2, sampled + (drawn.1.documents.toOption.getD []).length)

/-- The course of a run on a store that is in some state. -/
def Course.ofStore (store : Store σ) (sampling : SamplingSettings) (extraction : ExtractionSettings)
    (start : Accumulator) (state : σ) : Course where
  sampling
  extraction
  start
  answers n :=
    let (now, sampled) := trail store sampling state n
    (store.draw (nextSize sampling n sampled) now).1.documents

/-- Every store gives the answers of a course. -/
theorem Course.answered_ofStore (store : Store σ) (sampling : SamplingSettings)
    (extraction : ExtractionSettings) (start : Accumulator) (state : σ) :
    (Course.ofStore store sampling extraction start state).Answered store fun n =>
      (trail store sampling state n).1 := by
  intro n
  have hsampled : (Course.ofStore store sampling extraction start state).sampled n =
      (trail store sampling state n).2 := by
    induction n with
    | zero => rfl
    | succ n ih =>
      rw [Course.sampled_succ, ih]
      rfl
  rw [Course.request, hsampled]
  exact ⟨rfl, rfl⟩

/-- For all answers there is a store that gives them. -/
theorem Course.answered_scripted (c : Course) (total : Nat) :
    c.Answered (Store.scripted total c.answers) id := by
  refine fun n => ⟨?_, rfl⟩
  change (Draw.mk ((c.answers n).map .list) false).documents = c.answers n
  cases c.answers n with
  | error fault => rfl
  | ok documents => rfl

/-! ## The loop -/

/-- A progress is the one after the first batches of a course. -/
structure Course.At (c : Course) (n : Nat) (p : Progress σ) : Prop where
  accumulator_eq : p.accumulator = c.accumulator n
  batches_eq : p.batches = n
  sampled_eq : p.sampled = c.sampled n
  stable_eq : p.stable = c.stable n

/-- The batches of a run end as a course says: the run has gone on until then, and either there is a
reason to end, or the next request fails, or the next batch cannot be told of. -/
inductive Course.Ends (c : Course) (share : Amount) : Ending σ → Prop
  | stops {n : Nat} {reason : StopReason} {p : Progress σ} (before : ∀ i < n, c.GoesOn share i)
      (reason_eq : c.ends? share n = some reason) (at_end : c.At n p) : Ends c share (.ok reason, p)
  | fails {n : Nat} {fault : SourceFault} {p : Progress σ} (before : ∀ i < n, c.GoesOn share i)
      (none_eq : c.ends? share n = none) (fault_eq : c.answers n = .error fault) :
      Ends c share (.error (.drawFailed (n + 1) (c.request n) fault), p)
  | breaksOff {n : Nat} {documents : List Raw} {p : Progress σ} (before : ∀ i < n, c.GoesOn share i)
      (none_eq : c.ends? share n = none) (documents_eq : c.answers n = .ok documents)
      (long : Number.isWritable c.sampling.stableBatches = false) : Ends c share (.error .untold, p)

/-- A run with a plan goes by a course, and its store goes through some states. -/
structure Course.Drives (c : Course) (plan : Plan σ) (states : Nat → σ) : Prop where
  sampling_eq : plan.sampling = c.sampling
  extraction_eq : plan.extraction = c.extraction
  answered : c.Answered plan.store states
  nodup : c.start.seenPaths.Nodup

section Loop

variable {plan : Plan σ} {c : Course} {share : Amount} {states : Nat → σ} {n : Nat} {p : Progress σ}

theorem Course.Drives.size_eq (d : c.Drives plan states) (h : c.At n p) : p.size plan = c.request n := by
  rw [Progress.size, h.batches_eq, h.sampled_eq, d.sampling_eq, request]

theorem Course.Drives.batch_fetch (d : c.Drives plan states) (h : c.At n p) (hstore : p.store = states n) :
    (p.fetch plan).batch = (c.answers n).mapError (.drawFailed (n + 1) (c.request n)) := by
  rw [Progress.fetch, d.size_eq h, h.batches_eq, hstore, ← (d.answered n).1]
  rfl

theorem Course.Drives.store_fetch (d : c.Drives plan states) (h : c.At n p) (hstore : p.store = states n) :
    (p.fetch plan).store = states (n + 1) := by
  rw [Progress.fetch, d.size_eq h, hstore, ← (d.answered n).2]
  rfl

/-- Merging the next batch leads to the progress after it. -/
theorem Course.Drives.at_settled (d : c.Drives plan states) (h : c.At n p) {batch : List Raw}
    (hbatch : c.answers n = .ok batch) :
    c.At (n + 1) (settled plan p batch.length
      (ingestAll plan.extraction (p.batches + 1) 0 batch p.accumulator)) := by
  have hnext : c.batch n = batch := by rw [Course.batch, hbatch]; rfl
  have haccumulator : (ingestAll plan.extraction (p.batches + 1) 0 batch p.accumulator).1 =
      c.accumulator (n + 1) := by
    rw [ingestAll_fst, c.accumulator_succ, hnext, h.accumulator_eq, d.extraction_eq]
  refine ⟨haccumulator, ?_, ?_, ?_⟩
  · change p.batches + 1 = n + 1
    rw [h.batches_eq]
  · change p.sampled + batch.length = c.sampled (n + 1)
    rw [c.sampled_succ, hnext, h.sampled_eq]
  · change stableAfter plan.sampling p.stable _ = c.stable (n + 1)
    rw [haccumulator, h.accumulator_eq, ← Course.newPaths_eq d.nodup, h.stable_eq, d.sampling_eq,
      c.stable_succ, stableAfter, isStable]
    simp only [decide_eq_true_eq]

theorem Course.Drives.verdict?_eq (d : c.Drives plan states) (h : c.At (n + 1) p) (share : Amount) :
    verdict? plan.sampling share p.stable p.sampled =
      if Number.isWritable c.sampling.stableBatches then (c.stops? share (n + 1)).map .ok
      else some (.error .untold) := by
  rw [verdict?, c.stops?_succ, d.sampling_eq, h.stable_eq, h.sampled_eq]

/-- A loop that fetches in turn and has come some way on a course ends as the course says. The induction
is on what is left of the budget, of which each turn that is followed by another takes some. -/
theorem Course.Drives.sequential_ends (d : c.Drives plan states) (hcancels : plan.store.NeverCancels)
    (hpos : 0 < c.sampling.initialBatchSize ∧ 0 < c.sampling.batchSize ∧ 0 < c.sampling.maxSamples)
    (hat : c.At n p) (hstore : p.store = states n) (hp : p.cancelled = false)
    (hbefore : ∀ i < n, c.GoesOn share i) (hstop : c.stops? share n = none) :
    c.Ends share (sequential plan { share } p) := by
  induction hbudget : plan.sampling.maxSamples - p.sampled using Nat.strongRecOn generalizing n p with
  | _ budget ih =>
    have hsize : p.size plan ≠ 0 := by
      rw [d.size_eq hat]
      exact Nat.ne_of_gt (c.request_pos hpos hstop)
    rw [sequential_eq_turn hcancels hp, turn, if_neg hsize, d.batch_fetch hat hstore]
    have hdrawn : c.At n (p.fetched (p.size plan) (p.fetch plan)) :=
      ⟨hat.accumulator_eq, hat.batches_eq, hat.sampled_eq, hat.stable_eq⟩
    cases hanswer : c.answers n with
    | error fault => exact .fails hbefore (Course.ends?_of_error hstop hanswer) hanswer
    | ok batch =>
      cases batch with
      | nil => exact .stops hbefore (Course.ends?_of_empty hstop hanswer) hdrawn
      | cons r rs =>
        have hnone : c.ends? share n = none := Course.ends?_of_batch hstop hanswer
        have hsettled := d.at_settled hdrawn hanswer
        change c.Ends share (judged plan share id (sequential plan { share })
          (settled plan (p.fetched (p.size plan) (p.fetch plan)) (r :: rs).length _))
        rw [judged, d.verdict?_eq hsettled]
        cases htold : Number.isWritable c.sampling.stableBatches with
        | false => exact .breaksOff hbefore hnone hanswer htold
        | true =>
          have hgoes : ∀ i < n + 1, c.GoesOn share i := by
            intro i hi
            rcases Nat.lt_succ_iff_lt_or_eq.1 hi with hlt | rfl
            · exact hbefore i hlt
            · exact ⟨hnone, ⟨_, hanswer⟩, htold⟩
          cases hreason : c.stops? share (n + 1) with
          | some reason => exact .stops hgoes (Course.ends?_of_stops hreason) hsettled
          | none =>
            have hless := budget_lt hsize rs.length
            rw [hbudget] at hless
            exact ih _ hless hsettled (d.store_fetch hat hstore) (cancelled_fetched hcancels hp) hgoes
              hreason rfl

/-- What a run leaves whose batches end as a course says. -/
theorem Course.Ends.follows {e : Ending σ} (h : c.Ends share e) (total : Nat) :
    ∃ n, c.Follows share total n (conclude total e).result := by
  cases h with
  | @stops n reason p before reason_eq at_end =>
    refine ⟨n, ?_⟩
    have hcompleted : (conclude total (.ok reason, p)).result = .ok (c.completed total n reason) := by
      simp only [conclude, complete, metricsOf, endWarnings, completed, at_end.accumulator_eq,
        at_end.batches_eq, at_end.sampled_eq, at_end.stable_eq, c.collection_accumulator]
      rfl
    rw [hcompleted]
    exact .stops before reason_eq
  | @fails n fault p before none_eq fault_eq => exact ⟨n, .fails before none_eq fault_eq⟩
  | @breaksOff n documents p before none_eq documents_eq long =>
    exact ⟨n, .breaksOff before none_eq documents_eq long⟩

end Loop

/-! ## The run -/

/-- The course of a run over a collection. -/
def Plan.course (plan : Plan σ) (collection typeName : String)
    (answers : Nat → Except SourceFault (List Raw)) : Course where
  sampling := plan.sampling
  extraction := plan.extraction
  start := .fresh collection typeName
  answers

/-- An adaptive run that fetches in turn, on a store with some documents and without anything that
interrupts it, follows the course of the answers, unless the share to sample is of a number too large. -/
theorem run_follows_course {plan : Plan σ} (schedule : Schedule) {collection typeName : String} {store : σ}
    {base : SamplingSettings} {fields : Settings.Fields} {total : Nat}
    {answers : Nat → Except SourceFault (List Raw)} {states : Nat → σ}
    (haccepted : SamplingSettings.overriding base fields = .ok plan.sampling)
    (hadaptive : plan.sampling.isAdaptive = true) (hprefetch : plan.sampling.prefetches = false)
    (htimeout : plan.sampling.timeout? = none) (hcancels : plan.store.NeverCancels)
    (hcount : countOf (plan.store.count store).1 = .ok total) (hpos : 0 < total)
    (hanswered : (plan.course collection typeName answers).Answered plan.store states)
    (hstart : states 0 = (plan.store.count store).2) :
    match fractionLimit? plan.sampling.maxFraction total with
    | some share => ∃ n, (plan.course collection typeName answers).Follows share total n
        (run plan schedule collection typeName false store).result
    | none => (run plan schedule collection typeName false store).result = .error .outOfRange := by
  rw [run_eq_adaptiveRun hadaptive htimeout hcount hpos]
  cases hlimit : fractionLimit? plan.sampling.maxFraction total with
  | none =>
    rw [adaptiveRun_of_none hlimit]
    rfl
  | some share =>
    rw [adaptiveRun_of_some hlimit, hprefetch]
    have d : (plan.course collection typeName answers).Drives plan states :=
      ⟨rfl, rfl, hanswered, List.nodup_nil⟩
    have hends : (plan.course collection typeName answers).Ends share
        (sequential plan { share } (.started plan collection typeName store total)) :=
      d.sequential_ends hcancels (SamplingSettings.sizes_pos haccepted) ⟨rfl, rfl, rfl, rfl⟩ hstart.symm
        rfl (fun i hi => absurd hi (Nat.not_lt_zero i)) rfl
    exact hends.follows total

/-- Of a hundred documents no more are drawn than a first batch, after which the store has no more. -/
theorem run_follows_course_scripted :
    let plan := Plan.scripted {} 100 fun i =>
      .ok (if i = 0 then [.ofFields [("a", .int 1)], .null] else [])
    let course := plan.course "items" "Item" fun i =>
      .ok (if i = 0 then [.ofFields [("a", .int 1)], .null] else [])
    let share := .float (.finite false 5629499534213120 (-46))
    SamplingSettings.overriding {} [] = .ok plan.sampling ∧
      fractionLimit? plan.sampling.maxFraction 100 = some share ∧ course.ends? share 1 = some .exhausted ∧
      ∃ n, course.Follows share 100 n (run plan {} "items" "Item" false 0).result := by
  intro plan course share
  have hlimit : fractionLimit? plan.sampling.maxFraction 100 = some share := by decide +kernel
  have hcount : countOf (plan.store.count 0).1 = .ok 100 := countOf_int (by decide +kernel)
  have hfollows := @run_follows_course Nat plan {} "items" "Item" 0 {} [] 100 course.answers id
    SamplingSettings.overriding_self rfl rfl rfl (Store.neverCancels_scripted 100 course.answers) hcount
    (by decide) (Course.answered_scripted course 100) rfl
  rw [hlimit] at hfollows
  exact ⟨SamplingSettings.overriding_self, hlimit, by decide +kernel, hfollows⟩

/-- The share to sample is computed as a floating-point number by default, and no such number is near
the count of a store that claims to hold very many documents: the run fails, although the store
has no document to give, and the course ends before the first batch. -/
theorem run_outOfRange_of_huge :
    let plan := Plan.scripted {} (10 ^ 400) fun _ => .ok []
    (∀ share, (plan.course "items" "Item" fun _ => .ok []).ends? share 0 = some .exhausted) ∧
      (run plan {} "items" "Item" false 0).result = .error .outOfRange := by
  intro plan
  have hcount : countOf (plan.store.count 0).1 = .ok (10 ^ 400) := countOf_int (by decide +kernel)
  have hlimit : fractionLimit? plan.sampling.maxFraction (10 ^ 400) = none := by decide +kernel
  refine ⟨fun share => rfl, ?_⟩
  rw [run_eq_adaptiveRun rfl rfl hcount (by decide +kernel), adaptiveRun_of_none hlimit, Outcome.failed]

end Sampling

end DocSchema
