import DocSchema.Proofs.Merge.Replay
import DocSchema.Sampling.Run

/-!
# The course of an adaptive run

What an adaptive run has come to after some answers of its store, and where it ends, said without a
loop. All of it is a matter of the answers: the state after some batches is what their documents make
of the state at the start, one after the other; a batch is stable when it brings few paths that were not
seen before it; and the run ends at the first number of batches at which one of four things holds. It breaks off at
its first batch if it is to wait for a number of stable batches that has too many digits to be told.

- `digest`, `ingestAll_fst`: merging a batch is merging its documents in order.
- `Course`: the settings, the start and the answers that a run goes by.
- `Course.newPaths_eq`: the new paths of a batch can be counted before and after it.
- `Course.ends?`, `Course.Follows`: where a run ends, and what it leaves there.
- `Course.Follows.unique`: the answers determine the end.
-/

namespace DocSchema.Sampling

/-! ## Documents in order -/

section Digest

variable (s : ExtractionSettings)

/-- Merges a raw document into a state, or skips it. -/
def digest (a : Accumulator) (r : Raw) : Accumulator :=
  match readDocument s r with
  | .error _ => skip a
  | .ok e =>
    match (Schema.mergeDocument s.detects e a).fault? with
    | none => (Schema.mergeDocument s.detects e a).state
    | some _ => skip (Schema.mergeDocument s.detects e a).state

theorem ingest_fst (batch index : Nat) (r : Raw) (a : Accumulator) :
    (ingest s batch index r a).1 = digest s a r := by
  cases hread : readDocument s r with
  | error f => simp only [ingest, digest, hread]
  | ok e =>
    simp only [ingest, digest, hread]
    cases (Schema.mergeDocument s.detects e a).fault? with
    | none => rfl
    | some f => rfl

/-- Merging a batch is merging its documents one after the other. -/
theorem ingestAll_fst (batch index : Nat) (rs : List Raw) (a : Accumulator) :
    (ingestAll s batch index rs a).1 = rs.foldl (digest s) a := by
  induction rs generalizing index a with
  | nil => rfl
  | cons r rs ih => rw [ingestAll, List.foldl_cons, ih, ingest_fst]

/-- A document leaves the collection as it is, loses no path, and records no path twice. -/
theorem digest_keeps (a : Accumulator) (r : Raw) :
    (digest s a r).collection = a.collection ∧ a.seenPaths ⊆ (digest s a r).seenPaths ∧
      (a.seenPaths.Nodup → (digest s a r).seenPaths.Nodup) := by
  have hmerge (e : Extracted) : (Schema.mergeDocument s.detects e a).state.collection = a.collection ∧
      a.seenPaths ⊆ (Schema.mergeDocument s.detects e a).state.seenPaths ∧
      (a.seenPaths.Nodup → (Schema.mergeDocument s.detects e a).state.seenPaths.Nodup) := by
    obtain ⟨events, run, -⟩ := @Schema.mergeDocument_traced s.detects a.root.name e a rfl
    exact ⟨run.collection, Schema.Later.seenPaths_subset ⟨events, run⟩, run.nodup_seenPaths⟩
  rw [digest]
  split
  · exact ⟨rfl, fun _ h => h, id⟩
  · rename_i e _
    split
    · exact hmerge e
    · exact hmerge e

theorem foldl_digest_keeps (rs : List Raw) (a : Accumulator) :
    (rs.foldl (digest s) a).collection = a.collection ∧ a.seenPaths ⊆ (rs.foldl (digest s) a).seenPaths ∧
      (a.seenPaths.Nodup → (rs.foldl (digest s) a).seenPaths.Nodup) := by
  induction rs generalizing a with
  | nil => exact ⟨rfl, fun _ h => h, id⟩
  | cons r rs ih =>
    obtain ⟨hcollection, hsub, hnodup⟩ := digest_keeps s a r
    obtain ⟨hcollection', hsub', hnodup'⟩ := ih (digest s a r)
    exact ⟨hcollection'.trans hcollection, fun _ h => hsub' (hsub h), fun h => hnodup' (hnodup h)⟩

end Digest

/-- Of two lists without repetition the elements that only the longer one has are as many as it is
longer. -/
theorem length_filter_not_mem {α : Type} [DecidableEq α] {xs ys : List α} (hx : xs.Nodup) (hy : ys.Nodup)
    (hsub : xs ⊆ ys) : (ys.filter fun y => decide (y ∉ xs)).length = ys.length - xs.length := by
  have hperm : (ys.filter fun y => decide (y ∈ xs)).Perm xs := by
    refine (List.perm_ext_iff_of_nodup (hy.filter _) hx).2 fun y => ?_
    rw [List.mem_filter, decide_eq_true_eq]
    exact ⟨And.right, fun h => ⟨hsub h, h⟩⟩
  have hsplit := @List.length_eq_countP_add_countP α (fun y => decide (y ∈ xs)) ys
  have hlength := hperm.length_eq
  simp only [List.countP_eq_length_filter, decide_eq_true_eq] at hsplit
  omega

/-! ## The course -/

/-- What an adaptive run goes by: its settings, the state at the start, and the answers of the store to
its requests, of which each is the documents of a batch or a failure. -/
structure Course where
  sampling : SamplingSettings
  extraction : ExtractionSettings
  start : Accumulator
  answers : Nat → Except SourceFault (List Raw)

namespace Course

variable (c : Course)

/-- The documents of a batch; of an answer that failed there are none. -/
def batch (i : Nat) : List Raw :=
  (c.answers i).toOption.getD []

/-- The documents of the first batches, in order. -/
def documents (n : Nat) : List Raw :=
  (List.range n).flatMap c.batch

/-- The number of documents of the first batches. -/
def sampled (n : Nat) : Nat :=
  (c.documents n).length

/-- The state after the first batches: their documents merged in order. -/
def accumulator (n : Nat) : Accumulator :=
  (c.documents n).foldl (digest c.extraction) c.start

/-- The number of paths that are seen first in a batch. -/
def newPaths (i : Nat) : Nat :=
  ((c.accumulator (i + 1)).seenPaths.filter fun p => decide (p ∉ (c.accumulator i).seenPaths)).length

/-- Whether a batch brings few new paths. -/
def isStable (i : Nat) : Bool :=
  decide (c.newPaths i < c.sampling.newPathThreshold)

/-- The length of the longest block of stable batches with which the first batches end. -/
def stable (n : Nat) : Nat :=
  ((List.range n).reverse.takeWhile c.isStable).length

/-- The number of documents that are asked for after the first batches. -/
def request (n : Nat) : Nat :=
  nextSize c.sampling n (c.sampled n)

/-- Why a run has had enough after some batches, if it has: of the reasons that apply the first. -/
def stops? (share : Amount) (n : Nat) : Option StopReason :=
  if n = 0 then none
  else if c.sampling.stableBatches ≤ c.stable n then some .converged
  else if c.sampling.maxSamples ≤ c.sampled n then some .maxSamplesReached
  else if reaches share (c.sampled n) then some .fractionSampledReached
  else none

/-- Why a run ends after some batches, if it does: it has had enough, or the next batch is empty. -/
def ends? (share : Amount) (n : Nat) : Option StopReason :=
  match c.stops? share n, c.answers n with
  | some reason, _ => some reason
  | none, .ok [] => some .exhausted
  | none, _ => none

/-- A run goes on after some batches: it does not end, and the next batch comes and can be told of. -/
def GoesOn (share : Amount) (n : Nat) : Prop :=
  c.ends? share n = none ∧ (∃ documents, c.answers n = .ok documents) ∧
    Number.isWritable c.sampling.stableBatches = true

/-- What a run leaves that ends after some batches for a reason. -/
def completed (total n : Nat) (reason : StopReason) : Completed where
  metrics :=
    { collection := c.start.collection
      totalCount := total
      batchCount := n
      totalSampled := c.sampled n
      documentsSkipped := (c.accumulator n).documentsSkipped
      uniqueFieldPaths := (c.accumulator n).uniquePathCount
      stopReason? := some reason
      converged := decide (reason = .converged)
      stableBatches := c.stable n }
  accumulator := c.accumulator n
  warnings := if reason = .converged then [] else [.unstable reason (c.sampled n)]

/-- A result is the one of a run that ends after some batches: it has gone on until then, and either
there is a reason to end, or the next request fails, or the next batch cannot be told of. -/
inductive Follows (share : Amount) (total : Nat) : Nat → Except RunError Completed → Prop
  | stops {n : Nat} {reason : StopReason} (before : ∀ i < n, c.GoesOn share i)
      (reason_eq : c.ends? share n = some reason) :
      Follows share total n (.ok (c.completed total n reason))
  | fails {n : Nat} {fault : SourceFault} (before : ∀ i < n, c.GoesOn share i)
      (none_eq : c.ends? share n = none) (fault_eq : c.answers n = .error fault) :
      Follows share total n (.error (.drawFailed (n + 1) (c.request n) fault))
  | breaksOff {n : Nat} {documents : List Raw} (before : ∀ i < n, c.GoesOn share i)
      (none_eq : c.ends? share n = none) (documents_eq : c.answers n = .ok documents)
      (long : Number.isWritable c.sampling.stableBatches = false) : Follows share total n (.error .untold)

variable {c} {share : Amount} {total n : Nat}

theorem Follows.before {r : Except RunError Completed} (h : c.Follows share total n r) :
    ∀ i < n, c.GoesOn share i := by
  cases h with
  | stops before _ => exact before
  | fails before _ _ => exact before
  | breaksOff before _ _ _ => exact before

theorem Follows.not_goesOn {r : Except RunError Completed} (h : c.Follows share total n r) :
    ¬ c.GoesOn share n := by
  rintro ⟨hnone, ⟨documents, hok⟩, htold⟩
  cases h with
  | stops _ heq => rw [hnone] at heq; cases heq
  | fails _ _ hfault => rw [hok] at hfault; cases hfault
  | breaksOff _ _ _ hlong => rw [htold] at hlong; cases hlong

/-- The answers determine where a run ends and with which result. -/
theorem Follows.unique {m : Nat} {r r' : Except RunError Completed} (h : c.Follows share total n r)
    (h' : c.Follows share total m r') : n = m ∧ r = r' := by
  obtain rfl : n = m := by
    rcases Nat.lt_trichotomy n m with hlt | heq | hlt
    · exact absurd (h'.before n hlt) h.not_goesOn
    · exact heq
    · exact absurd (h.before m hlt) h'.not_goesOn
  refine ⟨rfl, ?_⟩
  cases h with
  | stops _ heq =>
    cases h' with
    | stops _ heq' =>
      rw [heq, Option.some.injEq] at heq'
      rw [heq']
    | fails _ hnone _ => rw [heq] at hnone; cases hnone
    | breaksOff _ hnone _ _ => rw [heq] at hnone; cases hnone
  | fails _ hnone hfault =>
    cases h' with
    | stops _ heq => rw [hnone] at heq; cases heq
    | fails _ _ hfault' =>
      rw [hfault, Except.error.injEq] at hfault'
      rw [hfault']
    | breaksOff _ _ hok _ => rw [hfault] at hok; cases hok
  | breaksOff _ hnone hok _ =>
    cases h' with
    | stops _ heq => rw [hnone] at heq; cases heq
    | fails _ _ hfault => rw [hok] at hfault; cases hfault
    | breaksOff _ _ _ _ => rfl

/-! ## One more batch -/

theorem documents_succ (n : Nat) : c.documents (n + 1) = c.documents n ++ c.batch n := by
  rw [documents, List.range_succ, List.flatMap_append, List.flatMap_singleton, documents]

theorem sampled_succ (n : Nat) : c.sampled (n + 1) = c.sampled n + (c.batch n).length := by
  rw [sampled, documents_succ, List.length_append, sampled]

theorem accumulator_succ (n : Nat) :
    c.accumulator (n + 1) = (c.batch n).foldl (digest c.extraction) (c.accumulator n) := by
  rw [accumulator, documents_succ, List.foldl_append, accumulator]

theorem stable_succ (n : Nat) : c.stable (n + 1) = if c.isStable n then c.stable n + 1 else 0 := by
  rw [stable, List.range_succ, List.reverse_append, List.reverse_singleton, List.singleton_append,
    List.takeWhile_cons]
  split
  · rfl
  · rfl

theorem collection_accumulator (n : Nat) : (c.accumulator n).collection = c.start.collection :=
  (foldl_digest_keeps _ _ _).1

/-- The new paths of a batch are as many as there are more after it. -/
theorem newPaths_eq (hstart : c.start.seenPaths.Nodup) (i : Nat) :
    c.newPaths i = (c.accumulator (i + 1)).uniquePathCount - (c.accumulator i).uniquePathCount := by
  have hnodup (n : Nat) : (c.accumulator n).seenPaths.Nodup := (foldl_digest_keeps _ _ _).2.2 hstart
  have hsub : (c.accumulator i).seenPaths ⊆ (c.accumulator (i + 1)).seenPaths := by
    rw [accumulator_succ]
    exact (foldl_digest_keeps _ _ _).2.1
  exact length_filter_not_mem (hnodup i) (hnodup (i + 1)) hsub

/-- A run that has begun stops by the test that follows each batch. -/
theorem stops?_succ (share : Amount) (n : Nat) : c.stops? share (n + 1) =
    stopReason? c.sampling share (c.stable (n + 1)) (c.sampled (n + 1)) := by
  rw [stops?, if_neg (Nat.succ_ne_zero n), stopReason?]

theorem ends?_of_stops {reason : StopReason} (h : c.stops? share n = some reason) :
    c.ends? share n = some reason := by
  rw [ends?, h]

theorem ends?_of_empty (h : c.stops? share n = none) (hempty : c.answers n = .ok []) :
    c.ends? share n = some .exhausted := by
  rw [ends?, h, hempty]

theorem ends?_of_error {fault : SourceFault} (h : c.stops? share n = none)
    (hfault : c.answers n = .error fault) : c.ends? share n = none := by
  rw [ends?, h, hfault]

theorem ends?_of_batch {r : Raw} {rs : List Raw} (h : c.stops? share n = none)
    (hok : c.answers n = .ok (r :: rs)) : c.ends? share n = none := by
  rw [ends?, h, hok]

/-- A run that has begun and has not had enough has some of its budget left. -/
theorem sampled_lt_of_stops (hpos : 0 < c.sampling.maxSamples) (h : c.stops? share n = none) :
    c.sampled n < c.sampling.maxSamples := by
  cases n with
  | zero => exact hpos
  | succ n =>
    refine Nat.lt_of_not_le fun hle => ?_
    have hsome := @stopReason?_isSome_of_budget c.sampling share (c.stable (n + 1)) (c.sampled (n + 1)) hle
    rw [← stops?_succ, h] at hsome
    cases hsome

/-- A run that has not had enough asks for some documents. -/
theorem request_pos (hpos : 0 < c.sampling.initialBatchSize ∧ 0 < c.sampling.batchSize ∧
    0 < c.sampling.maxSamples) (h : c.stops? share n = none) : 0 < c.request n := by
  have hleft := c.sampled_lt_of_stops hpos.2.2 h
  rw [request, nextSize]
  split
  · omega
  · omega

end Course

end DocSchema.Sampling
