import DocSchema.Proofs.Merge.Counters
import DocSchema.Proofs.Sampling.Drawing
import DocSchema.Proofs.Sampling.Round
import DocSchema.Proofs.Sampling.Skipping
import Mathlib.Algebra.GroupWithZero.Nat
import Mathlib.Data.Finset.Card

/-!
# Accounts of a run

What a run has received is made up of what it has merged and what it has skipped, whatever the documents
are and wherever one of them fails. A document is counted once, when it is merged or when it is skipped,
and a skipped one brings no path, not even if its merge had begun. So the paths are those of the merged
documents, and what the batches bring adds up to them.

- `merged?`, `mergedFrom`: what is merged of documents.
- `merged_foldl_digest`, `counted_foldl_digest`, `mem_seenPaths_foldl_digest`: documents one after the other.
- `newPathsOf`: how many paths each batch brings.
- `handedOut`: what a store answers to requests.
- `Accounted`: a run has merged what it was handed out.
- `run_accounts`: what the accounts of a run add up to.
-/

namespace DocSchema

/-- The number of paths that a notice tells a batch to have brought. -/
def Notice.newPaths? : Notice → Option Nat
  | .batchMerged _ _ newPaths _ _ => some newPaths
  | _ => none

namespace Sampling

open Schema (mergeDocument)

/-! ## One document -/

section Documents

variable (s : ExtractionSettings)

/-- What is merged of a raw document into a state, if it is not skipped. -/
def merged? (a : Accumulator) (r : Raw) : Option Extracted :=
  match readDocument s r with
  | .error _ => none
  | .ok e =>
    match (mergeDocument s.detects e a).fault? with
    | none => some e
    | some _ => none

/-- What is merged of raw documents, one after the other. -/
def mergedFrom : Accumulator → List Raw → List Extracted
  | _, [] => []
  | a, r :: rs => (merged? s a r).toList ++ mergedFrom (digest s a r) rs

/-- The numbers of paths that batches bring, one after the other. -/
def newPathsOf : Accumulator → List (List Raw) → List Nat
  | _, [] => []
  | a, batch :: batches =>
    let b := batch.foldl (digest s) a
    (b.uniquePathCount - a.uniquePathCount) :: newPathsOf b batches

variable {s} {r : Raw} {a : Accumulator}

/-- A document is merged or it is skipped. -/
theorem merged?_eq_none_iff {batch index : Nat} : merged? s a r = none ↔ Skips s batch index r a := by
  rw [skips_iff, merged?]
  cases readDocument s r with
  | error f => simp
  | ok e => cases hf : (mergeDocument s.detects e a).fault? <;> simp [hf]

/-- What is done with a document: it is merged as a whole, or skipped after its merge has stopped, or
skipped at once. -/
theorem digest_cases (s : ExtractionSettings) (a : Accumulator) (r : Raw) :
    (∃ e, readDocument s r = .ok e ∧ merged? s a r = some e ∧ (mergeDocument s.detects e a).fault? = none ∧
      digest s a r = (mergeDocument s.detects e a).state) ∨
    (∃ e f, readDocument s r = .ok e ∧ merged? s a r = none ∧
      (mergeDocument s.detects e a).fault? = some f ∧
      digest s a r = skip (mergeDocument s.detects e a).state) ∨
    merged? s a r = none ∧ digest s a r = skip a := by
  rw [merged?, digest]
  cases readDocument s r with
  | error f => exact .inr (.inr ⟨rfl, rfl⟩)
  | ok e =>
    dsimp only
    cases hf : (mergeDocument s.detects e a).fault? with
    | none => exact .inl ⟨e, rfl, rfl, hf, rfl⟩
    | some f => exact .inr (.inl ⟨e, f, rfl, rfl, hf, rfl⟩)

theorem merged_digest (s : ExtractionSettings) (a : Accumulator) (r : Raw) :
    (digest s a r).documentsMerged = a.documentsMerged + (merged? s a r).toList.length := by
  obtain ⟨e, -, hmerged, hf, hdigest⟩ | ⟨e, f, -, hmerged, hf, hdigest⟩ | ⟨hmerged, hdigest⟩ :=
    digest_cases s a r
  · rw [hdigest, hmerged, Schema.merged_mergeDocument, hf]
    rfl
  · have hstate := @Schema.merged_mergeDocument s.detects e a
    rw [hf] at hstate
    rw [hdigest, hmerged]
    exact hstate
  · rw [hdigest, hmerged]
    rfl

/-- A document is counted once. -/
theorem counted_digest (s : ExtractionSettings) (a : Accumulator) (r : Raw) :
    (digest s a r).documentsMerged + (digest s a r).documentsSkipped =
      a.documentsMerged + a.documentsSkipped + 1 := by
  have hmerges := merged_digest s a r
  have hstate (e : Extracted) := @Schema.documentsSkipped_mergeDocument s.detects e a
  obtain ⟨e, -, hmerged, -, hdigest⟩ | ⟨e, f, -, hmerged, -, hdigest⟩ | ⟨hmerged, hdigest⟩ :=
    digest_cases s a r
  · have hskipped : (digest s a r).documentsSkipped = a.documentsSkipped := by rw [hdigest, hstate e]
    rw [hmerges, hskipped, hmerged, Option.toList_some, List.length_singleton]
    omega
  · have hskipped : (digest s a r).documentsSkipped = a.documentsSkipped + 1 := by
      rw [hdigest, documentsSkipped_skip, hstate e]
    rw [hmerges, hskipped, hmerged]
    rfl
  · have hskipped : (digest s a r).documentsSkipped = a.documentsSkipped + 1 := by
      rw [hdigest, documentsSkipped_skip]
    rw [hmerges, hskipped, hmerged]
    rfl

/-- A document that is skipped brings no path, even if its merge had begun. -/
theorem mem_seenPaths_digest (s : ExtractionSettings) (a : Accumulator) (r : Raw) {path : String} :
    path ∈ (digest s a r).seenPaths ↔
      path ∈ a.seenPaths ∨ path ∈ (merged? s a r).toList.flatMap Extracted.paths := by
  obtain ⟨e, -, hmerged, hf, hdigest⟩ | ⟨e, f, -, hmerged, hf, hdigest⟩ | ⟨hmerged, hdigest⟩ :=
    digest_cases s a r
  · rw [hdigest, hmerged, Schema.mem_seenPaths_mergeDocument, hf]
    simp
  · have hstate := @Schema.mem_seenPaths_mergeDocument s.detects e a path
    rw [hf] at hstate
    rw [hdigest, hmerged]
    simpa [skip] using hstate
  · rw [hdigest, hmerged]
    simp [skip]

/-- A document without nodes built beforehand is observed when it is merged, and not when it is skipped. -/
theorem observations_digest (hplain : r.IsPlain) (hdistinct : r.hasDistinctKeys = true) :
    (digest s a r).root.observations = a.root.observations + (merged? s a r).toList.length := by
  obtain ⟨e, -, hmerged, -, hdigest⟩ | ⟨e, f, hread, -, hf, -⟩ | ⟨hmerged, hdigest⟩ := digest_cases s a r
  · rw [hdigest, hmerged, Schema.observations_mergeDocument]
    rfl
  · have hnone := fault?_of_readDocument (Value.isProper_of_ofRaw r 0 · hplain hdistinct) hread a
    cases hf.symm.trans hnone
  · rw [hdigest, hmerged]
    rfl

/-! ## Documents one after the other -/

theorem merged_foldl_digest (s : ExtractionSettings) (rs : List Raw) (a : Accumulator) :
    (rs.foldl (digest s) a).documentsMerged = a.documentsMerged + (mergedFrom s a rs).length := by
  induction rs generalizing a with
  | nil => rfl
  | cons r rs ih => rw [List.foldl_cons, ih, merged_digest, mergedFrom, List.length_append, Nat.add_assoc]

theorem counted_foldl_digest (s : ExtractionSettings) (rs : List Raw) (a : Accumulator) :
    (rs.foldl (digest s) a).documentsMerged + (rs.foldl (digest s) a).documentsSkipped =
      a.documentsMerged + a.documentsSkipped + rs.length := by
  induction rs generalizing a with
  | nil => rfl
  | cons r rs ih => rw [List.foldl_cons, ih, counted_digest, List.length_cons, Nat.add_assoc, Nat.add_comm 1]

theorem mem_seenPaths_foldl_digest (s : ExtractionSettings) (rs : List Raw) (a : Accumulator) {path : String} :
    path ∈ (rs.foldl (digest s) a).seenPaths ↔
      path ∈ a.seenPaths ∨ path ∈ (mergedFrom s a rs).flatMap Extracted.paths := by
  induction rs generalizing a with
  | nil => simp [mergedFrom]
  | cons r rs ih =>
    rw [List.foldl_cons, ih, mem_seenPaths_digest, mergedFrom, List.flatMap_append, List.mem_append, or_assoc]

theorem observations_foldl_digest {rs : List Raw}
    (hplain : ∀ r ∈ rs, r.IsPlain ∧ r.hasDistinctKeys = true) (a : Accumulator) :
    (rs.foldl (digest s) a).root.observations = a.root.observations + (mergedFrom s a rs).length := by
  induction rs generalizing a with
  | nil => rfl
  | cons r rs ih =>
    obtain ⟨hr, hdistinct⟩ := hplain r List.mem_cons_self
    rw [List.foldl_cons, ih fun r hr => hplain r (List.mem_cons_of_mem _ hr), observations_digest hr hdistinct,
      mergedFrom, List.length_append, Nat.add_assoc]

/-- From a state without paths documents come to the paths of those that are merged. -/
theorem uniquePathCount_foldl_digest (rs : List Raw) (ha : a.seenPaths = []) :
    (rs.foldl (digest s) a).uniquePathCount =
      ((mergedFrom s a rs).flatMap Extracted.paths).toFinset.card := by
  have hnodup : (rs.foldl (digest s) a).seenPaths.Nodup :=
    (foldl_digest_keeps s rs a).2.2 (ha ▸ List.nodup_nil)
  rw [Accumulator.uniquePathCount, ← List.toFinset_card_of_nodup hnodup]
  congr 1
  ext path
  simp [mem_seenPaths_foldl_digest, ha]

theorem uniquePathCount_le_foldl_digest (ha : a.seenPaths.Nodup) (rs : List Raw) :
    a.uniquePathCount ≤ (rs.foldl (digest s) a).uniquePathCount :=
  (List.subperm_of_subset ha (foldl_digest_keeps s rs a).2.1).length_le

/-- What batches bring adds up to the paths that are new after all of them. -/
theorem sum_newPathsOf (ha : a.seenPaths.Nodup) (batches : List (List Raw)) :
    a.uniquePathCount + (newPathsOf s a batches).sum =
      (batches.flatten.foldl (digest s) a).uniquePathCount := by
  induction batches generalizing a with
  | nil => rfl
  | cons batch batches ih =>
    have hle := uniquePathCount_le_foldl_digest (s := s) ha batch
    rw [List.flatten_cons, List.foldl_append, ← ih ((foldl_digest_keeps s batch a).2.2 ha), newPathsOf,
      List.sum_cons]
    omega

end Documents

/-! ## Requests and answers -/

section Runs

variable {σ : Type}

/-- What a store answers to requests, one after the other, and the state that it is left in. -/
def handedOut (store : Store σ) (start : σ) : List Nat → List (Except SourceFault (List Raw)) × σ
  | [] => ([], start)
  | size :: sizes =>
    let drawn := store.draw size start
    let rest := handedOut store drawn.2 sizes
    (drawn.1.documents :: rest.1, rest.2)

theorem handedOut_concat (store : Store σ) (start : σ) (sizes : List Nat) (size : Nat) :
    handedOut store start (sizes ++ [size]) =
      let before := handedOut store start sizes
      let drawn := store.draw size before.2
      (before.1 ++ [drawn.1.documents], drawn.2) := by
  induction sizes generalizing start with
  | nil => rfl
  | cons first sizes ih =>
    rw [List.cons_append, handedOut, ih]
    rfl

/-- The documents of some batches are those that a store handed out to the requests of a run, and the run
has merged them in order and counted them. -/
structure Accounted (plan : Plan σ) (start : σ) (a : Accumulator) (batches : List (List Raw))
    (p : Progress σ) : Prop where
  handedOut : handedOut plan.store start p.requests.reverse = (batches.map .ok, p.store)
  accumulator : p.accumulator = batches.flatten.foldl (digest plan.extraction) a
  sampled : p.sampled = (batches.map List.length).sum

/-- The notices about the batches of a run tell all the paths there are. -/
def Progress.TellsPaths (p : Progress σ) : Prop :=
  (p.notices.filterMap Notice.newPaths?).sum = p.accumulator.uniquePathCount

variable {plan : Plan σ} {start : σ} {a : Accumulator} {batches : List (List Raw)} {p q : Progress σ}

/-- One more batch is fetched and merged. -/
theorem Accounted.concat (h : Accounted plan start a batches p) {number size : Nat} {batch : List Raw}
    (hbatch : (fetch plan number size p.store).batch = .ok batch)
    (hstore : q.store = (plan.store.draw size p.store).2) (hrequests : q.requests = size :: p.requests)
    (haccumulator : q.accumulator = batch.foldl (digest plan.extraction) p.accumulator)
    (hsampled : q.sampled = p.sampled + batch.length) :
    Accounted plan start a (batches ++ [batch]) q where
  handedOut := by
    rw [hrequests, List.reverse_cons, handedOut_concat, h.handedOut, hstore, List.map_append]
    exact congrArg (fun answer => (batches.map .ok ++ [answer], _)) (documents_of_fetch hbatch)
  accumulator := by
    rw [haccumulator, h.accumulator, List.flatten_append, List.flatten_singleton, List.foldl_append]
  sampled := by rw [hsampled, h.sampled, List.map_append, List.sum_append, List.map_singleton, List.sum_singleton]

theorem newPaths?_ingest (s : ExtractionSettings) (batch index : Nat) (r : Raw) (a : Accumulator) :
    (ingest s batch index r a).2.filterMap Notice.newPaths? = [] := by
  have hcuts : (cutNotices s r).filterMap Notice.newPaths? = [] := by
    rw [cutNotices]
    split
    · exact List.filterMap_eq_nil_iff.2 fun n hn => by
        obtain ⟨path, -, rfl⟩ := List.mem_map.1 hn
        rfl
    · rfl
  have hcollisions (b : Accumulator) : (collisionNotices a b).filterMap Notice.newPaths? = [] :=
    List.filterMap_eq_nil_iff.2 fun n hn => by
      obtain ⟨c, -, rfl⟩ := List.mem_map.1 hn
      rfl
  rw [ingest]
  cases readDocument s r with
  | error f =>
    rw [List.filterMap_append, hcuts]
    rfl
  | ok e =>
    dsimp only
    split
    · rw [List.filterMap_append, hcuts, hcollisions]
      rfl
    · rw [List.filterMap_append, List.filterMap_append, hcuts, hcollisions]
      rfl

/-- The documents of a batch tell no number of paths, only the batch does. -/
theorem newPaths?_ingestAll (s : ExtractionSettings) (batch index : Nat) (rs : List Raw) (a : Accumulator) :
    (ingestAll s batch index rs a).2.filterMap Notice.newPaths? = [] := by
  induction rs generalizing index a with
  | nil => rfl
  | cons r rs ih =>
    rw [ingestAll, List.filterMap_append, ih, List.append_nil]
    exact newPaths?_ingest ..

theorem Progress.TellsPaths.settled (h : p.TellsPaths) {count : Nat} {merged : Accumulator × List Notice}
    (htold : Number.isWritable plan.sampling.stableBatches = true)
    (hnotices : merged.2.filterMap Notice.newPaths? = [])
    (hle : p.accumulator.uniquePathCount ≤ merged.1.uniquePathCount) :
    (settled plan p count merged).TellsPaths := by
  have hnewPaths : (Sampling.settled plan p count merged).notices.filterMap Notice.newPaths? =
      (merged.1.uniquePathCount - p.accumulator.uniquePathCount) ::
        (merged.2.reverse ++ p.notices).filterMap Notice.newPaths? := by
    rw [Sampling.settled, batchNotices, if_pos htold]
    rfl
  rw [List.filterMap_append, List.filterMap_reverse, hnotices, List.reverse_nil, List.nil_append] at hnewPaths
  rw [Progress.TellsPaths, hnewPaths, List.sum_cons, h]
  exact Nat.sub_add_cancel hle

/-- Merging a batch keeps the accounts of a run. -/
theorem kept_accounted (ha : a.seenPaths.Nodup) :
    Kept plan fun p => (∃ batches, Accounted plan start a batches p) ∧ p.TellsPaths := by
  rintro htold p batch readings ⟨⟨batches, h⟩, htells⟩ hbatch
  have hmerged := ingestAll_fst plan.extraction (p.batches + 1) 0 batch p.accumulator
  refine ⟨⟨batches ++ [batch], h.concat hbatch rfl rfl hmerged rfl⟩, ?_⟩
  have hnodup : p.accumulator.seenPaths.Nodup :=
    h.accumulator ▸ (foldl_digest_keeps plan.extraction batches.flatten a).2.2 ha
  refine Progress.TellsPaths.settled htells htold (newPaths?_ingestAll ..) ?_
  rw [hmerged]
  exact uniquePathCount_le_foldl_digest hnodup batch

theorem Ended.accounted
    (h : Ended plan (fun p => (∃ batches, Accounted plan start a batches p) ∧ p.TellsPaths) q) :
    (∃ batches, Accounted plan start a batches q) ∧ q.TellsPaths := by
  obtain h | ⟨p, readings, ⟨⟨batches, h⟩, htells⟩, hbatch, rfl⟩ := h
  · exact h
  · exact ⟨⟨batches ++ [[]], h.concat hbatch rfl rfl rfl rfl⟩, htells⟩

theorem newPaths?_endWarnings (reason : StopReason) (p : Progress σ) :
    (endWarnings reason p).filterMap Notice.newPaths? = [] := by
  rw [endWarnings]
  split
  · rfl
  · rfl

/-- Both loops over the batches keep the accounts of a run, but for a batch that is left over in the
store. -/
theorem conclude_accounted (ha : a.seenPaths.Nodup) (h : Accounted plan start a batches p)
    (htells : p.TellsPaths) {limits : Limits} {schedule : Schedule} {reason : StopReason}
    (hend : (if plan.sampling.prefetches then overlapped plan limits schedule p
      else sequential plan limits p) = (.ok reason, q)) :
    (∃ batches store, Accounted plan start a batches { q with store }) ∧ q.TellsPaths := by
  by_cases hprefetches : plan.sampling.prefetches = true
  · rw [if_pos hprefetches] at hend
    obtain ⟨store, hended⟩ := overlapped_kept (kept_accounted ha) ⟨⟨batches, h⟩, htells⟩ hend
    obtain ⟨⟨batches, h⟩, htells⟩ := hended.accounted
    exact ⟨⟨batches, store, h⟩, htells⟩
  · rw [if_neg hprefetches] at hend
    obtain ⟨⟨batches, h⟩, htells⟩ :=
      (sequential_kept (kept_accounted ha) ⟨⟨batches, h⟩, htells⟩ hend).accounted
    exact ⟨⟨batches, q.store, h⟩, htells⟩

section Completed

variable {schedule : Schedule} {collection typeName : String} {cancelled : Bool} {store : σ}
  {outcome : Outcome σ} {c : Completed}

/-- A run that comes to its end has merged what it was handed out, whichever way it samples. -/
theorem run_accounted (hrun : run plan schedule collection typeName cancelled store = outcome)
    (hc : outcome.result = .ok c) :
    ∃ total reason warnings p, outcome = complete total reason warnings p ∧
      warnings.filterMap Notice.newPaths? = [] ∧
      (∃ batches after, Accounted plan (plan.store.count store).2 (.fresh collection typeName) batches
        { p with store := after }) ∧
      (plan.sampling.isAdaptive = true → p.TellsPaths) := by
  rw [run] at hrun
  dsimp only at hrun
  split at hrun
  · rw [← hrun] at hc
    cases hc
  split at hrun
  · rw [← hrun] at hc
    cases hc
  rename_i total _
  generalize hp : Progress.note _ [.started total] = p at hrun
  have haccounted : Accounted plan (plan.store.count store).2 (.fresh collection typeName) [] p := by
    rw [← hp]
    exact ⟨rfl, rfl, rfl⟩
  have htells : p.TellsPaths := by
    rw [← hp]
    rfl
  split at hrun
  · exact ⟨0, .emptyCollection, [], p, by subst_vars; rfl, rfl, ⟨[], p.store, haccounted⟩, fun _ => htells⟩
  split at hrun
  · rw [adaptiveRun] at hrun
    split at hrun
    · rw [← hrun] at hc
      cases hc
    rw [conclude] at hrun
    split at hrun
    · rw [← hrun] at hc
      cases hc
    rename_i reason hend
    obtain ⟨hmerged, htells⟩ := conclude_accounted List.nodup_nil haccounted htells (Prod.ext hend rfl)
    exact ⟨total, reason, _, _, hrun.symm, newPaths?_endWarnings .., hmerged, fun _ => htells⟩
  · rename_i hfixed
    rw [fixedRun] at hrun
    split at hrun
    · rw [← hrun] at hc
      cases hc
    rename_i batch hbatch
    have hmerged := haccounted.concat (q := mergeBatch plan (p.fetched _ (fetch plan 1 _ p.store)) batch) hbatch
      rfl rfl (ingestAll_fst ..) rfl
    exact ⟨total, .fixedSample, [], _, hrun.symm, rfl, ⟨[batch], _, hmerged⟩, fun h => absurd h hfixed⟩

end Completed

/-- **Accounts of a run.** A run that comes to its end has received the batches that its store handed out
to its requests, whatever they are. Each of their documents is merged or skipped, and is counted once; the
paths are those of the merged documents, and what each batch is said to bring adds up to them. (A document
in which a node was built beforehand may stop a merge that has counted it as an object already. A mapping
has each text as a key at most once.) -/
theorem run_accounts (plan : Plan σ) (schedule : Schedule) (collection typeName : String) (cancelled : Bool)
    (store : σ) {c : Completed}
    (h : (run plan schedule collection typeName cancelled store).result = .ok c) :
    let outcome := run plan schedule collection typeName cancelled store
    let start := Accumulator.fresh collection typeName
    ∃ batches : List (List Raw),
      (handedOut plan.store (plan.store.count store).2 outcome.requests).1 = batches.map .ok ∧
      c.metrics.totalSampled = (batches.map List.length).sum ∧
      c.accumulator.documentsMerged + c.accumulator.documentsSkipped = c.metrics.totalSampled ∧
      c.metrics.documentsMerged = c.accumulator.documentsMerged ∧
      c.metrics.documentsSkipped = c.accumulator.documentsSkipped ∧
      c.accumulator.documentsMerged = (mergedFrom plan.extraction start batches.flatten).length ∧
      (newPathsOf plan.extraction start batches).sum = c.metrics.uniqueFieldPaths ∧
      (plan.sampling.isAdaptive = true →
        (outcome.notices.filterMap Notice.newPaths?).sum = c.metrics.uniqueFieldPaths) ∧
      c.metrics.uniqueFieldPaths =
        ((mergedFrom plan.extraction start batches.flatten).flatMap Extracted.paths).toFinset.card ∧
      ((∀ r ∈ batches.flatten, r.IsPlain ∧ r.hasDistinctKeys = true) →
        c.accumulator.root.observations = c.accumulator.documentsMerged) := by
  intro outcome start
  obtain ⟨total, reason, warnings, p, hcomplete, hwarnings, ⟨batches, after, haccounted⟩, htells⟩ :=
    run_accounted (rfl : _ = outcome) h
  have hc : c = ⟨metricsOf p total reason, p.accumulator, warnings⟩ := by
    have hresult : outcome.result = .ok c := h
    rw [hcomplete] at hresult
    exact (Except.ok.inj hresult).symm
  subst hc
  have hfold : p.accumulator = batches.flatten.foldl (digest plan.extraction) start := haccounted.accumulator
  have hsampled : p.sampled = (batches.map List.length).sum := haccounted.sampled
  have hmerged : p.accumulator.documentsMerged = (mergedFrom plan.extraction start batches.flatten).length := by
    rw [hfold, merged_foldl_digest]
    exact Nat.zero_add _
  have hcounted : p.accumulator.documentsMerged + p.accumulator.documentsSkipped = p.sampled := by
    rw [hfold, counted_foldl_digest, List.length_flatten, hsampled]
    exact Nat.zero_add _
  have hbrought : (newPathsOf plan.extraction start batches).sum = p.accumulator.uniquePathCount := by
    rw [hfold, ← sum_newPathsOf List.nodup_nil]
    exact (Nat.zero_add _).symm
  have htold (hadaptive : plan.sampling.isAdaptive = true) :
      (outcome.notices.filterMap Notice.newPaths?).sum = p.accumulator.uniquePathCount := by
    have hnotices : outcome.notices.filterMap Notice.newPaths? =
        (p.notices.filterMap Notice.newPaths?).reverse := by
      rw [hcomplete, complete, Progress.note, List.reverse_append, List.reverse_reverse, List.filterMap_append,
        List.filterMap_append, hwarnings, List.filterMap_reverse]
      exact List.append_nil _
    rw [hnotices, List.sum_reverse]
    exact htells hadaptive
  refine ⟨batches, ?_, congrArg Nat.cast hsampled, ?_, ?_, rfl, hmerged, congrArg Nat.cast hbrought,
    fun hadaptive => congrArg Nat.cast (htold hadaptive), ?_, fun hplain => ?_⟩
  · rw [hcomplete]
    exact congrArg Prod.fst haccounted.handedOut
  · exact (Int.natCast_add _ _).symm.trans (congrArg Nat.cast hcounted)
  · have hrest : (p.sampled : Int) - p.accumulator.documentsSkipped = p.accumulator.documentsMerged := by
      omega
    exact hrest
  · refine congrArg Nat.cast ?_
    rw [hfold]
    exact uniquePathCount_foldl_digest batches.flatten rfl
  · rw [hmerged, hfold, observations_foldl_digest hplain]
    exact Nat.zero_add _

end Runs

/-- Four documents in two batches and an empty one, fetched ahead: two of them cannot be converted, and the
other two bring three paths. -/
theorem run_accounts_malformed :
    let first : List Raw :=
      [.ofFields [("a", .int 1)], .null, .ofFields [("b", .ofFields [("$numberInt", .text "x")])]]
    let second : List Raw := [.ofFields [("a", .int 2), ("b", .ofFields [("c", .null)])]]
    let plan := Plan.scripted { prefetch := .bool true, maxFraction := .whole 5 } 3 fun i =>
      .ok (if i = 0 then first else if i = 1 then second else [])
    ∃ c, (run plan {} "items" "Item" false 0).result = .ok c ∧ c.metrics.totalSampled = 4 ∧
      c.metrics.documentsMerged = 2 ∧ c.metrics.documentsSkipped = 2 ∧ c.metrics.uniqueFieldPaths = 3 ∧
      ((run plan {} "items" "Item" false 0).notices.filterMap Notice.newPaths?).sum = 3 ∧
      c.accumulator.root.observations = 2 := by
  intro first second plan
  have hisOk : (run plan {} "items" "Item" false 0).result.toOption.isSome = true := by decide +kernel
  have hrequests : (run plan {} "items" "Item" false 0).requests = [50, 200, 200] := by decide +kernel
  cases hrun : (run plan {} "items" "Item" false 0).result with
  | error e =>
    rw [hrun] at hisOk
    cases hisOk
  | ok c =>
    obtain ⟨batches, hbatches, htotal, hcounted, hmerged, hskipped, hlength, -, htold, hpaths, hobservations⟩ :=
      run_accounts plan {} "items" "Item" false 0 hrun
    rw [hrequests] at hbatches
    obtain rfl : [first, second, []] = batches :=
      List.map_injective_iff.2 (fun _ _ => Except.ok.inj) hbatches
    have htwo : (mergedFrom {} (.fresh "items" "Item") [first, second, []].flatten).length = 2 := by
      decide +kernel
    have hthree : ((mergedFrom {} (.fresh "items" "Item") [first, second, []].flatten).flatMap
        Extracted.paths).toFinset.card = 3 := by decide +kernel
    have hplain : ∀ r ∈ [first, second, []].flatten, r.IsPlain ∧ r.hasDistinctKeys = true := by decide +kernel
    have hpaths : c.metrics.uniqueFieldPaths = 3 := hpaths.trans (congrArg Nat.cast hthree)
    have hlength : c.accumulator.documentsMerged = 2 := hlength.trans htwo
    have htotal : c.metrics.totalSampled = 4 := htotal
    refine ⟨c, rfl, htotal, ?_, ?_, hpaths, ?_, (hobservations hplain).trans hlength⟩
    · rw [hmerged, hlength]
      rfl
    · rw [htotal, hlength] at hcounted
      omega
    · have hsum := htold rfl
      rw [hpaths] at hsum
      exact Int.ofNat.inj hsum

end Sampling

end DocSchema
