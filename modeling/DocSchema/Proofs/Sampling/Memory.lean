import DocSchema.Proofs.Sampling.Failure
import DocSchema.Proofs.Source.Draws

/-!
# Runs over a source in memory

A source in memory counts the documents it holds and hands out as many as it is asked for, so that few of
the ways are left in which a run can fail: the collection is not there, or the run is cancelled or out of time. What
is left besides is a matter of very large numbers in its settings.

- `not_escapes_memory`, `not_untold`: a run whose deadline can be computed, and which can tell its numbers, fails with
  errors of its own.
- `completed_or_untold`: a run that nothing interrupts comes to its end, or breaks off because it cannot tell a number.
-/

namespace DocSchema

open Number (twoTo)

/-- Whether the deadline of a run can be computed: its time, if it is a whole number, is not too large for a
floating-point number. -/
def SamplingSettings.isTimely (s : SamplingSettings) : Bool :=
  match s.timeout? with
  | some (.whole n) => decide (n.natAbs + Number.twoTo 970 < Number.twoTo 1024)
  | _ => true

/-- Whether a run can tell the sizes of its batches and how many stable ones it waits for. -/
def SamplingSettings.isTold (s : SamplingSettings) : Bool :=
  [s.stableBatches, s.initialBatchSize, s.batchSize, s.fixedSampleSize].all Number.isWritable

/-- A source in memory chooses as many positions at once as a run asks for. It need not choose when it goes through
its documents in order. -/
def MemorySource.Provides (m : MemorySource) (s : SamplingSettings) : Prop :=
  m.replaces = true → ∀ size ∈ [s.initialBatchSize, s.batchSize, s.fixedSampleSize], (size : Int) < pickBound

instance (m : MemorySource) (s : SamplingSettings) : Decidable (m.Provides s) :=
  inferInstanceAs (Decidable (_ → _))

namespace Sampling

theorem isTimely_iff {σ : Type} {plan : Plan σ} :
    plan.sampling.isTimely = true ↔ ∃ deadline?, deadlineOf plan = .ok deadline? := by
  rw [SamplingSettings.isTimely]
  constructor
  · intro h
    cases hdeadline : deadlineOf plan with
    | ok deadline? => exact ⟨deadline?, rfl⟩
    | error e =>
      obtain ⟨-, n, htimeout, hlarge⟩ := deadlineOf_eq_error_iff.1 hdeadline
      rw [htimeout] at h
      exact absurd (of_decide_eq_true h) (Nat.not_lt.2 hlarge)
  · rintro ⟨deadline?, hdeadline⟩
    split
    · rename_i n htimeout
      refine decide_eq_true (Nat.lt_of_not_le fun hlarge => ?_)
      cases hdeadline.symm.trans (deadlineOf_eq_error_iff.2 ⟨rfl, n, htimeout, hlarge⟩)
    · rfl

section Memory

variable {plan : Plan Source} {m : MemorySource} {name : Raw} {documents : Array Raw} {total : Nat}

theorem countOf_memory_of_error {fault : SourceFault} (h : m.documents name = .error fault) :
    countOf ((Source.store name).count (.memory m)).1 = .error (.countFailed fault) := by
  change countOf ((((m.documents name).map Array.size).map fun n => Raw.int n)) = _
  rw [h]
  rfl

theorem countOf_memory (h : m.documents name = .ok documents) (hsize : documents.size < 2 ^ 63) :
    countOf ((Source.store name).count (.memory m)).1 = .ok documents.size := by
  change countOf ((((m.documents name).map Array.size).map fun n => Raw.int n)) = _
  rw [h]
  exact countOf_int (Nat.lt_trans hsize (by decide +kernel))

/-- No collection in memory has so many documents that no share of them can be computed. -/
theorem size_add_lt (hsize : documents.size < 2 ^ 63) : documents.size + twoTo 970 < twoTo 1024 := by
  have hpow : 2 ^ 63 + twoTo 970 < twoTo 1024 := by decide +kernel
  exact Nat.lt_trans (Nat.add_lt_add_right hsize _) hpow

/-- A run over a source in memory fails with errors of its own, if its deadline can be computed. -/
theorem not_escapes_memory {e : RunError} (hstore : plan.store = Source.store name)
    (hdeadline : ∃ deadline?, deadlineOf plan = .ok deadline?)
    (hsize : ∀ documents, m.documents name = .ok documents → documents.size < 2 ^ 63) :
    ¬Escapes plan (.memory m) e := by
  obtain ⟨deadline?, hdeadline⟩ := hdeadline
  have hcount : countOf (plan.store.count (.memory m)).1 =
      countOf ((Source.store name).count (.memory m)).1 := by rw [hstore]
  have hown (he : countOf (plan.store.count (.memory m)).1 = .error e) : e.isOwn = true := by
    rw [hcount] at he
    cases hknown : m.documents name with
    | error fault =>
      cases (countOf_memory_of_error hknown).symm.trans he
      rfl
    | ok documents => cases (countOf_memory hknown (hsize documents hknown)).symm.trans he
  intro hescapes
  cases hescapes with
  | budget timeout_eq large =>
    cases hdeadline.symm.trans (deadlineOf_eq_error_iff.2 ⟨rfl, _, timeout_eq, large⟩)
  | count deadline_eq answer_eq fault_eq =>
    cases hown (by rw [answer_eq, countOf, fault_eq])
  | digits deadline_eq answer_eq number_eq long =>
    cases hown (by rw [answer_eq, countOf, number_eq]; exact if_neg (Nat.not_lt.2 long))
  | share deadline_eq count_eq adaptive fraction_eq large =>
    rw [hcount] at count_eq
    cases hknown : m.documents name with
    | error fault => cases (countOf_memory_of_error hknown).symm.trans count_eq
    | ok documents =>
      obtain rfl := Except.ok.inj ((countOf_memory hknown (hsize documents hknown)).symm.trans count_eq)
      exact Nat.not_le.2 (size_add_lt (hsize documents hknown)) large

/-- A run that can tell its numbers has none that is left untold. -/
theorem not_untold {σ : Type} {plan : Plan σ} {schedule : Schedule} {collection typeName : String} {cancelled : Bool}
    {store : σ} {e : RunError} (h : plan.sampling.isTold = true) :
    ¬Untold plan schedule collection typeName cancelled store e := by
  simp only [SamplingSettings.isTold, List.all_cons, List.all_nil, Bool.and_true, Bool.and_eq_true] at h
  obtain ⟨hstable, hinitial, hbatch, hfixed⟩ := h
  intro huntold
  cases huntold with
  | draw long failed =>
    obtain hsize | ⟨batches, sampled, hsize⟩ := size_of_drawFailed failed
    · cases long.symm.trans (hsize ▸ hfixed)
    · have hle : nextSize plan.sampling batches sampled ≤ plan.sampling.initialBatchSize ∨
          nextSize plan.sampling batches sampled ≤ plan.sampling.batchSize := by
        rw [nextSize]
        split
        · exact .inl (Nat.min_le_left _ _)
        · exact .inr (Nat.min_le_left _ _)
      rw [← hsize] at hle
      obtain hle | hle := hle
      · cases long.symm.trans (Number.isWritable_of_le hle hinitial)
      · cases long.symm.trans (Number.isWritable_of_le hle hbatch)
  | batch _ _ _ _ _ _ _ _ _ long => cases long.symm.trans hstable

/-- A batch from a collection that is there comes, and leaves the collections as they are. -/
theorem fetch_memory (hstore : plan.store = Source.store name) (h : m.documents name = .ok documents)
    {number size : Nat} (hsize : m.replaces = true → (size : Int) < MemorySource.pickBound) :
    ∃ items, fetch plan number size (.memory m) =
      { batch := .ok items, cancels := false, store := .memory (m.draw name size).2 } := by
  obtain ⟨items, hitems⟩ := MemorySource.exists_draw h hsize
  refine ⟨items, ?_⟩
  rw [fetch, hstore]
  change Fetched.mk ((Draw.mk ((m.draw name size).1.map .list) false).documents.mapError _) _ _ = _
  rw [hitems]
  rfl

/-- The progress of a run over a source in memory that nothing interrupts. -/
def Undisturbed (m : MemorySource) (p : Progress Source) : Prop :=
  p.cancelled = false ∧ ∃ m', p.store = .memory m' ∧ m'.collections = m.collections ∧ m'.replaces = m.replaces

/-- A run asks for no more than its settings say. -/
theorem nextSize_lt_of_provides {s : SamplingSettings} (hprovides : m.Provides s) (hreplaces : m.replaces = true)
    (batches sampled : Nat) : (nextSize s batches sampled : Int) < MemorySource.pickBound := by
  have hsizes := hprovides hreplaces
  rw [List.forall_mem_cons, List.forall_mem_cons] at hsizes
  obtain ⟨hinitial, hbatch, -⟩ := hsizes
  rw [nextSize]
  split
  · exact Int.lt_of_le_of_lt (Int.ofNat_le.2 (Nat.min_le_left _ _)) hinitial
  · exact Int.lt_of_le_of_lt (Int.ofNat_le.2 (Nat.min_le_left _ _)) hbatch

section Provided

variable (hstore : plan.store = Source.store name) (h : m.documents name = .ok documents)
  (hprovides : m.Provides plan.sampling)
include hstore h hprovides

theorem Undisturbed.fetch {p : Progress Source} (hp : Undisturbed m p) :
    ∃ items m', p.fetch plan = { batch := .ok items, cancels := false, store := .memory m' } ∧
      m'.collections = m.collections ∧ m'.replaces = m.replaces := by
  obtain ⟨-, m', hmemory, hcollections, hreplaces⟩ := hp
  have hknown := (MemorySource.documents_of_collections hcollections name).trans h
  obtain ⟨items, hfetch⟩ := @fetch_memory plan m' name documents hstore hknown (p.batches + 1) (p.size plan)
    fun hpicks => nextSize_lt_of_provides hprovides (hreplaces ▸ hpicks) p.batches p.sampled
  refine ⟨items, _, ?_, (MemorySource.collections_draw m' name (p.size plan)).trans hcollections,
    (MemorySource.replaces_draw m' name (p.size plan)).trans hreplaces⟩
  rw [Progress.fetch, hmemory, hfetch]

theorem kept_undisturbed : Kept plan (Undisturbed m) := by
  intro _ p batch readings hp hbatch
  obtain ⟨items, m', hfetch, hsame⟩ := hp.fetch hstore h hprovides
  rw [hfetch]
  refine ⟨?_, m', rfl, hsame⟩
  show (p.cancelled || false) = false
  rw [hp.1, Bool.or_false]

/-- A run that nothing interrupts sees no cancellation. -/
theorem Undisturbed.sees {p : Progress Source} (schedule : Schedule) (hp : Undisturbed m p) :
    Progress.sees plan schedule p = false := by
  obtain ⟨items, m', hfetch, -⟩ := hp.fetch hstore h hprovides
  rw [Progress.sees]
  split
  · rw [Progress.seesAhead, hp.1, hfetch, Bool.and_false]
    rfl
  · rw [Progress.seesInTurn, Progress.drawn, Progress.fetched, hp.1, hfetch]
    rfl

/-- A loop that nothing interrupts comes to its end with no error but that it cannot tell of a batch. -/
theorem eq_untold_of_halts {schedule : Schedule} {limits : Limits} {e : RunError} (htimeless : limits.deadline? = none)
    (hhalts : Halts plan limits (Progress.sees plan schedule) (Undisturbed m) (.error e)) : e = .untold := by
  cases hhalts with
  | fetch holds fails =>
    obtain ⟨items, m', hfetch, -⟩ := holds.fetch hstore h hprovides
    rw [hfetch] at fails
    cases fails
  | checkpoint holds fails =>
    rw [holds.sees hstore h hprovides, htimeless] at fails
    cases fails
  | breaksOff => rfl

/-- A run over a collection that is there comes to its end when nothing interrupts it, or it breaks off because it
cannot tell of a batch. -/
theorem completed_or_untold (schedule : Schedule) (collection typeName : String)
    (htimeout : plan.sampling.timeout? = none) (hsize : documents.size < 2 ^ 63) :
    (∃ c, (run plan schedule collection typeName false (.memory m)).result = .ok c) ∨
      (run plan schedule collection typeName false (.memory m)).result = .error .untold := by
  have hcount : countOf (plan.store.count (.memory m)).1 = .ok documents.size := by
    rw [hstore]
    exact countOf_memory h hsize
  have hafter : (plan.store.count (.memory m)).2 = .memory m := by rw [hstore]; rfl
  rw [run_of_countOf (deadlineOf_of_none htimeout) hcount]
  dsimp only
  let started : Progress Source := Progress.started plan collection typeName (.memory m) documents.size
  have hstarted : Undisturbed m started := ⟨rfl, m, hafter, rfl, rfl⟩
  split
  · exact .inl ⟨_, rfl⟩
  split
  · obtain ⟨hnone, -⟩ | ⟨share, result, -, hhalts, hresult⟩ :=
      @adaptiveRun_halts _ plan started _ schedule none documents.size (kept_undisturbed hstore h hprovides) hstarted
    · exact absurd (fractionLimit?_eq_none_iff.1 hnone).2 (Nat.not_le.2 (size_add_lt hsize))
    · change (∃ c, (adaptiveRun plan schedule none documents.size started).result = .ok c) ∨
        (adaptiveRun plan schedule none documents.size started).result = .error .untold
      cases hended : (adaptiveRun plan schedule none documents.size started).result with
      | ok c => exact .inl ⟨c, rfl⟩
      | error e =>
        rw [hended] at hresult
        cases result with
        | ok reason => cases hresult
        | error e' =>
          cases hresult
          exact .inr (congrArg Except.error (eq_untold_of_halts hstore h hprovides rfl hhalts))
  · have hfixed (hreplaces : m.replaces = true) : (plan.sampling.fixedSampleSize : Int) < MemorySource.pickBound :=
      hprovides hreplaces _ (by simp)
    obtain ⟨items, hfetch⟩ := @fetch_memory plan m name documents hstore h 1 _ hfixed
    change (∃ c, (fixedRun plan documents.size started).result = .ok c) ∨ _
    rw [fixedRun, show started.store = .memory m from hafter, hfetch]
    exact .inl ⟨_, rfl⟩

end Provided

end Memory

end Sampling

end DocSchema
