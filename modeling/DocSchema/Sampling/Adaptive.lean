import DocSchema.Sampling.Progress

/-!
# Sampling until the fields are stable

Batches are drawn until enough of them in a row have brought few new paths, until a limit is
reached, or until the store has no more. One way fetches a batch, merges it, and fetches the next;
the other fetches the next batch while the current one is merged.

- `sequential_of_spent`: with the budget spent nothing more is drawn.
-/

namespace DocSchema.Sampling

variable {σ : Type}

/-- What an adaptive run goes by: the number of documents that is a large enough share, and the
deadline. -/
structure Limits where
  share : Amount
  deadline? : Option (Amount × Binary64) := none

/-- The progress after a fetch of a size. -/
def Progress.fetched (p : Progress σ) (size : Nat) (f : Fetched σ) : Progress σ :=
  { p with
    store := f.store
    cancelled := p.cancelled || f.cancels
    requests := size :: p.requests }

/-- Fetches and merges one batch after the other. -/
def sequential (plan : Plan σ) (limits : Limits) (p : Progress σ) :
    Except RunError StopReason × Progress σ :=
  let size := nextSize plan.sampling p.batches p.sampled
  if _hsize : size = 0 then (.ok .maxSamplesReached, p)
  else
    let f := fetch plan (p.batches + 1) size p.store
    let drawn := p.fetched size f
    match f.batch with
    | .error e => (.error e, drawn)
    | .ok batch =>
      match _h : checkpoint plan limits.deadline? drawn.cancelled drawn with
      | .error e => (.error e, drawn)
      | .ok checked =>
        if _hbatch : batch.isEmpty then (.ok .exhausted, checked)
        else
          let merged := absorb plan checked batch
          let noted := merged.note (batchNotices plan checked merged)
          match verdict? plan.sampling limits.share noted.stable noted.sampled with
          | some ending => (ending, noted)
          | none => sequential plan limits noted
termination_by plan.sampling.maxSamples - p.sampled
decreasing_by
  have hbatch : 0 < batch.length := List.length_pos_iff.2 (by simpa using _hbatch)
  have hnoted : noted.sampled = p.sampled + batch.length := by
    show checked.sampled + batch.length = _
    rw [sampled_checkpoint _h]
    rfl
  have := nextSize_le plan.sampling p.batches p.sampled
  simp only [size] at _hsize
  simp only [noted, merged] at hnoted
  omega

/-- How the fetching of batches falls out against their merging. -/
structure Schedule where
  /-- Whether a cancellation during the fetch of a batch is known when the run asks for it. -/
  seesCancel : Nat → Bool := fun _ => true
  /-- Whether a batch that was fetched ahead is fetched although the run has stopped. -/
  fetchesLeftOver : Bool := false

/-- Fetches each batch while the one before it is merged. The next batch is asked for as soon as the
current one has come, so one more may have been asked for when the run stops. -/
def overlapped (plan : Plan σ) (limits : Limits) (schedule : Schedule) (p : Progress σ) :
    Except RunError StopReason × Progress σ :=
  let size := nextSize plan.sampling p.batches p.sampled
  if _hsize : size = 0 then (.ok .maxSamplesReached, p)
  else
    let f := fetch plan (p.batches + 1) size p.store
    let drawn := p.fetched size f
    let seen := p.cancelled || (schedule.seesCancel p.batches && f.cancels)
    match _h : checkpoint plan limits.deadline? seen drawn with
    | .error e => (.error e, drawn)
    | .ok checked =>
      match f.batch with
      | .error e => (.error e, checked)
      | .ok batch =>
        if _hbatch : batch.isEmpty then (.ok .exhausted, checked)
        else
          let merged := absorb plan checked batch
          let noted := merged.note (batchNotices plan checked merged)
          match verdict? plan.sampling limits.share noted.stable noted.sampled with
          | some ending =>
            let next := nextSize plan.sampling noted.batches noted.sampled
            let leftOver := fetch plan (noted.batches + 1) next noted.store
            (ending,
              if schedule.fetchesLeftOver && next != 0 then { noted with store := leftOver.store }
              else noted)
          | none => overlapped plan limits schedule noted
termination_by plan.sampling.maxSamples - p.sampled
decreasing_by
  have hbatch : 0 < batch.length := List.length_pos_iff.2 (by simpa using _hbatch)
  have hnoted : noted.sampled = p.sampled + batch.length := by
    show checked.sampled + batch.length = _
    rw [sampled_checkpoint _h]
    rfl
  have := nextSize_le plan.sampling p.batches p.sampled
  simp only [size] at _hsize
  simp only [noted, merged] at hnoted
  omega

theorem sequential_of_spent {plan : Plan σ} {limits : Limits} {p : Progress σ}
    (h : plan.sampling.maxSamples ≤ p.sampled) :
    sequential plan limits p = (.ok .maxSamplesReached, p) := by
  have : nextSize plan.sampling p.batches p.sampled = 0 := by
    have := nextSize_le plan.sampling p.batches p.sampled
    omega
  rw [sequential, dif_pos this]

end DocSchema.Sampling
