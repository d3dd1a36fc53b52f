import DocSchema.Proofs.Sampling.Turn

/-!
# A round of an adaptive run

What one round of the loop over the batches does in any run, with its checkpoint: a batch is fetched, the
run asks whether it may go on, and the batch is merged. What each merge of a batch keeps holds where the
loop ends, but for a last batch without documents, which is fetched and not merged.

- `sequential_eq_checked`, `overlapped_eq_checked`: both loops take one round after the other.
- `budget_settled`: what goes down from round to round.
- `sequential_kept`, `overlapped_kept`: an invariant of the rounds holds at the end.
-/

namespace DocSchema.Sampling

variable {σ : Type} {plan : Plan σ} {p : Progress σ}

/-! ## One round -/

theorem sequential_eq_checked (limits : Limits) (p : Progress σ) :
    sequential plan limits p =
      if p.size plan = 0 then (.ok .maxSamplesReached, p)
      else
        let drawn := p.fetched (p.size plan) (p.fetch plan)
        match (p.fetch plan).batch with
        | .error e => (.error e, drawn)
        | .ok batch =>
          match checkpoint plan limits.deadline? drawn.cancelled drawn with
          | .error e => (.error e, drawn)
          | .ok checked => answered plan limits.share id (sequential plan limits) checked (.ok batch) := by
  by_cases hsize : p.size plan = 0
  · rw [if_pos hsize, sequential_of_size_eq_zero hsize]
  rw [if_neg hsize, sequential]
  refine (dif_neg hsize).trans ?_
  dsimp only
  split
  · rename_i e hbatch
    rw [Progress.fetch, Progress.size, hbatch]
  · rename_i batch hbatch
    rw [Progress.fetch, Progress.size, hbatch]
    split
    · rename_i e heq
      rw [heq]
    · rename_i checked heq
      rw [heq]
      cases batch with
      | nil => rfl
      | cons r rs => rfl

theorem overlapped_eq_checked (limits : Limits) (schedule : Schedule) (p : Progress σ) :
    overlapped plan limits schedule p =
      if p.size plan = 0 then (.ok .maxSamplesReached, p)
      else
        let drawn := p.fetched (p.size plan) (p.fetch plan)
        match checkpoint plan limits.deadline?
            (p.cancelled || (schedule.seesCancel p.batches && (p.fetch plan).cancels)) drawn with
        | .error e => (.error e, drawn)
        | .ok checked =>
          answered plan limits.share (schedule.leave plan) (overlapped plan limits schedule) checked
            (p.fetch plan).batch := by
  by_cases hsize : p.size plan = 0
  · rw [if_pos hsize, overlapped]
    exact dif_pos hsize
  rw [if_neg hsize, overlapped]
  refine (dif_neg hsize).trans ?_
  dsimp only
  split
  · rename_i e hchecked
    rw [Progress.fetch, Progress.size, hchecked]
  · rename_i checked hchecked
    rw [Progress.fetch, Progress.size, hchecked]
    dsimp only
    split
    · rename_i e hbatch
      rw [hbatch]
      rfl
    · rename_i batch hbatch
      rw [hbatch]
      cases batch with
      | nil => rfl
      | cons r rs => rfl

/-- A checkpoint that is passed changes nothing but the number of readings of the clock. -/
theorem exists_readings_of_checkpoint {deadline? : Option (Amount × Binary64)} {cancelled : Bool}
    {q : Progress σ} (h : checkpoint plan deadline? cancelled p = .ok q) : ∃ readings, q = { p with readings } := by
  unfold checkpoint at h
  split at h
  · cases h
  · split at h
    · exact ⟨p.readings, (Except.ok.inj h).symm⟩
    · split at h
      · cases h
      · exact ⟨_, (Except.ok.inj h).symm⟩

/-- When a batch was asked for, any more documents take some of the budget. -/
theorem budget_lt_of_lt {q : Progress σ} (hsize : p.size plan ≠ 0) (h : p.sampled < q.sampled) :
    plan.sampling.maxSamples - q.sampled < plan.sampling.maxSamples - p.sampled := by
  have hle : p.size plan ≤ plan.sampling.maxSamples - p.sampled := nextSize_le _ _ _
  omega

/-- A batch that is merged after a checkpoint takes some of the budget. -/
theorem budget_settled {deadline? : Option (Amount × Binary64)} {cancelled : Bool} {checked : Progress σ}
    {f : Fetched σ} (hsize : p.size plan ≠ 0)
    (h : checkpoint plan deadline? cancelled (p.fetched (p.size plan) f) = .ok checked) (count : Nat)
    (merged : Accumulator × List Notice) :
    plan.sampling.maxSamples - (settled plan checked (count + 1) merged).sampled <
      plan.sampling.maxSamples - p.sampled := by
  have hsampled : checked.sampled = p.sampled := (sampled_checkpoint h).trans rfl
  refine budget_lt_of_lt hsize ?_
  rw [← hsampled]
  exact Nat.lt_add_of_pos_right (Nat.succ_pos count)

/-! ## From round to round -/

/-- A property that holds after a batch is fetched, merged and told of when it holds before. -/
def Kept (plan : Plan σ) (I : Progress σ → Prop) : Prop :=
  Number.isWritable plan.sampling.stableBatches = true →
  ∀ p batch readings, I p → (p.fetch plan).batch = .ok batch →
    I (settled plan { p.fetched (p.size plan) (p.fetch plan) with readings } batch.length
      (ingestAll plan.extraction (p.batches + 1) 0 batch p.accumulator))

/-- A property holds at the end of a loop, or it did until a batch without documents was fetched. -/
def Ended (plan : Plan σ) (I : Progress σ → Prop) (q : Progress σ) : Prop :=
  I q ∨ ∃ p readings, I p ∧ (p.fetch plan).batch = .ok [] ∧
    q = { p.fetched (p.size plan) (p.fetch plan) with readings }

variable {I : Progress σ → Prop} {q : Progress σ} {limits : Limits} {reason : StopReason}

/-- A run that comes to its end after a batch, or goes on to come to it later, has told of the batch. -/
theorem judged_eq_ok {share : Amount} {left : Progress σ → Progress σ} {next : Progress σ → Ending σ}
    (h : judged plan share left next p = (.ok reason, q)) :
    Number.isWritable plan.sampling.stableBatches = true ∧ (left p = q ∨ next p = (.ok reason, q)) := by
  rw [judged] at h
  split at h
  · rename_i ending hverdict
    obtain ⟨rfl, rfl⟩ := Prod.mk.inj h
    exact ⟨(verdict?_eq_some_ok_iff.1 hverdict).1, .inl rfl⟩
  · rename_i hverdict
    exact ⟨(verdict?_eq_none_iff.1 hverdict).1, .inr h⟩

theorem sequential_kept (hkept : Kept plan I) (h : I p)
    (hend : sequential plan limits p = (.ok reason, q)) : Ended plan I q := by
  induction hbudget : plan.sampling.maxSamples - p.sampled using Nat.strongRecOn generalizing p with
  | _ budget ih =>
    rw [sequential_eq_checked] at hend
    split at hend
    · obtain rfl := (Prod.mk.inj hend).2
      exact .inl h
    rename_i hsize
    dsimp only at hend
    split at hend
    · cases (Prod.mk.inj hend).1
    rename_i batch hbatch
    split at hend
    · cases (Prod.mk.inj hend).1
    rename_i checked hchecked
    obtain ⟨readings, rfl⟩ := exists_readings_of_checkpoint hchecked
    cases batch with
    | nil =>
      obtain rfl := (Prod.mk.inj hend).2
      exact .inr ⟨p, readings, h, hbatch, rfl⟩
    | cons r rs =>
      rw [answered] at hend
      obtain ⟨htold, rfl | hend⟩ := judged_eq_ok hend
      · exact .inl (hkept htold p (r :: rs) readings h hbatch)
      · exact ih _ (hbudget ▸ budget_settled hsize hchecked rs.length _)
          (hkept htold p (r :: rs) readings h hbatch) hend rfl

theorem overlapped_kept {schedule : Schedule} (hkept : Kept plan I) (h : I p)
    (hend : overlapped plan limits schedule p = (.ok reason, q)) :
    ∃ store, Ended plan I { q with store } := by
  induction hbudget : plan.sampling.maxSamples - p.sampled using Nat.strongRecOn generalizing p with
  | _ budget ih =>
    rw [overlapped_eq_checked] at hend
    split at hend
    · obtain rfl := (Prod.mk.inj hend).2
      exact ⟨p.store, .inl h⟩
    rename_i hsize
    dsimp only at hend
    split at hend
    · cases (Prod.mk.inj hend).1
    rename_i checked hchecked
    obtain ⟨readings, rfl⟩ := exists_readings_of_checkpoint hchecked
    cases hbatch : (p.fetch plan).batch with
    | error e =>
      rw [hbatch] at hend
      cases (Prod.mk.inj hend).1
    | ok batch =>
      rw [hbatch] at hend
      cases batch with
      | nil =>
        obtain rfl := (Prod.mk.inj hend).2
        exact ⟨(p.fetch plan).store, .inr ⟨p, readings, h, hbatch, rfl⟩⟩
      | cons r rs =>
        rw [answered] at hend
        obtain ⟨htold, rfl | hend⟩ := judged_eq_ok hend
        · have hnext := hkept htold p (r :: rs) readings h hbatch
          refine ⟨(p.fetch plan).store, .inl ?_⟩
          rw [Schedule.leave]
          split
          · exact hnext
          · exact hnext
        · exact ih _ (hbudget ▸ budget_settled hsize hchecked rs.length _)
            (hkept htold p (r :: rs) readings h hbatch) hend rfl

end DocSchema.Sampling
