import DocSchema.Proofs.Sampling.Course
import DocSchema.Proofs.Sampling.Round

/-!
# What a run has drawn

Whatever a run goes by (one sample or batches, fetched in turn or ahead, with a deadline or cancelled on
the way), when it comes to its end it has merged the documents of the batches that its store handed out,
in order, and counted them. Checkpoints and notices have no part in it, and a batch that is fetched
ahead and left over has none either.

- `Draws`: batches that a store hands out one after the other.
- `Drew`: the progress of a run that has merged some batches.
- `Drew.merged`: merging one more.
- `kept_drew`: so both loops keep to it.
- `run_drew`: what a run leaves.
-/

namespace DocSchema.Sampling

variable {σ : Type}

/-- Batches that a store hands out one after the other, from a state to another, each for a request of
some size. -/
inductive Draws (store : Store σ) (start : σ) : List (List Raw) → σ → Prop
  | nil : Draws store start [] start
  | snoc {batches : List (List Raw)} {state : σ} {size : Nat} {batch : List Raw} :
      Draws store start batches state → (store.draw size state).1.documents = .ok batch →
      Draws store start (batches ++ [batch]) (store.draw size state).2

/-- A run that began at some state of the store and of what is known has merged some batches. -/
structure Drew (plan : Plan σ) (start : σ) (a : Accumulator) (batches : List (List Raw))
    (p : Progress σ) : Prop where
  draws : Draws plan.store start batches p.store
  accumulator : p.accumulator = batches.flatten.foldl (digest plan.extraction) a
  sampled : p.sampled = batches.flatten.length
  count : p.batches = batches.length

/-- A run has merged some batches, and may have asked for another one that it did not merge. -/
def HasDrawn (plan : Plan σ) (start : σ) (a : Accumulator) (p : Progress σ) : Prop :=
  ∃ batches store, Drew plan start a batches { p with store }

variable {plan : Plan σ} {limits : Limits} {start : σ} {a : Accumulator} {batches : List (List Raw)}
  {p q : Progress σ}

theorem documents_of_fetch {number size : Nat} {store : σ} {batch : List Raw}
    (h : (fetch plan number size store).batch = .ok batch) :
    (plan.store.draw size store).1.documents = .ok batch := by
  have hfetch : (fetch plan number size store).batch =
      (plan.store.draw size store).1.documents.mapError (.drawFailed number size) := rfl
  rw [hfetch] at h
  cases hd : (plan.store.draw size store).1.documents with
  | error f => rw [hd] at h; cases h
  | ok rs => rw [hd] at h; exact congrArg _ (Except.ok.inj h)

namespace Drew

theorem hasDrawn (h : Drew plan start a batches p) : HasDrawn plan start a p :=
  ⟨batches, p.store, h⟩

/-- A batch that was fetched and is not merged makes no difference. -/
theorem fetched (h : Drew plan start a batches p) (size : Nat) (f : Fetched σ) (readings : Nat) :
    HasDrawn plan start a { p.fetched size f with readings } :=
  ⟨batches, p.store, h.draws, h.accumulator, h.sampled, h.count⟩

/-- A batch that was fetched is merged. -/
theorem merged (h : Drew plan start a batches p) {size number : Nat} {batch : List Raw}
    (hbatch : (fetch plan number size p.store).batch = .ok batch) (readings : Nat) :
    Drew plan start a (batches ++ [batch])
      (mergeBatch plan { p.fetched size (fetch plan number size p.store) with readings } batch) where
  draws := h.draws.snoc (documents_of_fetch hbatch)
  accumulator := by
    rw [List.flatten_append, List.flatten_singleton, List.foldl_append, ← h.accumulator]
    exact ingestAll_fst plan.extraction _ _ _ _
  sampled := by
    rw [List.flatten_append, List.flatten_singleton, List.length_append, ← h.sampled]
    rfl
  count := by
    rw [List.length_append, List.length_singleton, ← h.count]
    rfl

/-- Stable batches and notices are counted apart. -/
theorem noted (h : Drew plan start a batches p) (stable : Nat) (notices : List Notice) :
    Drew plan start a batches (({ p with stable } : Progress σ).note notices) :=
  ⟨h.draws, h.accumulator, h.sampled, h.count⟩

end Drew

theorem kept_drew : Kept plan fun p => ∃ batches, Drew plan start a batches p := by
  rintro - p batch readings ⟨batches, h⟩ hbatch
  exact ⟨batches ++ [batch], (h.merged hbatch readings).noted _ _⟩

theorem Ended.drew (h : Ended plan (fun p => ∃ batches, Drew plan start a batches p) q) :
    HasDrawn plan start a q := by
  obtain ⟨batches, h⟩ | ⟨p, readings, ⟨batches, h⟩, -, rfl⟩ := h
  · exact h.hasDrawn
  · exact h.fetched _ _ _

/-- Batches that are fetched in turn are merged in order. -/
theorem sequential_drew {reason : StopReason} (h : Drew plan start a batches p)
    (hend : sequential plan limits p = (.ok reason, q)) : HasDrawn plan start a q :=
  (sequential_kept kept_drew ⟨batches, h⟩ hend).drew

/-- Batches that are fetched ahead are merged in order, too, but for one that is left over. -/
theorem overlapped_drew {schedule : Schedule} {reason : StopReason} (h : Drew plan start a batches p)
    (hend : overlapped plan limits schedule p = (.ok reason, q)) : HasDrawn plan start a q := by
  obtain ⟨store, hended⟩ := overlapped_kept kept_drew ⟨batches, h⟩ hend
  exact hended.drew

/-- A run that comes to its end leaves what it has drawn. -/
def Completed.HasDrawn (plan : Plan σ) (start : σ) (a : Accumulator) (c : Completed) : Prop :=
  ∃ batches after, Draws plan.store start batches after ∧
    c.accumulator = batches.flatten.foldl (digest plan.extraction) a ∧
    c.metrics.totalSampled = batches.flatten.length ∧ c.metrics.batchCount = batches.length

theorem HasDrawn.complete (h : HasDrawn plan start a p) {total : Nat} {reason : StopReason}
    {warnings : List Notice} {c : Completed} (hc : (complete total reason warnings p).result = .ok c) :
    c.HasDrawn plan start a := by
  obtain ⟨batches, after, h⟩ := h
  obtain rfl := Except.ok.inj hc
  exact ⟨batches, after, h.draws, h.accumulator, congrArg Nat.cast h.sampled, congrArg Nat.cast h.count⟩

theorem Drew.conclude (h : Drew plan start a batches p) {total : Nat} {schedule : Schedule} {c : Completed}
    (hc : (conclude total (if plan.sampling.prefetches then overlapped plan limits schedule p
      else sequential plan limits p)).result = .ok c) : c.HasDrawn plan start a := by
  rw [Sampling.conclude] at hc
  split at hc
  · cases hc
  rename_i reason hend
  refine HasDrawn.complete ?_ hc
  by_cases hprefetches : plan.sampling.prefetches = true
  · rw [if_pos hprefetches] at hend ⊢
    exact overlapped_drew h (Prod.ext hend rfl)
  · rw [if_neg hprefetches] at hend ⊢
    exact sequential_drew h (Prod.ext hend rfl)

end DocSchema.Sampling
