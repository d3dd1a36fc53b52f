import DocSchema.Proofs.Sampling.Drawing
import DocSchema.Proofs.Sampling.Recording
import Mathlib.Algebra.BigOperators.Group.List.Basic
import Mathlib.Algebra.GroupWithZero.Nat

/-!
# The budget of an adaptive run

A store may hand out more documents than it is asked for, fail, or cancel the run: whatever it does, an
adaptive run asks it for something each time, for no more than the settings allow at a time and than the
budget leaves after what has been handed out, and it asks no more often than the budget has documents.
The batch that is fetched ahead and left over at the end keeps to the same.

- `Budgeted`: exchanges with a store that keep to the budget; `Budgeted.split` for one of them,
  `Budgeted.length_le` for how many there are.
- `Charged`: the progress of a run that has merged what the exchanges of its store brought.
- `answered_ends_within`: what one round keeps.
- `sequential_ends_within`, `overlapped_ends_within`: where the loops end.
- `run_within_budget`: the run as a whole.
-/

namespace DocSchema.Sampling

/-! ## Exchanges within a budget -/

/-- The number of documents that some exchanges brought. -/
def received (log : List Exchange) : Nat :=
  (log.map Exchange.received).sum

@[simp]
theorem received_concat (log : List Exchange) (x : Exchange) :
    received (log ++ [x]) = received log + x.received := by
  simp [received]

/-- Exchanges that keep to a budget: each asks for something, as much as a run asks for after the ones
before it, all of which have brought some documents. -/
inductive Budgeted (s : SamplingSettings) : List Exchange → Prop
  | nil : Budgeted s []
  | snoc {log : List Exchange} {x : Exchange} (before : Budgeted s log)
      (brought : ∀ y ∈ log, 0 < y.received) (size_eq : x.size = nextSize s log.length (received log))
      (size_pos : 0 < x.size) : Budgeted s (log ++ [x])

namespace Budgeted

variable {s : SamplingSettings} {log : List Exchange}

/-- Each exchange asks for something, as much as a run asks for after the ones before it. -/
theorem split (h : Budgeted s log) {before : List Exchange} {x : Exchange} {after : List Exchange}
    (hlog : log = before ++ x :: after) :
    0 < x.size ∧ x.size = nextSize s before.length (received before) := by
  induction h generalizing after with
  | nil => cases before <;> cases hlog
  | @snoc log y hbefore hbrought hsize hpos ih =>
    rcases after.eq_nil_or_concat with rfl | ⟨rest, z, rfl⟩
    · obtain ⟨rfl, hyx⟩ := List.append_inj' hlog rfl
      obtain rfl := List.head_eq_of_cons_eq hyx
      exact ⟨hpos, hsize⟩
    · rw [List.concat_eq_append, ← List.cons_append, ← List.append_assoc] at hlog
      exact ih (List.append_inj' hlog rfl).1

/-- There are no more exchanges than the budget has documents: each before the last has taken some. -/
theorem length_le (h : Budgeted s log) : log.length ≤ s.maxSamples := by
  cases h with
  | nil => exact Nat.zero_le _
  | @snoc log x before brought size_eq size_pos =>
    have htaken : log.length ≤ received log := by
      have hones := List.length_le_sum_of_one_le (log.map Exchange.received) fun n hn => by
        obtain ⟨y, hy, rfl⟩ := List.mem_map.1 hn
        exact brought y hy
      rwa [List.length_map] at hones
    have hleft : x.size ≤ s.maxSamples - received log := size_eq ▸ nextSize_le _ _ _
    rw [List.length_append, List.length_singleton]
    omega

/-- Exchanges that bring no more than they ask for bring no more than the budget has. -/
theorem received_le (h : Budgeted s log) (hanswers : ∀ x ∈ log, x.received ≤ x.size) :
    received log ≤ s.maxSamples := by
  cases h with
  | nil => exact Nat.zero_le _
  | @snoc log x before brought size_eq size_pos =>
    have hleft : x.size ≤ s.maxSamples - received log := size_eq ▸ nextSize_le _ _ _
    have hlast : x.received ≤ x.size := hanswers x (List.mem_append_right _ List.mem_cons_self)
    rw [received_concat]
    omega

end Budgeted

/-! ## One round -/

/-- A run has merged some batches, which are what its exchanges with a store brought. -/
structure Charged (s : SamplingSettings) (log : List Exchange) (batches sampled : Nat) : Prop where
  budgeted : Budgeted s log
  brought : ∀ x ∈ log, 0 < x.received
  batches_eq : batches = log.length
  sampled_eq : sampled = received log

/-- A run has kept to its budget, and has merged no more than its exchanges with a store brought. -/
structure Within (s : SamplingSettings) (log : List Exchange) (sampled : Nat) : Prop where
  budgeted : Budgeted s log
  sampled_le : sampled ≤ received log

namespace Charged

variable {s : SamplingSettings} {log : List Exchange} {batches sampled : Nat} {x : Exchange}

theorem within (h : Charged s log batches sampled) : Within s log sampled :=
  ⟨h.budgeted, Nat.le_of_eq h.sampled_eq⟩

theorem budgeted_concat (h : Charged s log batches sampled) (hsize : x.size = nextSize s batches sampled)
    (hpos : x.size ≠ 0) : Budgeted s (log ++ [x]) := by
  rw [h.batches_eq, h.sampled_eq] at hsize
  exact h.budgeted.snoc h.brought hsize (Nat.pos_of_ne_zero hpos)

/-- A batch that is asked for and not merged is within the budget. -/
theorem asked (h : Charged s log batches sampled) (hsize : x.size = nextSize s batches sampled)
    (hpos : x.size ≠ 0) : Within s (log ++ [x]) sampled where
  budgeted := h.budgeted_concat hsize hpos
  sampled_le := by
    rw [received_concat, ← h.sampled_eq]
    exact Nat.le_add_right _ _

/-- A batch that is asked for, brings some documents, and is merged. -/
theorem merged (h : Charged s log batches sampled) (hsize : x.size = nextSize s batches sampled)
    (hpos : x.size ≠ 0) (hbrought : 0 < x.received) :
    Charged s (log ++ [x]) (batches + 1) (sampled + x.received) where
  budgeted := h.budgeted_concat hsize hpos
  brought y hy := by
    rcases List.mem_append.1 hy with hold | hnew
    · exact h.brought y hold
    · rwa [List.mem_singleton.1 hnew]
  batches_eq := by rw [h.batches_eq, List.length_append, List.length_singleton]
  sampled_eq := by rw [h.sampled_eq, received_concat]

end Charged

variable {σ : Type} {plan : Plan σ} {p : Progress (σ × List Exchange)}

/-- The progress of a run that has merged what its exchanges with a store brought. -/
def Progress.Charged (s : SamplingSettings) (p : Progress (σ × List Exchange)) : Prop :=
  Sampling.Charged s p.store.2 p.batches p.sampled

/-- The batches of a run have come to an end within its budget. -/
def Ending.Within (s : SamplingSettings) (e : Ending (σ × List Exchange)) : Prop :=
  Sampling.Within s e.2.store.2 e.2.sampled

/-- What a run asks for next, and what that brings. -/
def Progress.exchange (p : Progress (σ × List Exchange)) (plan : Plan σ) : Exchange :=
  ⟨p.size plan.recording, (plan.store.draw (p.size plan.recording) p.store.1).1.received⟩

theorem log_fetch : (p.fetch plan.recording).store.2 = p.store.2 ++ [p.exchange plan] := rfl

theorem received_exchange {batch : List Raw} (hbatch : (p.fetch plan.recording).batch = .ok batch) :
    (p.exchange plan).received = batch.length := by
  have hdocuments : (plan.store.draw (p.size plan.recording) p.store.1).1.documents = .ok batch :=
    documents_of_fetch hbatch
  rw [Progress.exchange, Draw.received, hdocuments]
  rfl

/-- A batch that is asked for and not merged is within the budget. -/
theorem Progress.Charged.fetch (h : p.Charged plan.sampling) (hsize : p.size plan.recording ≠ 0) :
    Sampling.Within plan.sampling (p.fetch plan.recording).store.2 p.sampled :=
  Sampling.Charged.asked h rfl hsize

/-- What is left over when the run stops is within the budget. -/
theorem Progress.Charged.leave (h : p.Charged plan.sampling) (schedule : Schedule)
    (ending : Except RunError StopReason) : Ending.Within plan.sampling (ending, schedule.leave plan.recording p) := by
  rw [Schedule.leave]
  split
  · rename_i hleft
    exact h.fetch (bne_iff_ne.1 (Bool.and_eq_true_iff.1 hleft).2)
  · exact h.within

/-- What follows an answer is within the budget, if what is left at a stop is and what follows a merged
batch is. -/
theorem answered_ends_within {share : Amount}
    {left : Progress (σ × List Exchange) → Progress (σ × List Exchange)}
    {next : Progress (σ × List Exchange) → Ending (σ × List Exchange)}
    (h : p.Charged plan.sampling) (hsize : p.size plan.recording ≠ 0) (readings : Nat)
    (hleft : ∀ q ending, q.Charged plan.sampling → Ending.Within plan.sampling (ending, left q))
    (hnext : ∀ q, q.Charged plan.sampling →
      plan.sampling.maxSamples - q.sampled < plan.sampling.maxSamples - p.sampled →
      Ending.Within plan.sampling (next q)) :
    Ending.Within plan.sampling (answered plan.recording share left next
      { p.fetched (p.size plan.recording) (p.fetch plan.recording) with readings }
      (p.fetch plan.recording).batch) := by
  cases hbatch : (p.fetch plan.recording).batch with
  | error e => exact h.fetch hsize
  | ok batch =>
    cases batch with
    | nil => exact h.fetch hsize
    | cons r rs =>
      have hreceived := received_exchange hbatch
      have hbrought : 0 < (p.exchange plan).received := hreceived ▸ Nat.succ_pos rs.length
      have hmerged : Charged plan.sampling (p.fetch plan.recording).store.2 (p.batches + 1)
          (p.sampled + (r :: rs).length) := by
        rw [log_fetch, ← hreceived]
        exact Charged.merged h rfl hsize hbrought
      rw [answered, judged]
      split
      · exact hleft _ _ hmerged
      · exact hnext _ hmerged (budget_lt hsize rs.length)

/-! ## The loops -/

theorem sequential_ends_within (limits : Limits) (h : p.Charged plan.sampling) :
    Ending.Within plan.sampling (sequential plan.recording limits p) := by
  induction hbudget : plan.sampling.maxSamples - p.sampled using Nat.strongRecOn generalizing p with
  | _ budget ih =>
    rw [sequential_eq_checked]
    split
    · exact h.within
    rename_i hsize
    dsimp only
    split
    · exact h.fetch hsize
    rename_i batch hbatch
    split
    · exact h.fetch hsize
    rename_i checked hchecked
    obtain ⟨readings, rfl⟩ := exists_readings_of_checkpoint hchecked
    rw [← hbatch]
    exact answered_ends_within h hsize readings (fun _ _ hq => hq.within) fun q hq hless =>
      ih _ (hbudget ▸ hless) hq rfl

theorem overlapped_ends_within (limits : Limits) (schedule : Schedule) (h : p.Charged plan.sampling) :
    Ending.Within plan.sampling (overlapped plan.recording limits schedule p) := by
  induction hbudget : plan.sampling.maxSamples - p.sampled using Nat.strongRecOn generalizing p with
  | _ budget ih =>
    rw [overlapped_eq_checked]
    split
    · exact h.within
    rename_i hsize
    dsimp only
    split
    · exact h.fetch hsize
    rename_i checked hchecked
    obtain ⟨readings, rfl⟩ := exists_readings_of_checkpoint hchecked
    exact answered_ends_within h hsize readings (fun _ ending hq => hq.leave schedule ending)
      fun q hq hless => ih _ (hbudget ▸ hless) hq rfl

/-! ## The run -/

/-- What a run asks its store for, and how much it is handed out, in order. -/
def exchanges (plan : Plan σ) (schedule : Schedule) (collection typeName : String) (cancelled : Bool)
    (store : σ) : List Exchange :=
  (run plan.recording schedule collection typeName cancelled (store, [])).store.2

/-- A run has kept to its budget, and reports no more documents than its exchanges with a store brought. -/
def Outcome.Within (s : SamplingSettings) (o : Outcome (σ × List Exchange)) : Prop :=
  Budgeted s o.store.2 ∧ ∀ c, o.result = .ok c → c.metrics.totalSampled ≤ received o.store.2

variable {s : SamplingSettings}

theorem Within.failed (h : Within s p.store.2 p.sampled) (e : RunError) (counted : Bool) :
    (Outcome.failed e counted p).Within s :=
  ⟨h.budgeted, fun _ hc => by cases hc⟩

theorem Within.complete (h : Within s p.store.2 p.sampled) (total : Nat) (reason : StopReason)
    (warnings : List Notice) : (complete total reason warnings p).Within s := by
  refine ⟨h.budgeted, fun c hc => ?_⟩
  obtain rfl := Except.ok.inj hc
  exact Int.ofNat_le.2 h.sampled_le

theorem Ending.Within.conclude {e : Ending (σ × List Exchange)} (h : Ending.Within s e) (total : Nat) :
    (conclude total e).Within s := by
  obtain ⟨result, q⟩ := e
  cases result with
  | error e => exact Sampling.Within.failed h e true
  | ok reason => exact Sampling.Within.complete h total reason _

theorem adaptiveRun_ends_within (schedule : Schedule) (deadline? : Option (Amount × Binary64)) (total : Nat)
    (h : p.Charged plan.sampling) :
    (adaptiveRun plan.recording schedule deadline? total p).Within plan.sampling := by
  rw [adaptiveRun]
  split
  · exact h.within.failed _ _
  rename_i share _
  refine Ending.Within.conclude ?_ total
  split
  · exact overlapped_ends_within _ schedule h
  · exact sequential_ends_within _ h

/-- An adaptive run keeps to its budget. -/
theorem run_ends_within (hadaptive : plan.sampling.isAdaptive = true) (schedule : Schedule)
    (collection typeName : String) (cancelled : Bool) (store : σ) :
    (run plan.recording schedule collection typeName cancelled (store, [])).Within plan.sampling := by
  have hstarted : Charged plan.sampling [] 0 0 :=
    ⟨.nil, fun x hx => absurd hx List.not_mem_nil, rfl, rfl⟩
  rw [run]
  dsimp only
  split
  · exact Within.failed hstarted.within _ _
  split
  · exact Within.failed hstarted.within _ _
  split
  · exact Within.complete hstarted.within _ _ _
  split
  · exact adaptiveRun_ends_within schedule _ _ hstarted
  · rename_i hfixed
    exact absurd hadaptive hfixed

/-- **The budget of a run.** Whatever a store does and whatever the settings are, an adaptive run asks the
store for at least one document each time, for no more than its settings allow at a time and than its
budget leaves after what it has been handed out, and no more often than its budget has documents. If it is
never handed out more than it asks for, then it reports no more documents than its budget has. The record
of what the store is asked for makes no difference to the run. -/
theorem run_within_budget {plan : Plan σ} (hadaptive : plan.sampling.isAdaptive = true)
    (schedule : Schedule) (collection typeName : String) (cancelled : Bool) (store : σ) :
    let s := plan.sampling
    let log := exchanges plan schedule collection typeName cancelled store
    let outcome := run plan schedule collection typeName cancelled store
    (run plan.recording schedule collection typeName cancelled (store, [])).forget = outcome ∧
      (∀ before x after, log = before ++ x :: after → 1 ≤ x.size ∧
        x.size ≤ min (if before = [] then s.initialBatchSize else s.batchSize)
          (s.maxSamples - received before)) ∧
      log.length ≤ s.maxSamples ∧
      ((∀ x ∈ log, x.received ≤ x.size) →
        ∀ c, outcome.result = .ok c → c.metrics.totalSampled ≤ s.maxSamples) := by
  intro s log outcome
  have hforget : (run plan.recording schedule collection typeName cancelled (store, [])).forget = outcome :=
    (run_forget schedule collection typeName cancelled store []).symm
  obtain ⟨hbudgeted, hsampled⟩ := run_ends_within hadaptive schedule collection typeName cancelled store
  refine ⟨hforget, fun before x after hlog => ?_, Budgeted.length_le hbudgeted, fun hanswers c hc => ?_⟩
  · obtain ⟨hpos, hsize⟩ := Budgeted.split hbudgeted hlog
    refine ⟨hpos, Nat.le_of_eq ?_⟩
    rw [hsize, nextSize]
    simp only [List.length_eq_zero_iff]
    rfl
  · rw [← hforget] at hc
    exact Int.le_trans (hsampled c hc) (Int.ofNat_le.2 (Budgeted.received_le hbudgeted hanswers))

/-- With a budget of three documents, and a store that hands out one at a time and counts two, a run that
fetches ahead asks for one, for two, and for the one that is left, although it stops before that one. -/
theorem run_within_budget_leftOver :
    let sampling : SamplingSettings :=
      { initialBatchSize := 1, batchSize := 2, maxSamples := 3, prefetch := .bool true }
    let plan := Plan.scripted sampling 2 fun _ => .ok [.ofFields [("a", .int 1)]]
    let schedule : Schedule := { fetchesLeftOver := true }
    let log := exchanges plan schedule "items" "Item" false 0
    plan.sampling.isAdaptive = true ∧ log = [⟨1, 1⟩, ⟨2, 1⟩, ⟨1, 1⟩] ∧
      (∀ before x after, log = before ++ x :: after → 1 ≤ x.size ∧
        x.size ≤ min (if before = [] then 1 else 2) (3 - received before)) ∧
      log.length ≤ 3 ∧
      ∀ c, (run plan schedule "items" "Item" false 0).result = .ok c → c.metrics.totalSampled ≤ 3 := by
  intro sampling plan schedule log
  have hlog : log = [⟨1, 1⟩, ⟨2, 1⟩, ⟨1, 1⟩] := by decide +kernel
  obtain ⟨-, hrequests, hlength, hsampled⟩ :=
    @run_within_budget Nat plan rfl schedule "items" "Item" false 0
  refine ⟨rfl, hlog, hrequests, hlength, hsampled ?_⟩
  rw [show exchanges plan schedule "items" "Item" false 0 = _ from hlog]
  decide

end DocSchema.Sampling
