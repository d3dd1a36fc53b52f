import DocSchema.Proofs.Merge.History
import DocSchema.Proofs.Merge.Trace

/-!
# What a merge counts

Three things are counted by document: the objects of the top-level type, the documents that were merged,
and the paths. A merge begins with the first and ends with the others, and everything below the top level
leaves all three alone. So a merge that stops at a leaf has counted an object of the top-level type, and
nothing else by which documents are counted.

- `Event.isOverall`: an event is about a document as a whole.
- `mergeDocument_overall`: the events of that kind that a merge runs through.
- `observations_mergeDocument`, `merged_mergeDocument`, `mem_seenPaths_mergeDocument`: what it counts.
-/

namespace DocSchema.Schema

variable {detect : Bool} {top : String} {a b : Accumulator} {es : List Event}

/-! ## Along a run -/

namespace Run

theorem documentsMerged (h : Run a es b) :
    b.documentsMerged = a.documentsMerged + es.countP Event.isFinish := by
  induction h with
  | nil => rfl
  | @cons a b e es _ _ ih =>
    rw [ih, Event.documentsMerged_apply, List.countP_cons]
    cases e <;> simp only [Event.isFinish, Bool.false_eq_true, if_true, if_false] <;> omega

theorem observations (h : Run a es b) :
    b.root.observations = a.root.observations + es.countP Event.isDocument := by
  induction h with
  | nil => rfl
  | @cons a b e es _ _ ih =>
    have hbare := congrArg TypeContext.observations (Event.rootBare_apply (a := a) e)
    have happly : (e.apply a).root.observations =
        a.root.observations + if e.isDocument then 1 else 0 := by
      cases e <;> exact hbare
    rw [ih, happly, List.countP_cons]
    omega

theorem mem_seenPaths_iff (h : Run a es b) {path : String} :
    path ∈ b.seenPaths ↔ path ∈ a.seenPaths ∨ .record path ∈ es := by
  induction h with
  | nil => simp
  | cons _ _ ih => rw [ih, Event.mem_seenPaths_apply, List.mem_cons, or_assoc, @eq_comm _ (Event.record path)]

end Run

/-! ## Along a merge -/

/-- Whether an event is about a document as a whole: it counts a document, ends one, or records a path. -/
def Event.isOverall : Event → Bool
  | .document _ | .finish | .record _ => true
  | _ => false

/-- Nothing below the top level is about a document as a whole. -/
theorem isOverall_of_mem_placedFields {fields : List FieldSample} {e : Event}
    (h : e ∈ fields.map (fieldEvent detect top []) ++
      (ObjectSample.placedFields [] fields).flatMap (placedEvents detect top)) : e.isOverall = false := by
  have hfield (place : Place) (f : FieldSample) : (fieldEvent detect top place f).isOverall = false := by
    obtain ⟨key, path, kind, leaves, objects⟩ := f
    rfl
  rcases List.mem_append.1 h with h | h
  · obtain ⟨f, -, rfl⟩ := List.mem_map.1 h
    exact hfield [] f
  obtain ⟨⟨place, object⟩, hq, he⟩ := List.mem_flatMap.1 h
  rcases List.mem_cons.1 he with rfl | he
  · have hplace : place ≠ [] :=
      ObjectSample.placedFields_induct (P := fun place _ => place ≠ []) (fun _ _ _ _ _ _ _ _ => List.cons_ne_nil _ _)
        [] fields (fun _ _ _ _ _ => List.cons_ne_nil _ _) _ hq
    cases place with
    | nil => exact absurd rfl hplace
    | cons key up => rw [objectEvent]; split <;> rfl
  · obtain ⟨f, -, rfl⟩ := List.mem_map.1 he
    exact hfield place f

/-- The merge of an object at the top level counts a document, and is about nothing as a whole after
that. -/
theorem mergeRoot_overall (o : ObjectSample) (a : Accumulator) :
    ∃ es, Run a es (mergeObject detect .root o a).state ∧
      es.filter Event.isOverall = [.document (!o.isEmpty)] := by
  obtain ⟨path, fields⟩ := o
  obtain ⟨es, run, hsub, -⟩ := @mergeFields_traced detect a.root.name [] fields
    ((Event.document (!fields.isEmpty)).apply a) (Event.rootName_apply _) rfl
  refine ⟨.document (!fields.isEmpty) :: es, ?_, ?_⟩
  · rw [mergeObject]
    exact .cons trivial run
  · have hnone : es.filter Event.isOverall = [] :=
      List.filter_eq_nil_iff.2 fun e he => Bool.eq_false_iff.1 (isOverall_of_mem_placedFields (hsub e he))
    rw [List.filter_cons_of_pos rfl, hnone]
    rfl

/-- What a merge is about as a whole: it counts a document, and then, unless it stops, it ends the
document and records its paths. -/
theorem mergeDocument_overall (e : Extracted) (a : Accumulator) :
    let m := mergeDocument detect e a
    ∃ es, Run a es m.state ∧ es.filter Event.isOverall =
      .document (!e.root.isEmpty) :: if m.fault?.isNone then .finish :: e.paths.map .record else [] := by
  obtain ⟨es, run, hoverall⟩ := @mergeRoot_overall detect e.root a
  cases hf : (mergeObject detect .root e.root a).fault? with
  | some f =>
    have hm : mergeDocument detect e a = mergeObject detect .root e.root a := Merging.fault_andThen hf _
    refine ⟨es, hm ▸ run, ?_⟩
    rw [hm, hf]
    exact hoverall
  | none =>
    rw [mergeDocument, Merging.andThen, hf]
    refine ⟨es ++ .finish :: e.paths.map .record, run.append (.cons (e := .finish) trivial (recordPaths_run _ _)), ?_⟩
    have hpaths : (e.paths.map Event.record).filter Event.isOverall = e.paths.map .record :=
      List.filter_eq_self.2 fun x hx => by
        obtain ⟨path, -, rfl⟩ := List.mem_map.1 hx
        rfl
    rw [List.filter_append, hoverall, List.filter_cons_of_pos rfl, hpaths]
    rfl

/-! ## What is counted -/

/-- The events of a merge that pass a test of events about a document as a whole, other than records. -/
theorem countP_of_overall {P : Event → Bool} (hoverall : ∀ e, P e = true → e.isOverall = true)
    (hrecord : ∀ path, P (.record path) = false) {populated ended : Bool} {paths : List String}
    (h : es.filter Event.isOverall =
      .document populated :: if ended then .finish :: paths.map .record else []) :
    es.countP P = (P (.document populated)).toNat + (ended && P .finish).toNat := by
  have hrecords : (paths.map Event.record).countP P = 0 := by
    refine List.countP_eq_zero.2 fun e he => ?_
    obtain ⟨path, -, rfl⟩ := List.mem_map.1 he
    exact Bool.eq_false_iff.1 (hrecord path)
  have hfilter : es.countP P = (es.filter Event.isOverall).countP P := by
    rw [List.countP_filter]
    refine List.countP_congr fun e _ => ?_
    rw [Bool.and_eq_true]
    exact (and_iff_left_of_imp (hoverall e)).symm
  rw [hfilter, h, List.countP_cons]
  cases ended with
  | false => cases P (.document populated) <;> rfl
  | true =>
    rw [if_pos rfl, List.countP_cons, hrecords]
    cases P (.document populated) <;> cases P .finish <;> rfl

section Counted

variable (e : Extracted) (a : Accumulator)

theorem observations_mergeDocument :
    (mergeDocument detect e a).state.root.observations = a.root.observations + 1 := by
  obtain ⟨es, run, hoverall⟩ := @mergeDocument_overall detect e a
  rw [run.observations, countP_of_overall (P := Event.isDocument) (fun e h => ?_) (fun _ => rfl) hoverall]
  · simp [Event.isDocument]
  · cases e <;> first | rfl | cases h

theorem merged_mergeDocument :
    (mergeDocument detect e a).state.documentsMerged =
      a.documentsMerged + (mergeDocument detect e a).fault?.isNone.toNat := by
  obtain ⟨es, run, hoverall⟩ := @mergeDocument_overall detect e a
  rw [run.documentsMerged, countP_of_overall (P := Event.isFinish) (fun e h => ?_) (fun _ => rfl) hoverall]
  · simp [Event.isFinish]
  · cases e <;> first | rfl | cases h

theorem mem_seenPaths_mergeDocument {path : String} :
    path ∈ (mergeDocument detect e a).state.seenPaths ↔
      path ∈ a.seenPaths ∨ (mergeDocument detect e a).fault? = none ∧ path ∈ e.paths := by
  obtain ⟨es, run, hoverall⟩ := @mergeDocument_overall detect e a
  have hmem : Event.record path ∈ es ↔ Event.record path ∈ es.filter Event.isOverall := by
    rw [List.mem_filter]
    exact (and_iff_left rfl).symm
  rw [run.mem_seenPaths_iff, hmem, hoverall]
  cases (mergeDocument detect e a).fault? <;> simp

end Counted

end DocSchema.Schema
