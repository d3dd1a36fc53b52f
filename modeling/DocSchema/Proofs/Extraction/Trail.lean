import DocSchema.Proofs.Extraction.PlainKey
import DocSchema.Proofs.Extraction.Visible

/-!
# Trails of fields

A field of a document is reached by a trail: the keys that lead to it, each with whether it holds an array.
The canonical path of a field spells its trail. When all keys are plain the trail can be read back from
the path, and the logical path spells the keys alone.

- `Extracted.trailed`: the fields of a document with their trails, in the order of the document.
- `trailed_induct`: what holds of an object and is handed down to its fields and to the objects in them
  holds of all fields below it.
- `Trail.path_injective`, `Trail.logical_path`: what a path and a logical path tell of a trail.
- `path_of_trailed`: the path of a field spells its trail.
- `canonical_paths_decodable`: two fields have the same path exactly if they have the same trail.
-/

namespace DocSchema

/-! ## Paths of trails -/

/-- The keys that lead to a field, its own first, each with whether it holds an array. -/
abbrev Trail := List (String × Bool)

namespace Trail

/-- What a step of a trail adds to a path: its key, marked if it holds an array. -/
def segment (step : String × Bool) : String :=
  if step.2 then Path.elements step.1 else step.1

/-- The canonical path that spells a trail. -/
def path : Trail → String
  | [] => ""
  | step :: up => Path.child (path up) (segment step)

/-- The keys of a trail, the last one first. -/
def place (t : Trail) : Place :=
  t.map Prod.fst

theorem toList_elements (key : String) : (Path.elements key).toList = key.toList ++ ['[', ']'] := by
  rw [Path.elements, String.toList_append]
  rfl

/-- The marker of an array stands behind its key. -/
theorem elements_child (path key : String) :
    Path.elements (Path.child path key) = Path.child path (Path.elements key) := by
  rw [Path.child, Path.child, Path.elements, Path.elements]
  split
  · rfl
  · rw [String.append_assoc]

section Segments

variable {step step' : String × Bool} (h : Path.IsPlainKey step.1) (h' : Path.IsPlainKey step'.1)

include h

theorem segment_ne_empty : segment step ≠ "" := by
  rw [segment]
  split
  · intro hnil
    have hlist := congrArg String.toList hnil
    rw [toList_elements] at hlist
    exact absurd hlist (List.append_ne_nil_of_right_ne_nil _ (by decide))
  · exact h.nonempty

theorem dotless_segment : '.' ∉ (segment step).toList := by
  rw [segment]
  split
  · rw [toList_elements, List.mem_append]
    exact fun hin => hin.elim h.dotless (by decide)
  · exact h.dotless

include h'

/-- A plain key has no marker of its own, so it can be told whether one was added. -/
theorem segment_injective (heq : segment step = segment step') : step = step' := by
  have hmarked (key : String) : Path.arrayMarker.toList <:+: (Path.elements key).toList :=
    ⟨key.toList, [], by rw [toList_elements, List.append_nil]; rfl⟩
  obtain ⟨key, isArray⟩ := step
  obtain ⟨key', isArray'⟩ := step'
  cases isArray <;> cases isArray' <;> simp only [segment, Bool.false_eq_true, if_true, if_false] at heq
  · rw [heq]
  · exact absurd (heq ▸ hmarked key') h.unmarked
  · exact absurd (heq ▸ hmarked key) h'.unmarked
  · have hlist := congrArg String.toList heq
    rw [toList_elements, toList_elements] at hlist
    rw [String.toList_inj.1 (List.append_cancel_right hlist)]

end Segments

theorem path_eq_empty_iff {t : Trail} (ht : ∀ step ∈ t, Path.IsPlainKey step.1) : t.path = "" ↔ t = [] := by
  cases t with
  | nil => simp [path]
  | cons step up =>
    have hne : path (step :: up) ≠ "" := Path.child_ne_empty (segment_ne_empty (ht step List.mem_cons_self))
    simp [hne]

/-- Trails of plain keys with the same path are the same: the last dot, or the beginning, stands in front of
the last step. -/
theorem path_injective {t u : Trail} (ht : ∀ step ∈ t, Path.IsPlainKey step.1)
    (hu : ∀ step ∈ u, Path.IsPlainKey step.1) (h : t.path = u.path) : t = u := by
  induction t generalizing u with
  | nil => exact ((path_eq_empty_iff hu).1 h.symm).symm
  | cons step t ih =>
    cases u with
    | nil => exact (path_eq_empty_iff ht).1 h
    | cons step' u =>
      have hstep := ht step List.mem_cons_self
      have hstep' := hu step' List.mem_cons_self
      obtain ⟨hup, hsegment⟩ :=
        Place.child_inj_of_dotless (dotless_segment hstep) (dotless_segment hstep') h
      rw [segment_injective hstep hstep' hsegment, ih (fun s hs => ht s (List.mem_cons_of_mem _ hs))
        (fun s hs => hu s (List.mem_cons_of_mem _ hs)) hup]

/-- A logical path spells the keys of a trail. -/
theorem logical_path {t : Trail} (ht : ∀ step ∈ t, Path.IsPlainKey step.1) :
    Path.logical t.path = t.place.path := by
  induction t with
  | nil => exact Path.logical_empty
  | cons step up ih =>
    have hstep := ht step List.mem_cons_self
    have hup : ∀ s ∈ up, Path.IsPlainKey s.1 := fun s hs => ht s (List.mem_cons_of_mem _ hs)
    have hkeys : ∀ key ∈ place up, Path.IsPlainKey key := List.forall_mem_map.2 hup
    have hempty : path up = "" ↔ Path.logical (path up) = "" := by
      rw [ih hup, path_eq_empty_iff hup, Place.path_eq_empty_iff hkeys, place, List.map_eq_nil_iff]
    have hchild : Path.logical (Path.child (path up) step.1) = Place.path (step.1 :: place up) := by
      rw [Path.logical_child hstep hempty, ih hup]
      rfl
    rw [path, segment]
    split
    · rw [← elements_child, Path.logical_elements]
      exact hchild
    · exact hchild

end Trail

/-- The path of a place has its keys in order, with dots between them. -/
theorem Place.path_eq_joinWith {p : Place} (hp : ∀ key ∈ p, Path.IsPlainKey key) :
    p.path = Text.joinWith "." p.reverse := by
  induction p with
  | nil => exact String.intercalate_nil.symm
  | cons key up ih =>
    have hup : ∀ k ∈ up, Path.IsPlainKey k := fun k hk => hp k (List.mem_cons_of_mem _ hk)
    rw [path, Path.child, List.reverse_cons]
    split
    · rename_i hnil
      rw [(path_eq_empty_iff hup).1 hnil]
      exact String.intercalate_singleton.symm
    · rename_i hne
      have hrev : up.reverse ≠ [] := fun hnil => hne ((path_eq_empty_iff hup).2 (List.reverse_eq_nil_iff.1 hnil))
      rw [ih hup, Text.joinWith, Text.joinWith, String.intercalate_append_of_ne_nil hrev (List.cons_ne_nil _ _),
        String.intercalate_singleton]

/-! ## Fields with their trails -/

/-- The last step of the trail of a field. -/
def FieldSample.step (f : FieldSample) : String × Bool :=
  (f.key, f.isArray)

namespace ObjectSample

mutual
/-- The fields of an object that a trail leads to and of the objects below it, each with its trail. The
fields below a field come before the next field of the object. -/
def trailed (up : Trail) : ObjectSample → List (Trail × FieldSample)
  | .mk _ fields => trailedFields up fields
/-- Some fields of an object that a trail leads to, and the fields below them. -/
def trailedFields (up : Trail) : List FieldSample → List (Trail × FieldSample)
  | [] => []
  | .mk key path kind leaves objects :: fields =>
    ((key, kind == .sequence) :: up, .mk key path kind leaves objects) ::
      (trailedObjects ((key, kind == .sequence) :: up) objects ++ trailedFields up fields)
/-- The fields of objects that a trail leads to and of the objects below them. -/
def trailedObjects (up : Trail) : List ObjectSample → List (Trail × FieldSample)
  | [] => []
  | object :: objects => trailed up object ++ trailedObjects up objects
end

theorem trailed_eq (up : Trail) (o : ObjectSample) : o.trailed up = trailedFields up o.fields := by
  cases o
  rw [trailed, fields]

theorem trailedFields_cons (up : Trail) (f : FieldSample) (fields : List FieldSample) :
    trailedFields up (f :: fields) =
      (f.step :: up, f) :: (trailedObjects (f.step :: up) f.objects ++ trailedFields up fields) := by
  obtain ⟨key, path, kind, leaves, objects⟩ := f
  rw [trailedFields]
  rfl

theorem trailedObjects_eq (up : Trail) (objects : List ObjectSample) :
    trailedObjects up objects = objects.flatMap (trailed up) := by
  induction objects with
  | nil => rw [trailedObjects, List.flatMap_nil]
  | cons o objects ih => rw [trailedObjects, ih, List.flatMap_cons]

theorem trailedFields_eq (up : Trail) (fields : List FieldSample) :
    trailedFields up fields =
      fields.flatMap fun f => (f.step :: up, f) :: f.objects.flatMap (trailed (f.step :: up)) := by
  induction fields with
  | nil => rw [trailedFields, List.flatMap_nil]
  | cons f fields ih => rw [trailedFields_cons, ih, trailedObjects_eq, List.flatMap_cons, List.cons_append]

/-- The fields of an object are among the fields below it. -/
theorem mem_trailed_self (up : Trail) {o : ObjectSample} {f : FieldSample} (hf : f ∈ o.fields) :
    (f.step :: up, f) ∈ o.trailed up := by
  rw [trailed_eq, trailedFields_eq]
  exact List.mem_flatMap_of_mem hf List.mem_cons_self

/-- The fields below an object in a field of an object are below that object. -/
theorem trailed_subset (up : Trail) {o o' : ObjectSample} {f : FieldSample} (hf : f ∈ o.fields)
    (ho : o' ∈ f.objects) : o'.trailed (f.step :: up) ⊆ o.trailed up := by
  intro x hx
  rw [trailed_eq up, trailedFields_eq]
  exact List.mem_flatMap_of_mem hf (List.mem_cons_of_mem _ (List.mem_flatMap_of_mem ho hx))

section Induct

variable {P : Trail → ObjectSample → Prop} {Q : Trail → FieldSample → Prop}

mutual
/-- What holds of an object and is handed down to its fields, and to the objects in them, holds of the
fields below it. -/
theorem trailed_induct (hfield : ∀ t o, P t o → ∀ f ∈ o.fields, Q (f.step :: t) f)
    (hdown : ∀ t o, P t o → ∀ f ∈ o.fields, ∀ o' ∈ f.objects, P (f.step :: t) o') (up : Trail) :
    ∀ o, P up o → ∀ x ∈ trailed up o, Q x.1 x.2
  | .mk path fields, ho => by
    rw [trailed]
    exact trailedFields_induct hfield hdown up fields (hfield up _ ho) (hdown up _ ho)
theorem trailedFields_induct (hfield : ∀ t o, P t o → ∀ f ∈ o.fields, Q (f.step :: t) f)
    (hdown : ∀ t o, P t o → ∀ f ∈ o.fields, ∀ o' ∈ f.objects, P (f.step :: t) o') (up : Trail) :
    ∀ fields : List FieldSample, (∀ f ∈ fields, Q (f.step :: up) f) →
      (∀ f ∈ fields, ∀ o ∈ f.objects, P (f.step :: up) o) → ∀ x ∈ trailedFields up fields, Q x.1 x.2
  | [], _, _, x, hx => by simp [trailedFields] at hx
  | .mk key path kind leaves objects :: fields, hf, ho, x, hx => by
    rw [trailedFields, List.mem_cons, List.mem_append] at hx
    rcases hx with rfl | hx | hx
    · exact hf _ List.mem_cons_self
    · exact trailedObjects_induct hfield hdown _ objects (ho _ List.mem_cons_self) x hx
    · exact trailedFields_induct hfield hdown up fields (fun f h => hf f (List.mem_cons_of_mem _ h))
        (fun f h => ho f (List.mem_cons_of_mem _ h)) x hx
theorem trailedObjects_induct (hfield : ∀ t o, P t o → ∀ f ∈ o.fields, Q (f.step :: t) f)
    (hdown : ∀ t o, P t o → ∀ f ∈ o.fields, ∀ o' ∈ f.objects, P (f.step :: t) o') (up : Trail) :
    ∀ objects : List ObjectSample, (∀ o ∈ objects, P up o) → ∀ x ∈ trailedObjects up objects, Q x.1 x.2
  | [], _, x, hx => by simp [trailedObjects] at hx
  | o :: objects, ho, x, hx => by
    rw [trailedObjects, List.mem_append] at hx
    rcases hx with hx | hx
    · exact trailed_induct hfield hdown up o (ho o List.mem_cons_self) x hx
    · exact trailedObjects_induct hfield hdown up objects (fun o' h => ho o' (List.mem_cons_of_mem _ h)) x hx
end

end Induct

end ObjectSample

/-- A field of an object at a canonical path has the path of the object with its own step added, and so have
the objects in it. -/
structure FieldSample.Addressed (parent : String) (f : FieldSample) : Prop where
  path : f.path = Path.child parent (Trail.segment f.step)
  objects : ∀ o ∈ f.objects, o.path = f.path

/-- The paths of the fields of an object, and of all objects below it, are those of their objects with their
own steps added. -/
inductive ObjectSample.Addressed : ObjectSample → Prop
  | mk {o : ObjectSample} (fields : ∀ f ∈ o.fields, f.Addressed o.path)
      (objects : ∀ f ∈ o.fields, ∀ o' ∈ f.objects, Addressed o') : Addressed o

namespace Extracted

/-- The fields of a document with their trails: each field of an object is followed by the fields of the
objects in it, from the first on, and then by the next field of the object. -/
def trailed (e : Extracted) : List (Trail × FieldSample) :=
  e.root.trailed []

end Extracted

namespace Extraction

variable {s : ExtractionSettings} {d : Value} {e : Extracted}

theorem fault?_append_eq_none {xs ys : List Incident} :
    fault? (xs ++ ys) = none ↔ fault? xs = none ∧ fault? ys = none := by
  rw [fault?_append, Option.or_eq_none_iff]

-- A node of the kind of arrays that holds no array would have a step that its path does not show, but it is
-- a fault of the walk when it is the value of a field, and a leaf when it is an element.
mutual
theorem fieldSamples_addressed (path : String) (depth : Nat) : ∀ entries : List (String × Value),
    fault? (fieldIncidents s path depth entries) = none →
      ∀ f ∈ fieldSamples s path depth entries, f.Addressed path ∧ ∀ o ∈ f.objects, o.Addressed
  | [], _, f, hf => by simp [fieldSamples] at hf
  | (key, value) :: entries, h, f, hf => by
    rw [fieldIncidents] at h
    rw [fieldSamples] at hf
    split at h
    · rename_i hhides
      rw [if_pos hhides] at hf
      exact fieldSamples_addressed path depth entries h f hf
    · rename_i hhides
      rw [if_neg hhides] at hf
      rw [fault?_append_eq_none] at h
      rcases List.mem_cons.1 hf with rfl | hf
      · exact fieldSample_addressed key path depth value h.1
      · exact fieldSamples_addressed path depth entries h.2 f hf
theorem fieldSample_addressed (key path : String) (depth : Nat) : ∀ v : Value,
    fault? (valueIncidents s (Path.child path key) depth v) = none →
      (fieldSample s key (Path.child path key) depth v).Addressed path ∧
        ∀ o ∈ (fieldSample s key (Path.child path key) depth v).objects, o.Addressed
  | .sequence items, h => by
    rw [valueIncidents] at h
    have hobjects := elementObjects_addressed (Path.elements (Path.child path key)) depth
      s.arraySampleSize items h
    rw [fieldSample]
    exact ⟨⟨Trail.elements_child path key, fun o ho => (hobjects o ho).1⟩, fun o ho => (hobjects o ho).2⟩
  | .map entries, h => by
    rw [valueIncidents] at h
    rw [fieldSample]
    split
    · rename_i hdepth
      rw [if_pos hdepth, fault?_append_eq_none] at h
      have hfields := fieldSamples_addressed (Path.child path key) (depth + 1) entries h.2
      refine ⟨⟨rfl, fun o ho => ?_⟩, fun o ho => ?_⟩
      · rw [List.mem_singleton.1 ho]
        rfl
      · rw [List.mem_singleton.1 ho]
        exact .mk (fun f hf => (hfields f hf).1) fun f hf => (hfields f hf).2
    · exact ⟨⟨rfl, fun o ho => nomatch ho⟩, fun o ho => nomatch ho⟩
  | .unfit none _, h => by cases h
  | .unfit (some kind) payload, h => by
    cases kind with
    | sequence => cases h
    | _ => exact ⟨⟨rfl, fun o ho => nomatch ho⟩, fun o ho => nomatch ho⟩
  | .null, _ | .bool _, _ | .int _, _ | .float _, _ | .string _, _ | .identifier _, _ | .binary _, _ =>
    ⟨⟨rfl, fun o ho => nomatch ho⟩, fun o ho => nomatch ho⟩
theorem elementObjects_addressed (path : String) (depth : Nat) : ∀ (count : Nat) (items : List Value),
    fault? (elementIncidents s path depth count items) = none →
      ∀ o ∈ elementObjects s path depth count items, o.path = path ∧ o.Addressed
  | _, [], _, o, ho => by simp [elementObjects] at ho
  | 0, _ :: _, _, o, ho => by simp [elementObjects] at ho
  | count + 1, item :: items, h, o, ho => by
    rw [fault?_elementIncidents_succ, Option.or_eq_none_iff] at h
    have hrest := elementObjects_addressed path depth count items h.2
    cases item with
    | map entries =>
      rw [elementObjects] at ho
      split at ho
      · rename_i hdepth
        rcases List.mem_cons.1 ho with rfl | ho
        · have hitem := h.1
          rw [elementIncident, valueIncidents, if_pos hdepth, fault?_append_eq_none] at hitem
          · have hfields := fieldSamples_addressed path (depth + 1) entries hitem.2
            exact ⟨rfl, .mk (fun f hf => (hfields f hf).1) fun f hf => (hfields f hf).2⟩
          all_goals intros; contradiction
        · exact hrest o ho
      · exact hrest o ho
    | _ =>
      simp only [elementObjects] at ho
      exact hrest o ho
end

/-- The fields of a document that is extracted have the paths of their objects with their own steps added. -/
theorem addressed_of_extract (h : extract s d = .ok e) : e.root.Addressed ∧ e.root.path = "" := by
  obtain ⟨hfault, rfl⟩ := extract_ok_iff.1 h
  cases d with
  | map entries =>
    rw [incidents, fault?_append_eq_none] at hfault
    have hfields := fieldSamples_addressed "" 1 entries hfault.2
    exact ⟨.mk (fun f hf => (hfields f hf).1) fun f hf => (hfields f hf).2, rfl⟩
  | _ => refine ⟨.mk (fun f hf => ?_) (fun f hf => ?_), rfl⟩ <;> cases hf

/-- The path of a field spells its trail. -/
theorem path_of_trailed (h : extract s d = .ok e) : ∀ x ∈ e.trailed, x.2.path = x.1.path := by
  obtain ⟨haddressed, hpath⟩ := addressed_of_extract h
  refine ObjectSample.trailed_induct (P := fun t o => o.Addressed ∧ o.path = t.path)
    (Q := fun t f => f.path = t.path) ?_ ?_ [] e.root ⟨haddressed, hpath⟩
  · rintro t o ⟨ho, ht⟩ f hf
    cases ho with
    | mk fields objects =>
      rw [(fields f hf).path, ht]
      rfl
  · rintro t o ⟨ho, ht⟩ f hf o' ho'
    cases ho with
    | mk fields objects =>
      refine ⟨objects f hf o' ho', ?_⟩
      rw [(fields f hf).objects o' ho', (fields f hf).path, ht]
      rfl

end Extraction

/-- The keys of the trails of a document are keys of its fields. -/
theorem Extracted.plain_of_trailed {e : Extracted} (hplain : ∀ x ∈ e.trailed, Path.IsPlainKey x.2.key) :
    ∀ x ∈ e.trailed, ∀ step ∈ x.1, Path.IsPlainKey step.1 := by
  refine ObjectSample.trailed_induct
    (P := fun t o => o.trailed t ⊆ e.trailed ∧ ∀ step ∈ t, Path.IsPlainKey step.1)
    (Q := fun t _ => ∀ step ∈ t, Path.IsPlainKey step.1) ?_ ?_ [] e.root
    ⟨List.Subset.refl _, fun step hstep => (nomatch hstep)⟩
  · rintro t o ⟨ho, ht⟩ f hf
    exact List.forall_mem_cons.2 ⟨hplain _ (ho (ObjectSample.mem_trailed_self t hf)), ht⟩
  · rintro t o ⟨ho, ht⟩ f hf o' ho'
    exact ⟨List.Subset.trans (ObjectSample.trailed_subset t hf ho') ho,
      List.forall_mem_cons.2 ⟨hplain _ (ho (ObjectSample.mem_trailed_self t hf)), ht⟩⟩

namespace Extraction

variable {s : ExtractionSettings} {d : Value} {e : Extracted}

/-- The path of a field tells its trail, if all keys are plain. -/
theorem trail_eq_of_path_eq (h : extract s d = .ok e) (hplain : ∀ x ∈ e.trailed, Path.IsPlainKey x.2.key)
    {x y : Trail × FieldSample} (hx : x ∈ e.trailed) (hy : y ∈ e.trailed) (heq : x.2.path = y.2.path) :
    x.1 = y.1 := by
  rw [path_of_trailed h x hx, path_of_trailed h y hy] at heq
  exact Trail.path_injective (Extracted.plain_of_trailed hplain x hx) (Extracted.plain_of_trailed hplain y hy) heq

/-- Canonical paths of plain keys can be decoded: fields with the same path are reached by the same keys,
which hold arrays in the same places, and the logical path of a field spells these keys alone, so that it
tells all of the trail but the arrays. -/
theorem canonical_paths_decodable (h : extract s d = .ok e)
    (hplain : ∀ x ∈ e.trailed, Path.IsPlainKey x.2.key) :
    ∀ x ∈ e.trailed, ∀ y ∈ e.trailed,
      (x.2.path = y.2.path ↔ x.1 = y.1) ∧
      Path.logical x.2.path = Text.joinWith "." x.1.place.reverse ∧
      (Path.logical x.2.path = Path.logical y.2.path ↔ x.1.place = y.1.place) := by
  intro x hx y hy
  have hxs := Extracted.plain_of_trailed hplain x hx
  have hys := Extracted.plain_of_trailed hplain y hy
  have hxplace : ∀ key ∈ x.1.place, Path.IsPlainKey key := List.forall_mem_map.2 hxs
  have hyplace : ∀ key ∈ y.1.place, Path.IsPlainKey key := List.forall_mem_map.2 hys
  refine ⟨⟨trail_eq_of_path_eq h hplain hx hy, fun htrail => ?_⟩, ?_, ?_⟩
  · rw [path_of_trailed h x hx, path_of_trailed h y hy, htrail]
  · rw [path_of_trailed h x hx, Trail.logical_path hxs, Place.path_eq_joinWith hxplace]
  · rw [path_of_trailed h x hx, path_of_trailed h y hy, Trail.logical_path hxs, Trail.logical_path hys]
    exact ⟨Place.path_injective hxplace hyplace, congrArg Place.path⟩

/-- Keys of single brackets next to markers and dots, once with arrays and once without; a hidden key may be
of any shape. -/
theorem canonical_paths_decodable_brackets :
    let document : Value := .map [
      ("x", .sequence [
        .map [("[", .map [("]", .int 1)]), ("[a", .null)],
        .map [("[", .sequence [.map [("]", .int 2)]]), ("[a", .sequence [])]]),
      ("$.[]", .int 3)]
    ∃ e, extract {} document = .ok e ∧ (∀ x ∈ e.trailed, Path.IsPlainKey x.2.key) ∧
      e.trailed.map (·.2.path) = ["x[]", "x[].[", "x[].[.]", "x[].[a", "x[].[[]", "x[].[[].]", "x[].[a[]"] ∧
      ∀ x ∈ e.trailed, ∀ y ∈ e.trailed,
        (x.2.path = y.2.path ↔ x.1 = y.1) ∧
        Path.logical x.2.path = Text.joinWith "." x.1.place.reverse ∧
        (Path.logical x.2.path = Path.logical y.2.path ↔ x.1.place = y.1.place) := by
  intro document
  obtain ⟨e, he⟩ : ∃ e, extract {} document = .ok e := ⟨_, rfl⟩
  have hfields : ∀ e, extract {} document = .ok e → (∀ x ∈ e.trailed, Path.IsPlainKey x.2.key) ∧
      e.trailed.map (·.2.path) =
        ["x[]", "x[].[", "x[].[.]", "x[].[a", "x[].[[]", "x[].[[].]", "x[].[a[]"] := by
    rintro - ⟨⟩
    exact ⟨by decide +kernel, by decide +kernel⟩
  obtain ⟨hplain, hpaths⟩ := hfields e he
  exact ⟨e, he, hplain, hpaths, canonical_paths_decodable he hplain⟩

end Extraction

end DocSchema
