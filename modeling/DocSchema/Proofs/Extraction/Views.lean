import DocSchema.Proofs.Extraction.DistinctKeys
import DocSchema.Proofs.Extraction.Trail
import Mathlib.Data.List.Infix
import Mathlib.Logic.Function.Iterate

/-!
# Views of a document

The fields of a document are seen in three ways: one by one as the walk gives them out, by their paths,
and by their values under each path. All three show the same fields, but the walk leaves the order of the
document: it gives out the fields of an object before those below them, of which the ones below the last
field come first. Under one path it keeps the order, when keys are distinct and the path tells the trail:
all fields with one path are then below one field of the object.

- `Visit.next`: one step of the walk, with the objects that wait.
- `Visit.next_iterate_walk`: the walk ends, and has then given out the fields of `walk`.
- `Visit.shown_iterate_perm`: what was given out and what waits are the fields of the tree at every step.
- `filter_walk`: under one path the walk is in the order of the document.
- `views_agree`: the three views of a document agree.
-/

namespace DocSchema

namespace ObjectSample

/-! ## The order of the document -/

mutual
/-- Which trail leads to an object is of no account to the fields below it. -/
theorem map_snd_trailed (t u : Trail) : ∀ o : ObjectSample,
    (trailed t o).map Prod.snd = (trailed u o).map Prod.snd
  | .mk _ fields => by
    rw [trailed, trailed]
    exact map_snd_trailedFields t u fields
theorem map_snd_trailedFields (t u : Trail) : ∀ fields : List FieldSample,
    (trailedFields t fields).map Prod.snd = (trailedFields u fields).map Prod.snd
  | [] => by rw [trailedFields, trailedFields]
  | .mk key path kind leaves objects :: fields => by
    have hobjects := map_snd_trailedObjects ((key, kind == .sequence) :: t) ((key, kind == .sequence) :: u) objects
    rw [trailedFields, trailedFields, List.map_cons, List.map_cons, List.map_append, List.map_append, hobjects,
      map_snd_trailedFields t u fields]
theorem map_snd_trailedObjects (t u : Trail) : ∀ objects : List ObjectSample,
    (trailedObjects t objects).map Prod.snd = (trailedObjects u objects).map Prod.snd
  | [] => by rw [trailedObjects, trailedObjects]
  | o :: objects => by
    rw [trailedObjects, trailedObjects, List.map_append, List.map_append, map_snd_trailed t u o,
      map_snd_trailedObjects t u objects]
end

/-- The fields of an object and those below them, in the order of the document: the fields below a field come
before the next field of the object. -/
def inOrder (o : ObjectSample) : List FieldSample :=
  (o.trailed []).map Prod.snd

/-- A field and the fields below it, in the order of the document. -/
def fieldInOrder (f : FieldSample) : List FieldSample :=
  f :: f.objects.flatMap inOrder

theorem inOrder_eq (o : ObjectSample) : o.inOrder = o.fields.flatMap fieldInOrder := by
  rw [inOrder, trailed_eq, trailedFields_eq, List.map_flatMap]
  refine List.flatMap_congr fun f _ => ?_
  rw [List.map_cons, List.map_flatMap, fieldInOrder]
  refine congrArg _ (List.flatMap_congr fun o _ => ?_)
  exact map_snd_trailed _ _ o

/-! ## The walk step by step -/

theorem nested_cons (f : FieldSample) (fields : List FieldSample) :
    nested (f :: fields) = nested fields ++ f.objects := by
  rw [nested, nested, List.reverse_cons, List.flatMap_append, List.flatMap_singleton]

/-- A walk under way: the fields that were given out, the fields that are left of the object it is at, and the
objects that wait. -/
structure Visit where
  given : List FieldSample
  left : List FieldSample
  waiting : List ObjectSample

namespace Visit

/-- Gives out the next field, whose objects wait before all others, or goes on to the first object that
waits. -/
def next : Visit → Visit
  | ⟨given, f :: left, waiting⟩ => ⟨given ++ [f], left, f.objects ++ waiting⟩
  | ⟨given, [], o :: waiting⟩ => ⟨given, o.fields, waiting⟩
  | ⟨given, [], []⟩ => ⟨given, [], []⟩

/-- The fields of an object are given out one by one. -/
theorem next_iterate_fields (given fields : List FieldSample) (waiting : List ObjectSample) :
    next^[fields.length] ⟨given, fields, waiting⟩ = ⟨given ++ fields, [], nested fields ++ waiting⟩ := by
  induction fields generalizing given waiting with
  | nil => rw [List.append_nil]; rfl
  | cons f fields ih =>
    rw [List.length_cons, Function.iterate_succ_apply, next, ih, nested_cons, List.append_assoc,
      List.append_assoc]
    rfl

/-- A walk ends, and has then given out the fields of all objects that waited. -/
theorem next_iterate_walk (given : List FieldSample) (waiting : List ObjectSample) :
    ∃ n, next^[n] ⟨given, [], waiting⟩ = ⟨given ++ walk waiting, [], []⟩ := by
  induction waiting using walk.induct generalizing given with
  | case1 => exact ⟨0, by rw [walk, List.append_nil]; rfl⟩
  | case2 path fields waiting ih =>
    obtain ⟨n, hn⟩ := ih (given ++ fields)
    refine ⟨n + fields.length + 1, ?_⟩
    rw [Function.iterate_succ_apply, next, ObjectSample.fields, Function.iterate_add_apply,
      next_iterate_fields, hn, walk, List.append_assoc]

/-- What was given out, and the fields of what is left and of what waits. -/
def shown (v : Visit) : List FieldSample :=
  v.given ++ (v.left.flatMap fieldInOrder ++ v.waiting.flatMap inOrder)

/-- A step loses no field and gives none out twice. -/
theorem shown_next_perm (v : Visit) : v.next.shown.Perm v.shown := by
  obtain ⟨given, left, waiting⟩ := v
  cases left with
  | cons f left =>
    rw [shown, shown, next]
    dsimp only
    rw [List.flatMap_append, List.flatMap_cons, fieldInOrder, List.append_assoc, List.singleton_append,
      List.cons_append, List.cons_append, List.append_assoc]
    -- what is below the field comes before the fields that are left
    exact ((List.perm_append_comm_assoc _ _ _).cons f).append_left given
  | nil =>
    cases waiting with
    | nil => exact .refl _
    | cons o waiting =>
      rw [shown, shown, next]
      dsimp only
      rw [List.flatMap_nil, List.nil_append, List.flatMap_cons, inOrder_eq o]

theorem shown_iterate_perm (n : Nat) (v : Visit) : (next^[n] v).shown.Perm v.shown := by
  induction n generalizing v with
  | zero => exact .refl _
  | succ n ih => exact (ih v.next).trans v.shown_next_perm

end Visit

/-- The walk gives out each field of the trees as often as it is there. -/
theorem walk_perm (objects : List ObjectSample) : (walk objects).Perm (objects.flatMap inOrder) := by
  obtain ⟨n, hn⟩ := Visit.next_iterate_walk [] objects
  have hshown := Visit.shown_iterate_perm n ⟨[], [], objects⟩
  rw [hn] at hshown
  simpa [Visit.shown] using hshown

/-! ## The order under one path -/

theorem walk_append (xs ys : List ObjectSample) : walk (xs ++ ys) = walk xs ++ walk ys := by
  induction xs using walk.induct with
  | case1 => rw [walk, List.nil_append, List.nil_append]
  | case2 path fields rest ih =>
    rw [List.cons_append, walk, walk, ← List.append_assoc, ih, List.append_assoc]

theorem walk_eq_flatMap (objects : List ObjectSample) : walk objects = objects.flatMap fun o => walk [o] := by
  induction objects with
  | nil => rw [walk, List.flatMap_nil]
  | cons o objects ih => rw [← List.singleton_append, walk_append, ih, List.singleton_append, List.flatMap_cons]

/-- The walk over one object: its fields, and then what is below them, from the last field on. -/
theorem walk_singleton (o : ObjectSample) :
    walk [o] = o.fields ++ o.fields.reverse.flatMap fun f => walk f.objects := by
  obtain ⟨path, fields⟩ := o
  rw [walk, List.append_nil, nested, walk_eq_flatMap, List.flatMap_assoc, ObjectSample.fields]
  exact congrArg _ (List.flatMap_congr fun f _ => (walk_eq_flatMap f.objects).symm)

/-- If at most one element of a list has anything to give, it does not matter whether all give their first part
before any gives its second, nor who begins with the second. -/
theorem flatMap_append_flatMap_reverse {α β : Type} {g h : α → List β} {l : List α}
    (hone : l.Pairwise fun a b => g a ++ h a = [] ∨ g b ++ h b = []) :
    l.flatMap g ++ l.reverse.flatMap h = l.flatMap fun a => g a ++ h a := by
  induction hone with
  | nil => rfl
  | @cons a l hfirst _ ih =>
    rw [List.flatMap_cons, List.flatMap_cons, List.reverse_cons, List.flatMap_append, List.flatMap_singleton, ← ih]
    by_cases ha : g a ++ h a = []
    · obtain ⟨hg, hh⟩ := List.append_eq_nil_iff.1 ha
      rw [hg, hh, List.nil_append, List.append_nil, List.append_nil, List.nil_append]
    · have hrest : ∀ b ∈ l, g b ++ h b = [] := fun b hb => (hfirst b hb).resolve_left ha
      have hg : l.flatMap g = [] :=
        List.flatMap_eq_nil_iff.2 fun b hb => (List.append_eq_nil_iff.1 (hrest b hb)).1
      have hh : l.reverse.flatMap h = [] :=
        List.flatMap_eq_nil_iff.2 fun b hb => (List.append_eq_nil_iff.1 (hrest b (List.mem_reverse.1 hb))).2
      rw [hg, hh, List.append_nil, List.nil_append, List.append_nil, List.append_nil]

/-- The trail that leads to an object is the beginning of the trails of the fields below it. -/
theorem suffix_of_mem_trailed (up : Trail) (o : ObjectSample) : ∀ x ∈ o.trailed up, up <:+ x.1 :=
  trailed_induct (P := fun t _ => up <:+ t) (Q := fun t _ => up <:+ t)
    (fun _ _ ht _ _ => ht.trans (List.suffix_cons _ _)) (fun _ _ ht _ _ _ _ => ht.trans (List.suffix_cons _ _))
    up o (List.suffix_refl up)

/-- The trail of what is below a field goes on from that of the field. -/
theorem exists_trail_of_mem_fieldInOrder (up : Trail) {o : ObjectSample} {f g : FieldSample} (hf : f ∈ o.fields)
    (hg : g ∈ fieldInOrder f) : ∃ t, (t, g) ∈ o.trailed up ∧ f.step :: up <:+ t := by
  rcases List.mem_cons.1 hg with rfl | hg
  · exact ⟨_, mem_trailed_self up hf, List.suffix_refl _⟩
  · obtain ⟨o', ho', hg⟩ := List.mem_flatMap.1 hg
    rw [inOrder, map_snd_trailed [] (f.step :: up)] at hg
    obtain ⟨x, hx, rfl⟩ := List.mem_map.1 hg
    exact ⟨x.1, trailed_subset up hf ho' hx, suffix_of_mem_trailed _ o' x hx⟩

section OnePath

variable {o : ObjectSample} (up : Trail)
  (htrail : ∀ x ∈ o.trailed up, ∀ y ∈ o.trailed up, x.2.path = y.2.path → x.1 = y.1)

include htrail

/-- If the path tells the trail, fields with the same path are below fields of the object with the same key. -/
theorem key_eq_of_path_eq {f f' g g' : FieldSample} (hf : f ∈ o.fields) (hf' : f' ∈ o.fields)
    (hg : g ∈ fieldInOrder f) (hg' : g' ∈ fieldInOrder f') (heq : g.path = g'.path) : f.key = f'.key := by
  obtain ⟨t, ht, hsuffix⟩ := exists_trail_of_mem_fieldInOrder up hf hg
  obtain ⟨t', ht', hsuffix'⟩ := exists_trail_of_mem_fieldInOrder up hf' hg'
  obtain rfl : t = t' := htrail _ ht _ ht' heq
  have hsteps := (List.suffix_of_suffix_length_le hsuffix hsuffix' (le_refl _)).eq_of_length rfl
  exact congrArg Prod.fst (List.cons.inj hsteps).1

/-- Under one path the walk keeps the order of the document, if keys are distinct and the path tells the trail.
Then all fields with that path are below one field of the object, or are that field. -/
theorem filter_walk (hkeyed : o.Keyed) (path : String) :
    (walk [o]).filter (·.path = path) = o.inOrder.filter (·.path = path) := by
  induction hkeyed generalizing up with
  | @mk o distinct _ ih =>
    have hbelow : ∀ f ∈ o.fields,
        (walk f.objects).filter (·.path = path) = (f.objects.flatMap inOrder).filter (·.path = path) := by
      intro f hf
      rw [walk_eq_flatMap, List.filter_flatMap, List.filter_flatMap]
      refine List.flatMap_congr fun o' ho' => ih f hf o' ho' (f.step :: up) fun x hx y hy => ?_
      exact htrail x (trailed_subset up hf ho' hx) y (trailed_subset up hf ho' hy)
    have hfield (f : FieldSample) : [f].filter (·.path = path) ++
        (f.objects.flatMap inOrder).filter (·.path = path) = (fieldInOrder f).filter (·.path = path) :=
      (List.filter_append _ _).symm
    have hone : o.fields.Pairwise fun f f' =>
        (fieldInOrder f).filter (·.path = path) = [] ∨ (fieldInOrder f').filter (·.path = path) = [] := by
      refine (List.pairwise_map.1 distinct).imp_of_mem fun {f f'} hf hf' hne => ?_
      refine or_iff_not_imp_left.2 fun hnot => List.filter_eq_nil_iff.2 fun g' hg' hpath' => hnot ?_
      refine List.filter_eq_nil_iff.2 fun g hg hpath => hne (key_eq_of_path_eq up htrail hf hf' hg hg' ?_)
      exact (of_decide_eq_true hpath).trans (of_decide_eq_true hpath').symm
    calc (walk [o]).filter (·.path = path)
      _ = o.fields.flatMap (fun f => [f].filter (·.path = path)) ++
            o.fields.reverse.flatMap fun f => (f.objects.flatMap inOrder).filter (·.path = path) := by
        rw [walk_singleton, List.filter_append, List.filter_flatMap]
        refine congrArg₂ _ ?_ (List.flatMap_congr fun f hf => hbelow f (List.mem_reverse.1 hf))
        rw [← List.filter_flatMap, List.flatMap_singleton']
      _ = o.fields.flatMap fun f => (fieldInOrder f).filter (·.path = path) := by
        rw [flatMap_append_flatMap_reverse (by simpa only [hfield] using hone)]
        exact List.flatMap_congr fun f _ => hfield f
      _ = o.inOrder.filter (·.path = path) := by rw [inOrder_eq, List.filter_flatMap]

end OnePath

end ObjectSample

/-! ## Paths -/

namespace Extraction

open ObjectSample (inOrder fieldInOrder)

variable {s : ExtractionSettings}

mutual
/-- Paths are gathered in the order of the document, one for each field. -/
theorem map_path_fieldSamples (path : String) (depth : Nat) : ∀ entries : List (String × Value),
    ((fieldSamples s path depth entries).flatMap fieldInOrder).map FieldSample.path =
      fieldPaths s path depth entries
  | [] => by rw [fieldSamples, fieldPaths, List.flatMap_nil, List.map_nil]
  | (key, value) :: entries => by
    rw [fieldSamples, fieldPaths]
    split
    · exact map_path_fieldSamples path depth entries
    · rw [List.flatMap_cons, List.map_append, map_path_fieldSample key _ depth value,
        map_path_fieldSamples path depth entries]
theorem map_path_fieldSample (key path : String) (depth : Nat) : ∀ v : Value,
    (fieldInOrder (fieldSample s key path depth v)).map FieldSample.path = valuePaths s path depth v
  | .sequence items => by
    rw [fieldSample, valuePaths, fieldInOrder, List.map_cons]
    exact congrArg _ (map_path_elementObjects _ depth s.arraySampleSize items)
  | .map entries => by
    rw [fieldSample, valuePaths]
    split
    · rw [fieldInOrder, List.map_cons, ← map_path_fieldSamples path (depth + 1) entries]
      refine congrArg _ ?_
      rw [FieldSample.objects, List.flatMap_singleton, ObjectSample.inOrder_eq]
      rfl
    · rfl
  | .null | .bool _ | .int _ | .float _ | .string _ | .identifier _ | .binary _ | .unfit _ _ => by
    simp [fieldSample, valuePaths, fieldInOrder, FieldSample.path, FieldSample.objects]
theorem map_path_elementObjects (path : String) (depth : Nat) : ∀ (count : Nat) (items : List Value),
    ((elementObjects s path depth count items).flatMap inOrder).map FieldSample.path =
      elementPaths s path depth count items
  | _, [] => by rw [elementObjects, elementPaths, List.flatMap_nil, List.map_nil]
  | 0, _ :: _ => by rw [elementObjects, elementPaths, List.flatMap_nil, List.map_nil]
  | count + 1, item :: items => by
    have hrest := map_path_elementObjects path depth count items
    cases item with
    | map entries =>
      rw [elementObjects, elementPaths]
      split
      · rw [List.flatMap_cons, List.map_append, hrest, ObjectSample.inOrder_eq]
        exact congrArg (· ++ _) (map_path_fieldSamples path (depth + 1) entries)
      · exact hrest
    | _ => simpa only [elementObjects, elementPaths] using hrest
end

end Extraction

namespace Extracted

/-- The fields of a document in its order: the fields below a field come before the next field of the object. -/
def inOrder (e : Extracted) : List FieldSample :=
  e.root.inOrder

/-- The values of a document at a path, in its order. -/
def valuesAt (e : Extracted) (path : String) : List Value :=
  (e.inOrder.filter (·.path = path)).flatMap FieldSample.values

theorem walk_perm_inOrder (e : Extracted) : e.walk.Perm e.inOrder := by
  have hperm := ObjectSample.walk_perm [e.root]
  rwa [List.flatMap_singleton] at hperm

/-! ## Values by path -/

/-- Values are added to those that are held under their paths. -/
theorem get?_gather (path : String) (fields : List FieldSample) (t : Table (List Value)) :
    (fields.foldl (fun t f => t.upsert f.path fun held => held.getD [] ++ f.values) t).get? path =
      if path ∈ fields.map FieldSample.path then
        some ((t.get? path).getD [] ++ (fields.filter (·.path = path)).flatMap FieldSample.values)
      else t.get? path := by
  induction fields generalizing t with
  | nil => rfl
  | cons f fields ih =>
    rw [List.foldl_cons, ih, Table.get?_upsert, List.map_cons]
    by_cases hpath : f.path = path
    · have hkeep : (f :: fields).filter (·.path = path) = f :: fields.filter (·.path = path) :=
        List.filter_cons_of_pos (decide_eq_true hpath)
      rw [if_pos hpath.symm, if_pos (List.mem_cons.2 (.inl hpath.symm)), hkeep, List.flatMap_cons,
        Option.getD_some, hpath, List.append_assoc]
      split
      · rfl
      · rename_i hnone
        have hnil : fields.filter (·.path = path) = [] :=
          List.filter_eq_nil_iff.2 fun g hg hgp => hnone (List.mem_map.2 ⟨g, hg, of_decide_eq_true hgp⟩)
        rw [hnil, List.flatMap_nil, List.append_nil]
    · have hdrop : (f :: fields).filter (·.path = path) = fields.filter (·.path = path) :=
        List.filter_cons_of_neg fun h => hpath (of_decide_eq_true h)
      have hne : ¬ path = f.path := fun heq => hpath heq.symm
      rw [if_neg hne, hdrop]
      simp only [List.mem_cons, hne, false_or]

theorem get?_valuesByPath (e : Extracted) (path : String) :
    e.valuesByPath.get? path =
      if path ∈ e.walk.map FieldSample.path then
        some ((e.walk.filter (·.path = path)).flatMap FieldSample.values)
      else none :=
  get?_gather path e.walk .empty

end Extracted

namespace Extraction

variable {s : ExtractionSettings} {d : Value} {e : Extracted}

/-- The paths of a document are those of its fields, in its order. -/
theorem map_path_inOrder (h : extract s d = .ok e) : e.inOrder.map FieldSample.path = e.paths := by
  rw [← (extract_ok_iff.1 h).2, Extracted.inOrder, ObjectSample.inOrder_eq]
  exact map_path_fieldSamples "" 1 (entriesOf d)

/-- Under one path the walk over a document of plain keys keeps its order. -/
theorem filter_walk_of_plain (h : extract s d = .ok e) (hkeys : d.hasDistinctKeys = true)
    (hplain : ∀ f ∈ e.inOrder, Path.IsPlainKey f.key) (path : String) :
    e.walk.filter (·.path = path) = e.inOrder.filter (·.path = path) := by
  refine ObjectSample.filter_walk [] (fun x hx y hy => ?_) (keyed_of_extract h hkeys) path
  exact trail_eq_of_path_eq h (fun x hx => hplain x.2 (List.mem_map_of_mem hx)) hx hy

/-- **The views of a document agree.** The walk ends after it has given out each field of the tree once, the
paths of these fields are the paths of the document, and the table of values has just these paths as keys, each
with the nulls and leaves that the fields with this path hold. If all keys are plain and no object has a key twice,
the values under each path are in the order of the document, although the walk leaves it. -/
theorem views_agree :
    (∀ (s : ExtractionSettings) (d : Value) (e : Extracted), extract s d = .ok e →
      (∃ n, ObjectSample.Visit.next^[n] ⟨[], [], [e.root]⟩ = ⟨e.walk, [], []⟩) ∧
      e.walk.Perm e.inOrder ∧
      (∀ path, path ∈ e.paths ↔ ∃ f ∈ e.walk, f.path = path) ∧
      (∀ path, path ∈ e.valuesByPath.keys ↔ path ∈ e.paths) ∧
      (∀ path values, e.valuesByPath.get? path = some values → values.Perm (e.valuesAt path)) ∧
      (d.hasDistinctKeys = true → (∀ f ∈ e.inOrder, Path.IsPlainKey f.key) →
        ∀ path values, e.valuesByPath.get? path = some values → values = e.valuesAt path)) ∧
    ∃ (s : ExtractionSettings) (d : Value) (e : Extracted), extract s d = .ok e ∧
      d.hasDistinctKeys = true ∧ (∀ f ∈ e.inOrder, Path.IsPlainKey f.key) ∧
      e.walk.map FieldSample.path ≠ e.inOrder.map FieldSample.path := by
  refine ⟨fun s d e h => ?_, ?_⟩
  · have hpaths (path : String) : path ∈ e.paths ↔ ∃ f ∈ e.walk, f.path = path := by
      rw [← map_path_inOrder h, ← (e.walk_perm_inOrder.map FieldSample.path).mem_iff, List.mem_map]
    have hvalues {path : String} {values : List Value} (hget : e.valuesByPath.get? path = some values) :
        values = (e.walk.filter (·.path = path)).flatMap FieldSample.values := by
      rw [e.get?_valuesByPath] at hget
      split at hget
      · exact (Option.some.inj hget).symm
      · cases hget
    refine ⟨?_, e.walk_perm_inOrder, hpaths, fun path => ?_, fun path values hget => ?_,
      fun hkeys hplain path values hget => ?_⟩
    · exact ObjectSample.Visit.next_iterate_walk [] [e.root]
    · rw [Table.mem_keys_iff, e.get?_valuesByPath, hpaths, ← List.mem_map]
      split <;> simp [*]
    · rw [hvalues hget]
      exact (e.walk_perm_inOrder.filter _).flatMap_right _
    · rw [hvalues hget, filter_walk_of_plain h hkeys hplain, Extracted.valuesAt]
  · refine ⟨{}, .map [("a", .map [("b", .int 1)]), ("c", .int 2)], _, rfl, rfl, ?_, ?_⟩
    · decide +kernel
    · decide +kernel

/-- Arrays of objects in arrays of objects: the walk goes into `d` before it goes into `a`, and keeps the values of
one path in order. -/
theorem views_agree_nested :
    let document : Value := .map [
      ("a", .sequence [
        .map [("b", .int 1), ("c", .sequence [.null, .map [("b", .string "x")], .string "y"])],
        .map [("b", .null), ("b]", .bool true)]]),
      ("d", .map [("b", .null)]), ("e", .int 3)]
    ∃ e, extract {} document = .ok e ∧ document.hasDistinctKeys = true ∧
      (∀ f ∈ e.inOrder, Path.IsPlainKey f.key) ∧
      e.walk.map FieldSample.path =
        ["a[]", "d", "e", "d.b", "a[].b", "a[].c[]", "a[].c[].b", "a[].b", "a[].b]"] ∧
      e.inOrder.map FieldSample.path =
        ["a[]", "a[].b", "a[].c[]", "a[].c[].b", "a[].b", "a[].b]", "d", "d.b", "e"] ∧
      e.walk.Perm e.inOrder ∧
      e.valuesByPath.get? "a[].b" = some (e.valuesAt "a[].b") ∧ e.valuesAt "a[].b" = [.int 1, .null] := by
  intro document
  obtain ⟨e, he⟩ : ∃ e, extract {} document = .ok e := ⟨_, rfl⟩
  have hconcrete : ∀ e, extract {} document = .ok e → (∀ f ∈ e.inOrder, Path.IsPlainKey f.key) ∧
      e.walk.map FieldSample.path =
        ["a[]", "d", "e", "d.b", "a[].b", "a[].c[]", "a[].c[].b", "a[].b", "a[].b]"] ∧
      e.inOrder.map FieldSample.path =
        ["a[]", "a[].b", "a[].c[]", "a[].c[].b", "a[].b", "a[].b]", "d", "d.b", "e"] ∧
      "a[].b" ∈ e.paths ∧ e.valuesAt "a[].b" = [.int 1, .null] := by
    rintro - ⟨⟩
    exact ⟨by decide +kernel, by decide +kernel, by decide +kernel, by decide +kernel, rfl⟩
  obtain ⟨hplain, hwalk, horder, hpath, hat⟩ := hconcrete e he
  obtain ⟨-, hperm, -, hkeys, -, hvalues⟩ := views_agree.1 {} document e he
  obtain ⟨values, hget⟩ := Option.isSome_iff_exists.1 (Table.mem_keys_iff.1 ((hkeys _).2 hpath))
  have hsame := hvalues (by decide +kernel) hplain "a[].b" values hget
  exact ⟨e, he, by decide +kernel, hplain, hwalk, horder, hperm, hsame ▸ hget, hat⟩

end Extraction

end DocSchema
