import DocSchema.Proofs.Extraction.Origin
import DocSchema.Proofs.Extraction.Views
import DocSchema.Proofs.Extraction.Visible

/-!
# Limits of the extraction

Two limits bound what is seen of a document: how many keys may lead to a field, and how many elements of an
array are looked at. An object at the greatest depth is cut off and becomes a leaf; an element of an array is at
the depth of the array. Greater limits show more fields, each at a trail that smaller ones cut off or in an element
that they do not look at, and the fields that both show have the same paths.

- `exists_of_mem_trailed`: a field that is seen under some limits is seen under others that let its trail pass.
- `fault?_incidents_le`: smaller limits meet no fault that greater ones do not meet.
- `limits_only_cut`: limits only cut.
-/

namespace DocSchema.Extraction

open Value (isFitList isFitEntries)

variable {s t : ExtractionSettings}

/-- The same keys stay hidden, and the limits are no greater. -/
structure Tighter (s t : ExtractionSettings) : Prop where
  hiddenStarts : s.hiddenStarts = t.hiddenStarts
  maxDepth : s.maxDepth ≤ t.maxDepth
  arraySampleSize : s.arraySampleSize ≤ t.arraySampleSize

/-! ## Fields of the same objects -/

theorem openedEntries_subset {size size' : Nat} (h : size ≤ size') (v : Value) :
    openedEntries size v ⊆ openedEntries size' v := by
  cases v with
  | sequence items =>
    intro entries hin
    obtain ⟨item, hitem, hin⟩ := List.mem_flatMap.1 hin
    exact List.mem_flatMap_of_mem (List.take_subset_take_left items h hitem) hin
  | _ => exact List.Subset.refl _

/-- The path and the kind of a field do not depend on the limits. -/
theorem path_fieldSample_eq (key path : String) (depth : Nat) (v : Value) :
    (fieldSample s key path depth v).path = (fieldSample t key path depth v).path ∧
      (fieldSample s key path depth v).step = (fieldSample t key path depth v).step := by
  cases v with
  | map entries =>
    rw [fieldSample, fieldSample]
    split <;> split <;> exact ⟨rfl, rfl⟩
  | _ => exact ⟨rfl, rfl⟩

theorem hides_congr (h : s.hiddenStarts = t.hiddenStarts) (key : String) : s.hides key = t.hides key := by
  rw [ExtractionSettings.hides, ExtractionSettings.hides, h]

/-- A field of an object under some limits is a field of it under any others. -/
theorem exists_of_mem_fieldSamples (h : s.hiddenStarts = t.hiddenStarts) {path : String} {depth : Nat}
    {entries : List (String × Value)} {f : FieldSample} (hf : f ∈ fieldSamples s path depth entries) :
    ∃ key path' v, f = fieldSample s key path' depth v ∧
      fieldSample t key path' depth v ∈ fieldSamples t path depth entries := by
  obtain ⟨entry, hentry, hhides, rfl⟩ := mem_fieldSamples_iff.1 hf
  exact ⟨_, _, _, rfl, mem_fieldSamples_iff.2 ⟨entry, hentry, (hides_congr h entry.1).symm.trans hhides, rfl⟩⟩

/-! ## Fields within the limits -/

theorem leaf?_ne_null_or_map {depth : Nat} {v w : Value} (h : leaf? s depth v = some w) :
    w.isNull = false ∧ w.kind? ≠ some .map := by
  rw [leaf?.eq_def] at h
  split at h
  · cases h
  · split at h
    · cases h
    · obtain rfl := Option.some.inj h
      exact ⟨rfl, by decide⟩
  · split at h
    · cases h
    · obtain rfl := Option.some.inj h
      exact ⟨rfl, by decide⟩
  · rename_i hnull hmap hunfit
    obtain rfl := Option.some.inj h
    cases v with
    | null => exact absurd rfl hnull
    | map entries => exact absurd rfl (hmap entries)
    | unfit kind? payload => exact ⟨rfl, fun hkind => hunfit payload (hkind ▸ rfl)⟩
    | _ => exact ⟨rfl, by simp [Value.kind?]⟩

/-- No leaf is a null or an object. -/
theorem leaves_fieldSample {key path : String} {depth : Nat} {v w : Value}
    (hw : w ∈ (fieldSample s key path depth v).leaves) : w.isNull = false ∧ w.kind? ≠ some .map := by
  cases v with
  | sequence items =>
    rw [fieldSample, FieldSample.leaves, leaves, List.mem_filterMap] at hw
    obtain ⟨item, -, hitem⟩ := hw
    exact leaf?_ne_null_or_map hitem
  | map entries =>
    rw [fieldSample] at hw
    split at hw
    · cases hw
    · rw [List.mem_singleton.1 hw]
      exact ⟨rfl, by decide⟩
  | _ =>
    simp only [fieldSample, FieldSample.leaves, Option.mem_toList] at hw
    exact leaf?_ne_null_or_map hw

/-- No field is below more keys than the limit allows, and no leaf is a null or an object. -/
theorem trailed_within (hpos : 0 < s.maxDepth) (entries : List (String × Value)) :
    ∀ x ∈ (extracted s entries).trailed,
      x.1.length ≤ s.maxDepth ∧ ∀ v ∈ x.2.leaves, v.isNull = false ∧ v.kind? ≠ some .map := by
  refine ObjectSample.trailed_induct
    (P := fun up o => up.length < s.maxDepth ∧
      ∃ path entries, o = objectSample s path (up.length + 1) entries)
    (Q := fun u f => u.length ≤ s.maxDepth ∧ ∀ v ∈ f.leaves, v.isNull = false ∧ v.kind? ≠ some .map)
    ?_ ?_ [] _ ⟨hpos, "", entries, rfl⟩
  · rintro up o ⟨hup, path, entries, rfl⟩ f hf
    obtain ⟨entry, -, -, rfl⟩ := mem_fieldSamples_iff.1 hf
    exact ⟨hup, fun v hv => leaves_fieldSample hv⟩
  · rintro up o ⟨hup, path, entries, rfl⟩ f hf o' ho'
    obtain ⟨entry, -, -, rfl⟩ := mem_fieldSamples_iff.1 hf
    obtain ⟨hdepth, entries', -, rfl⟩ := mem_objects_fieldSample_iff.1 ho'
    exact ⟨hdepth, _, entries', rfl⟩

/-- A field that is seen under some limits is seen, with the same path, under others that let its trail pass and
look at no fewer elements. -/
theorem exists_of_mem_trailed (hstarts : s.hiddenStarts = t.hiddenStarts)
    (hsize : s.arraySampleSize ≤ t.arraySampleSize) (entries : List (String × Value)) :
    ∀ x ∈ (extracted s entries).trailed, x.1.length ≤ t.maxDepth →
      ∃ y ∈ (extracted t entries).trailed, y.1 = x.1 ∧ y.2.path = x.2.path := by
  -- the object under the other limits is reached by the same trail, and so are the fields below it
  refine ObjectSample.trailed_induct
    (P := fun up o => ∃ path entries', o = objectSample s path (up.length + 1) entries' ∧
      (up.length < t.maxDepth →
        (objectSample t path (up.length + 1) entries').trailed up ⊆ (extracted t entries).trailed))
    (Q := fun u f => u.length ≤ t.maxDepth →
      ∃ y ∈ (extracted t entries).trailed, y.1 = u ∧ y.2.path = f.path)
    ?_ ?_ [] _ ⟨"", entries, rfl, fun _ => List.Subset.refl _⟩
  · rintro up o ⟨parent, entries', rfl, hsub⟩ f hf hlength
    obtain ⟨key, path, v, rfl, hin⟩ := exists_of_mem_fieldSamples hstarts hf
    obtain ⟨hpath, hstep⟩ := path_fieldSample_eq (s := s) (t := t) key path (up.length + 1) v
    exact ⟨_, hsub hlength (ObjectSample.mem_trailed_self up hin), by rw [hstep], hpath.symm⟩
  · rintro up o ⟨parent, entries', rfl, hsub⟩ f hf o' ho'
    obtain ⟨key, path, v, rfl, hin⟩ := exists_of_mem_fieldSamples hstarts hf
    obtain ⟨hpath, hstep⟩ := path_fieldSample_eq (s := s) (t := t) key path (up.length + 1) v
    obtain ⟨-, entries'', hopened, rfl⟩ := mem_objects_fieldSample_iff.1 ho'
    refine ⟨_, entries'', rfl, fun hdepth => List.Subset.trans ?_ (hsub (Nat.lt_of_succ_lt hdepth))⟩
    rw [hstep, hpath]
    exact ObjectSample.trailed_subset up hin
      (mem_objects_fieldSample_iff.2 ⟨hdepth, entries'', openedEntries_subset hsize v hopened, rfl⟩)

/-! ## Faults within the limits -/

theorem keyFaults_congr (h : s.hiddenStarts = t.hiddenStarts) (entries : List (String × Value)) :
    keyFaults s entries = keyFaults t entries := by
  rw [keyFaults, keyFaults, h]

theorem unfitObject_congr (h : s.hiddenStarts = t.hiddenStarts) (payload : Raw) :
    unfitObject s payload = unfitObject t payload := by
  simp only [unfitObject, h]

mutual
/-- Smaller limits meet no fault that greater ones do not meet. -/
theorem fault?_fieldIncidents_le (hst : Tighter s t) (path : String) (depth : Nat) : ∀ entries : List (String × Value),
    fault? (fieldIncidents t path depth entries) = none → fault? (fieldIncidents s path depth entries) = none
  | [], _ => by
    rw [fieldIncidents]
    rfl
  | (key, value) :: entries, h => by
    rw [fieldIncidents] at h ⊢
    rw [hides_congr hst.hiddenStarts]
    split at h
    · rename_i hhides
      rw [if_pos hhides]
      exact fault?_fieldIncidents_le hst path depth entries h
    · rename_i hhides
      rw [fault?_append_eq_none] at h
      rw [if_neg hhides, fault?_append_eq_none]
      exact ⟨fault?_valueIncidents_le hst _ depth value h.1, fault?_fieldIncidents_le hst path depth entries h.2⟩
theorem fault?_valueIncidents_le (hst : Tighter s t) (path : String) (depth : Nat) : ∀ v : Value,
    fault? (valueIncidents t path depth v) = none → fault? (valueIncidents s path depth v) = none
  | .sequence items, h => by
    rw [valueIncidents] at h ⊢
    exact fault?_elementIncidents_le hst _ depth _ _ items hst.arraySampleSize h
  | .map entries, h => by
    rw [valueIncidents]
    split
    · rename_i hdepth
      rw [valueIncidents, if_pos (Nat.lt_of_lt_of_le hdepth hst.maxDepth), fault?_append_eq_none] at h
      rw [fault?_append_eq_none, keyFaults_congr hst.hiddenStarts]
      exact ⟨h.1, fault?_fieldIncidents_le hst path (depth + 1) entries h.2⟩
    · rfl
  | .unfit none _, h => h
  | .unfit (some kind) payload, h => by
    cases kind with
    | map =>
      rw [valueIncidents]
      split
      · rename_i hdepth
        rw [unfitObject_congr hst.hiddenStarts]
        rwa [valueIncidents, if_pos (Nat.lt_of_lt_of_le hdepth hst.maxDepth)] at h
      · rfl
    | _ => exact h
  | .null, _ | .bool _, _ | .int _, _ | .float _, _ | .string _, _ | .identifier _, _ | .binary _, _ => rfl
theorem fault?_elementIncidents_le (hst : Tighter s t) (path : String) (depth : Nat) :
    ∀ (count count' : Nat) (items : List Value), count ≤ count' → fault? (elementIncidents t path depth count' items) = none →
      fault? (elementIncidents s path depth count items) = none
  | _, _, [], _, _ => by
    rw [elementIncidents]
    rfl
  | 0, _, _ :: _, _, _ => by
    rw [elementIncidents]
    rfl
  | count + 1, 0, _ :: _, hcount, _ => by cases hcount
  | count + 1, count' + 1, item :: items, hcount, h => by
    rw [fault?_elementIncidents_succ, Option.or_eq_none_iff] at h ⊢
    refine ⟨?_, fault?_elementIncidents_le hst path depth count count' items (Nat.le_of_succ_le_succ hcount) h.2⟩
    have hvalue := fault?_valueIncidents_le hst path depth item
    cases item with
    | unfit kind? payload =>
      cases kind? with
      | none => exact h.1
      | some kind =>
        cases kind with
        | sequence => rfl
        | _ => exact hvalue h.1
    | sequence items => rfl
    | _ => exact hvalue h.1
end

theorem keyFaults_eq_nil (htexts : ∀ start ∈ s.hiddenStarts, start.text?.isSome)
    (entries : List (String × Value)) : keyFaults s entries = [] := by
  rw [keyFaults_eq]
  exact List.filterMap_eq_nil_iff.2 fun key _ => by rw [keyFault?_eq_none htexts, Option.map_none]

mutual
/-- Nodes that hold payloads of their kinds have no faults. -/
theorem fault?_fieldIncidents_fit (htexts : ∀ start ∈ s.hiddenStarts, start.text?.isSome)
    (path : String) (depth : Nat) :
    ∀ entries : List (String × Value), isFitEntries entries = true → fault? (fieldIncidents s path depth entries) = none
  | [], _ => by
    rw [fieldIncidents]
    rfl
  | (key, value) :: entries, h => by
    rw [isFitEntries, Bool.and_eq_true] at h
    have hrest := fault?_fieldIncidents_fit htexts path depth entries h.2
    rw [fieldIncidents]
    split
    · exact hrest
    · exact fault?_append_eq_none.2 ⟨fault?_valueIncidents_fit htexts _ depth value h.1, hrest⟩
theorem fault?_valueIncidents_fit (htexts : ∀ start ∈ s.hiddenStarts, start.text?.isSome)
    (path : String) (depth : Nat) : ∀ v : Value, v.isFit = true →
    fault? (valueIncidents s path depth v) = none
  | .sequence items, h => by
    rw [valueIncidents]
    exact fault?_elementIncidents_fit htexts _ depth _ items h
  | .map entries, h => by
    rw [valueIncidents]
    split
    · rw [keyFaults_eq_nil htexts, List.nil_append]
      exact fault?_fieldIncidents_fit htexts path (depth + 1) entries h
    · rfl
  | .unfit _ _, h => by cases h
  | .null, _ | .bool _, _ | .int _, _ | .float _, _ | .string _, _ | .identifier _, _ | .binary _, _ => rfl
theorem fault?_elementIncidents_fit (htexts : ∀ start ∈ s.hiddenStarts, start.text?.isSome)
    (path : String) (depth : Nat) : ∀ (count : Nat) (items : List Value),
    isFitList items = true → fault? (elementIncidents s path depth count items) = none
  | _, [], _ => by
    rw [elementIncidents]
    rfl
  | 0, _ :: _, _ => by
    rw [elementIncidents]
    rfl
  | count + 1, item :: items, h => by
    rw [isFitList, Bool.and_eq_true] at h
    rw [fault?_elementIncidents_succ, Option.or_eq_none_iff]
    refine ⟨?_, fault?_elementIncidents_fit htexts path depth count items h.2⟩
    have hvalue := fault?_valueIncidents_fit htexts path depth item h.1
    cases item with
    | unfit kind? payload => cases h.1
    | sequence items => rfl
    | _ => exact hvalue
end

variable {d : Value} {e : Extracted}

theorem fault?_incidents_le (hst : Tighter s t) (h : fault? (incidents t d) = none) :
    fault? (incidents s d) = none := by
  cases d with
  | map entries =>
    rw [incidents, fault?_append_eq_none] at h ⊢
    rw [keyFaults_congr hst.hiddenStarts]
    exact ⟨h.1, fault?_fieldIncidents_le hst "" 1 entries h.2⟩
  | unfit kind? payload =>
    cases kind? with
    | none => exact h
    | some kind =>
      cases kind with
      | map =>
        rw [incidents, unfitObject_congr hst.hiddenStarts]
        rwa [incidents] at h
      | _ => exact h
  | _ => cases h

/-- An object whose nodes hold payloads of their kinds is extracted, whatever the limits are. -/
theorem exists_extract_of_isFit (htexts : ∀ start ∈ s.hiddenStarts, start.text?.isSome) (hfit : d.isFit = true)
    (hkind : d.kind? = some .map) : ∃ e, extract s d = .ok e := by
  cases d with
  | map entries =>
    have hkeys : fault? (keyFaults s entries) = none := by
      rw [keyFaults_eq_nil htexts]
      rfl
    have hfields := fault?_fieldIncidents_fit htexts "" 1 entries hfit
    exact ⟨_, extract_ok_iff.2 ⟨fault?_append_eq_none.2 ⟨hkeys, hfields⟩, rfl⟩⟩
  | unfit kind? payload => cases hfit
  | _ => cases hkind

/-- The paths of a document are those of the fields that trails lead to. -/
theorem mem_paths_iff_trailed (h : extract s d = .ok e) {path : String} :
    path ∈ e.paths ↔ ∃ x ∈ e.trailed, x.2.path = path := by
  rw [← map_path_inOrder h, Extracted.inOrder, ObjectSample.inOrder, List.map_map, List.mem_map]
  rfl

/-- **Limits only cut.** Every object whose nodes fit is extracted under any limits. No more keys lead to a field
than the limit of depth says, and no leaf is a null or an object. An object that is extracted under greater limits
is extracted under smaller ones, with some of its paths; if as many elements of arrays are looked at, these are
the paths of the fields that few enough keys lead to. -/
theorem limits_only_cut (hpos : 0 < s.maxDepth) (hst : Tighter s t) (d : Value) :
    ((∀ start ∈ s.hiddenStarts, start.text?.isSome) → d.isFit = true → d.kind? = some .map →
      ∃ e', extract t d = .ok e') ∧
    (∀ e, extract s d = .ok e → ∀ x ∈ e.trailed,
      x.1.length ≤ s.maxDepth ∧ ∀ v ∈ x.2.leaves, v.isNull = false ∧ v.kind? ≠ some .map) ∧
    ∀ e', extract t d = .ok e' → ∃ e, extract s d = .ok e ∧ e.paths ⊆ e'.paths ∧
      (s.arraySampleSize = t.arraySampleSize →
        ∀ path, path ∈ e.paths ↔ ∃ x ∈ e'.trailed, x.2.path = path ∧ x.1.length ≤ s.maxDepth) := by
  have hwithin := trailed_within hpos (entriesOf d)
  refine ⟨fun htexts hfit hkind => ?_, fun e he => ?_, fun e' he' => ?_⟩
  · exact exists_extract_of_isFit (hst.hiddenStarts ▸ htexts) hfit hkind
  · obtain ⟨-, rfl⟩ := extract_ok_iff.1 he
    exact hwithin
  · obtain ⟨hfault, rfl⟩ := extract_ok_iff.1 he'
    have he : extract s d = .ok (extracted s (entriesOf d)) :=
      extract_ok_iff.2 ⟨fault?_incidents_le hst hfault, rfl⟩
    have hgreater := exists_of_mem_trailed hst.hiddenStarts hst.arraySampleSize (entriesOf d)
    refine ⟨_, he, fun path hpath => ?_, fun hsame path => ⟨fun hpath => ?_, ?_⟩⟩
    · obtain ⟨x, hx, rfl⟩ := (mem_paths_iff_trailed he).1 hpath
      obtain ⟨y, hy, -, hpath⟩ := hgreater x hx ((hwithin x hx).1.trans hst.maxDepth)
      exact (mem_paths_iff_trailed he').2 ⟨y, hy, hpath⟩
    · obtain ⟨x, hx, rfl⟩ := (mem_paths_iff_trailed he).1 hpath
      obtain ⟨y, hy, htrail, hpath⟩ := hgreater x hx ((hwithin x hx).1.trans hst.maxDepth)
      exact ⟨y, hy, hpath, htrail ▸ (hwithin x hx).1⟩
    · rintro ⟨y, hy, rfl, hlength⟩
      obtain ⟨x, hx, -, hpath⟩ :=
        exists_of_mem_trailed hst.hiddenStarts.symm hsame.ge (entriesOf d) y hy hlength
      exact (mem_paths_iff_trailed he).2 ⟨x, hx, hpath⟩

/-- Two and three keys, and two elements of arrays: objects are cut off below `a.b` and in an array, and an array
in an array is an element. -/
theorem limits_only_cut_two :
    let s : ExtractionSettings := { maxDepth := 2, arraySampleSize := 2 }
    let t : ExtractionSettings := { maxDepth := 3, arraySampleSize := 2 }
    let document : Value := .map [
      ("a", .map [("b", .map [("c", .map [("d", .int 1)])])]),
      ("x", .sequence [.sequence [.int 1], .map [("y", .map [("z", .null)])], .map [("w", .int 2)]])]
    Tighter s t ∧ ∃ e e', extract s document = .ok e ∧ extract t document = .ok e' ∧
      e.paths = ["a", "a.b", "x[]", "x[].y"] ∧
      e'.paths = ["a", "a.b", "a.b.c", "x[]", "x[].y", "x[].y.z"] ∧
      (∀ x ∈ e.trailed, x.1.length ≤ 2 ∧ ∀ v ∈ x.2.leaves, v.isNull = false ∧ v.kind? ≠ some .map) ∧
      ∀ path, path ∈ e.paths ↔ ∃ x ∈ e'.trailed, x.2.path = path ∧ x.1.length ≤ 2 := by
  intro s t document
  have hst : Tighter s t := ⟨rfl, by decide, by decide⟩
  obtain ⟨htotal, hwithin, hcut⟩ := limits_only_cut (by decide : 0 < s.maxDepth) hst document
  obtain ⟨e', he'⟩ := htotal (by decide) rfl rfl
  obtain ⟨e, he, -, hexact⟩ := hcut e' he'
  have hpaths : e.paths = ["a", "a.b", "x[]", "x[].y"] := by
    obtain rfl := (extract_ok_iff.1 he).2
    rfl
  have hpaths' : e'.paths = ["a", "a.b", "a.b.c", "x[]", "x[].y", "x[].y.z"] := by
    obtain rfl := (extract_ok_iff.1 he').2
    rfl
  exact ⟨hst, e, e', he, he', hpaths, hpaths', hwithin e he, hexact rfl⟩

end DocSchema.Extraction
