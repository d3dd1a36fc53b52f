import DocSchema.Proofs.Extraction.Regular
import Mathlib.Data.List.Infix

/-!
# Plain keys

A key is plain when it can be told from the marks of a path: it is not empty and has neither a dot nor
an array marker. Of objects below plain keys, the logical path tells the place.

- `Path.logical_child`, `Path.logical_elements`: the logical path of a field.
- `Place.path_injective`: places of plain keys with the same path are the same.
- `logical_path_of_placed`, `logical_path_of_field`: the logical paths of objects and fields are those of
  their places.
-/

namespace DocSchema

namespace Path

/-- A key that can be told from the marks of a path. -/
structure IsPlainKey (key : String) : Prop where
  nonempty : key ≠ ""
  dotless : '.' ∉ key.toList
  unmarked : ¬ arrayMarker.toList <:+: key.toList

instance (key : String) : Decidable (IsPlainKey key) :=
  decidable_of_iff (key ≠ "" ∧ '.' ∉ key.toList ∧ ¬ arrayMarker.toList <:+: key.toList)
    ⟨fun h => ⟨h.1, h.2.1, h.2.2⟩, fun h => ⟨h.nonempty, h.dotless, h.unmarked⟩⟩

/-! ## Array markers -/

/-- A text without its array markers. -/
def strip (text : List Char) : List Char :=
  Text.replaceAll ['[', ']'] [] text

@[simp]
theorem strip_nil : strip [] = [] :=
  Text.replaceAll_nil _ _

theorem strip_marker (text : List Char) : strip ('[' :: ']' :: text) = strip text := by
  rw [strip, Text.replaceAll]
  rfl

theorem strip_cons {c : Char} {text : List Char} (h : ∀ rest, c :: text ≠ '[' :: ']' :: rest) :
    strip (c :: text) = c :: strip text := by
  rw [strip, Text.replaceAll]
  by_cases hc : '[' = c
  · subst hc
    rw [if_pos rfl]
    cases text with
    | nil => rfl
    | cons d text =>
      have hd : ']' ≠ d := fun hd => h text (by rw [hd])
      have hnone : Text.afterStart? [']'] (d :: text) = none := by rw [Text.afterStart?, if_neg hd]
      split
      · rename_i hsome
        rw [hnone] at hsome
        cases hsome
      · rfl
  · rw [if_neg hc]
    rfl

/-- No marker begins at the end of a text if what follows does not go on with a bracket. -/
theorem strip_append (text : List Char) {rest : List Char} (h : ∀ t, rest ≠ ']' :: t) :
    strip (text ++ rest) = strip text ++ strip rest := by
  induction hn : text.length using Nat.strongRecOn generalizing text with
  | _ n ih =>
    subst hn
    cases text with
    | nil => rw [strip_nil, List.nil_append, List.nil_append]
    | cons c text =>
      by_cases hm : ∃ t, c :: text = '[' :: ']' :: t
      · obtain ⟨t, ht⟩ := hm
        have hlt : t.length < (c :: text).length := by
          rw [ht, List.length_cons, List.length_cons]
          omega
        rw [ht, List.cons_append, List.cons_append, strip_marker, strip_marker]
        exact ih t.length hlt t rfl
      · have hm' : ∀ t, c :: text ≠ '[' :: ']' :: t := fun t ht => hm ⟨t, ht⟩
        have happend : ∀ t, c :: (text ++ rest) ≠ '[' :: ']' :: t := by
          intro t ht
          cases text with
          | nil => exact h t (List.cons.inj ht).2
          | cons d text =>
            simp only [List.cons_append, List.cons.injEq] at ht
            exact hm' text (by rw [ht.1, ht.2.1])
        rw [List.cons_append, strip_cons happend, strip_cons hm', ih text.length (by simp) text rfl]
        rfl

/-- A text without a marker stays as it is. -/
theorem strip_of_unmarked {text : List Char} (h : ¬ ['[', ']'] <:+: text) : strip text = text := by
  induction text with
  | nil => exact strip_nil
  | cons c text ih =>
    rw [strip_cons fun rest hrest => h ⟨[], rest, hrest.symm⟩,
      ih fun hin => h (hin.trans (List.suffix_cons c text).isInfix)]

/-! ## Logical paths -/

theorem toList_logical (path : String) : (logical path).toList = strip path.toList := by
  rw [logical, Text.replace, String.toList_ofList]
  rfl

theorem logical_empty : logical "" = "" := by
  apply String.toList_inj.1
  rw [toList_logical]
  exact strip_nil

/-- The elements of an array have the logical path of the array. -/
theorem logical_elements (path : String) : logical (elements path) = logical path := by
  apply String.toList_inj.1
  rw [toList_logical, toList_logical, elements, String.toList_append]
  rw [strip_append _ (fun t h => by cases h)]
  rw [show arrayMarker.toList = ['[', ']'] from rfl, strip_marker, strip_nil, List.append_nil]

/-- A plain key stands in a logical path as it is. -/
theorem logical_child {path key : String} (hkey : IsPlainKey key) (hpath : path = "" ↔ logical path = "") :
    logical (child path key) = child (logical path) key := by
  have hstrip : strip key.toList = key.toList := strip_of_unmarked hkey.unmarked
  rw [child, child]
  by_cases hp : path = ""
  · rw [if_pos hp, if_pos (hpath.1 hp)]
    apply String.toList_inj.1
    rw [toList_logical, hstrip]
  · rw [if_neg hp, if_neg fun hl => hp (hpath.2 hl)]
    apply String.toList_inj.1
    have hdot : strip ('.' :: key.toList) = '.' :: key.toList := by
      rw [strip_cons fun rest h => (by cases h), hstrip]
    have hlist : (path ++ "." ++ key).toList = path.toList ++ '.' :: key.toList := by simp
    rw [toList_logical, hlist, strip_append _ (fun t h => by cases h), hdot, ← toList_logical]
    simp

theorem child_ne_empty {path key : String} (hkey : key ≠ "") : child path key ≠ "" := by
  rw [child]
  split
  · exact hkey
  · intro h
    have := congrArg String.toList h
    simp at this

end Path

/-! ## Paths of places -/

namespace Place

/-- Texts without a mark in front of their first mark, the mark, and what follows it, can be told apart. -/
theorem append_cons_inj (isMark : Char → Prop) {c d : Char} {u v x y : List Char}
    (hu : ∀ a ∈ u, ¬ isMark a) (hv : ∀ a ∈ v, ¬ isMark a) (hc : isMark c) (hd : isMark d)
    (h : u ++ c :: x = v ++ d :: y) : u = v ∧ c = d ∧ x = y := by
  induction u generalizing v with
  | nil =>
    cases v with
    | nil => exact ⟨rfl, List.cons.inj h⟩
    | cons b v => exact absurd ((List.cons.inj h).1 ▸ hc) (hv b List.mem_cons_self)
  | cons a u ih =>
    cases v with
    | nil => exact absurd ((List.cons.inj h).1 ▸ hd) (hu a List.mem_cons_self)
    | cons b v =>
      obtain ⟨rfl, hrest⟩ := List.cons.inj h
      obtain ⟨rfl, hmark⟩ := ih (fun b hb => hu b (List.mem_cons_of_mem _ hb))
        (fun b hb => hv b (List.mem_cons_of_mem _ hb)) hrest
      exact ⟨rfl, hmark⟩

/-- The last key of a path can be told from what leads to it, if it has no dot. -/
theorem child_inj_of_dotless {path path' key key' : String} (hkey : '.' ∉ key.toList)
    (hkey' : '.' ∉ key'.toList) (h : Path.child path key = Path.child path' key') :
    path = path' ∧ key = key' := by
  have happend (path key : String) : (path ++ "." ++ key).toList = path.toList ++ '.' :: key.toList := by
    simp
  have hdot {path key : String} : '.' ∈ (path ++ "." ++ key).toList := by
    rw [happend]
    simp
  have hnot {key : String} (hkey : '.' ∉ key.toList) : ∀ a ∈ key.toList.reverse, ¬ a = '.' := by
    rintro a ha rfl
    exact hkey (List.mem_reverse.1 ha)
  rw [Path.child, Path.child] at h
  split at h <;> split at h
  · rename_i hp hp'
    exact ⟨hp.trans hp'.symm, h⟩
  · exact absurd (h ▸ hdot) hkey
  · exact absurd (h ▸ hdot) hkey'
  · have hlist := congrArg List.reverse (congrArg String.toList h)
    rw [happend, happend] at hlist
    simp only [List.reverse_append, List.reverse_cons, List.append_assoc, List.singleton_append] at hlist
    obtain ⟨hk, -, hp⟩ := append_cons_inj (· = '.') (hnot hkey) (hnot hkey') rfl rfl hlist
    exact ⟨String.toList_inj.1 (List.reverse_inj.1 hp), String.toList_inj.1 (List.reverse_inj.1 hk)⟩

/-- The last key of a path can be told from what leads to it. -/
theorem child_inj {path path' key key' : String} (hkey : Path.IsPlainKey key)
    (hkey' : Path.IsPlainKey key') (h : Path.child path key = Path.child path' key') :
    path = path' ∧ key = key' :=
  child_inj_of_dotless hkey.dotless hkey'.dotless h

theorem path_eq_empty_iff {p : Place} (h : ∀ key ∈ p, Path.IsPlainKey key) : p.path = "" ↔ p = [] := by
  cases p with
  | nil => simp [path]
  | cons key up =>
    have hne : path (key :: up) ≠ "" := Path.child_ne_empty (h key List.mem_cons_self).nonempty
    simp [hne]

/-- Places of plain keys with the same path are the same. -/
theorem path_injective {p q : Place} (hp : ∀ key ∈ p, Path.IsPlainKey key)
    (hq : ∀ key ∈ q, Path.IsPlainKey key) (h : p.path = q.path) : p = q := by
  induction p generalizing q with
  | nil => exact ((path_eq_empty_iff hq).1 h.symm).symm
  | cons key p ih =>
    cases q with
    | nil => exact (path_eq_empty_iff hp).1 h
    | cons key' q =>
      obtain ⟨hpath, rfl⟩ := child_inj (hp key List.mem_cons_self) (hq key' List.mem_cons_self) h
      rw [ih (fun k hk => hp k (List.mem_cons_of_mem _ hk)) (fun k hk => hq k (List.mem_cons_of_mem _ hk)) hpath]

end Place

/-! ## Paths of objects and fields -/

open Extracted (placedIn)

/-- Documents as they are extracted from proper values, all of whose keys are plain. -/
structure PlainDocuments (es : List Extracted) : Prop where
  regular : ∀ e ∈ es, e.root.Regular
  rootPath : ∀ e ∈ es, e.root.path = ""
  plain : ∀ q ∈ placedIn es, ∀ f ∈ q.2.fields, Path.IsPlainKey f.key

namespace PlainDocuments

variable {es : List Extracted}

theorem subset {es' : List Extracted} (h : PlainDocuments es) (hsub : ∀ e ∈ es', e ∈ es) :
    PlainDocuments es' where
  regular e he := h.regular e (hsub e he)
  rootPath e he := h.rootPath e (hsub e he)
  plain q hq := by
    obtain ⟨e, he, hq⟩ := Extracted.mem_placedIn.1 hq
    exact h.plain q (Extracted.mem_placedIn.2 ⟨e, hsub e he, hq⟩)

/-- The logical path of an object is that of its place, and only documents have none. -/
def Located (p : Place) (o : ObjectSample) : Prop :=
  (∀ key ∈ p, Path.IsPlainKey key) ∧ Path.logical o.path = p.path ∧ (o.path = "" ↔ p = [])

/-- The logical path of a field of an object. -/
theorem Located.field {p : Place} {o : ObjectSample} (h : Located p o) {f : FieldSample}
    (hkey : Path.IsPlainKey f.key) (hf : f.Regular o.path) :
    Path.logical f.path = Place.path (f.key :: p) := by
  obtain ⟨hp, hpath, hroot⟩ := h
  have hempty : o.path = "" ↔ Path.logical o.path = "" := by
    rw [hroot, hpath, Place.path_eq_empty_iff hp]
  have hchild : Path.logical (Path.child o.path f.key) = Place.path (f.key :: p) := by
    rw [Path.logical_child hkey hempty, hpath]
    rfl
  rw [hf.path]
  split
  · rw [Path.logical_elements, hchild]
  · exact hchild

variable (h : PlainDocuments es)

include h

theorem field_regular {q : Place × ObjectSample} (hq : q ∈ placedIn es) {f : FieldSample}
    (hf : f ∈ q.2.fields) : f.Regular q.2.path := by
  cases regular_of_mem_placedIn h.regular hq with
  | mk distinct fields objects => exact fields f hf

theorem located {q : Place × ObjectSample} (hq : q ∈ placedIn es) : Located q.1 q.2 := by
  obtain ⟨e, he, hqe⟩ := Extracted.mem_placedIn.1 hq
  refine (ObjectSample.placed_induct (P := fun p o => (p, o) ∈ placedIn es ∧ Located p o)
    ?_ [] e.root ⟨?_, ?_⟩ q hqe).2
  · rintro p o f o' ⟨ho, hlocated⟩ hf hn ho'
    have hkey := h.plain _ ho f hf
    have hkeys : ∀ key ∈ f.key :: p, Path.IsPlainKey key := by
      intro key hk
      rcases List.mem_cons.1 hk with rfl | hk
      · exact hkey
      · exact hlocated.1 key hk
    have hpath : Path.logical o'.path = Place.path (f.key :: p) := by
      rw [(h.field_regular ho hf).objects o' ho', hlocated.field hkey (h.field_regular ho hf)]
    refine ⟨Extracted.handedDown_placedIn es p o f o' ho hf hn ho', hkeys, hpath, fun hroot => ?_,
      fun hnil => by cases hnil⟩
    -- an empty path would be the logical path of a place with a key
    rw [hroot, Path.logical_empty] at hpath
    cases (Place.path_eq_empty_iff hkeys).1 hpath.symm
  · exact Extracted.mem_placedIn.2 ⟨e, he, ObjectSample.mem_placed_self [] e.root⟩
  · refine ⟨fun key hk => (by cases hk), ?_, fun _ => rfl, fun _ => h.rootPath e he⟩
    rw [h.rootPath e he, Path.logical_empty]
    rfl

theorem plain_place {q : Place × ObjectSample} (hq : q ∈ placedIn es) :
    ∀ key ∈ q.1, Path.IsPlainKey key :=
  (h.located hq).1

theorem logical_path_of_placed {q : Place × ObjectSample} (hq : q ∈ placedIn es) :
    Path.logical q.2.path = q.1.path :=
  (h.located hq).2.1

theorem logical_path_of_field {q : Place × ObjectSample} (hq : q ∈ placedIn es) {f : FieldSample}
    (hf : f ∈ q.2.fields) : Path.logical f.path = Place.path (f.key :: q.1) :=
  (h.located hq).field (h.plain q hq f hf) (h.field_regular hq hf)

end PlainDocuments

end DocSchema
