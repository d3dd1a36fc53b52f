import DocSchema.Proofs.Extraction.PlainKey
import DocSchema.Proofs.Merge.History
import DocSchema.Proofs.Merge.Trace

/-!
# Paths of fields and of their contexts

The fields of an object are merged into a context only if the context was registered for the path of
the field that holds the object. When all keys are plain, each field is therefore known under the path
of its context with its key added, whatever names were refused elsewhere. A context in turn has the
path of the field that it was registered for, so the path of a field tells the field.

- `Aligned`: the paths of the fields of a state are those of their contexts with their keys added.
- `aligned_mergeAll`: merging plain documents leads to aligned states.
- `Aligned.owner_eq`, `Aligned.field_eq`: in an aligned state paths tell owners and fields.
-/

namespace DocSchema

/-- A path is longer than the one that it goes on from. -/
theorem Path.length_lt_child {path key : String} (hkey : IsPlainKey key) :
    path.length < (child path key).length := by
  rw [child]
  split
  · rename_i hpath
    rw [hpath]
    exact Nat.pos_of_ne_zero fun h => hkey.nonempty (String.length_eq_zero_iff.1 h)
  · have hdot : ".".length = 1 := rfl
    rw [String.length_append, String.length_append, hdot]
    omega

namespace Schema

open Extracted (placedIn)
open ObjectSample (placedFields placedObjects)

/-- Every field is known under the path of its context with its key added, and the key is plain. -/
def Aligned (a : Accumulator) : Prop :=
  ∀ o k s, a.field? o k = some s →
    Path.IsPlainKey k ∧ ∃ c, a.head? o = some c ∧ s.path = Path.child c.path k

/-- A field of an object at a place has a plain key and the logical path of its place. -/
def FitsPlace (p : Place) (f : FieldSample) : Prop :=
  Path.IsPlainKey f.key ∧ Path.logical f.path = Place.path (f.key :: p)

/-- The context of the objects at a place has the path of the place. -/
def HasPlace (top : String) (a : Accumulator) (p : Place) : Prop :=
  ∃ c, a.head? (Place.owner top p) = some c ∧ c.path = p.path

/-- A field that an event sees is known under the path of its context with its plain key added. -/
def Event.Fits (a : Accumulator) : Event → Prop
  | .field o k path _ _ _ => Path.IsPlainKey k ∧ ∃ c, a.head? o = some c ∧ path = Path.child c.path k
  | _ => True

/-- A run that leads to an aligned state. -/
def Keeps (a b : Accumulator) : Prop :=
  (∃ es, Run a es b) ∧ Aligned b

section Steps

variable {detect : Bool} {top : String} {a b c : Accumulator} {p up : Place} {o : Owner} {k key : String}
  {f : FieldSample} {m : Merging}

/-! ## One event -/

/-- An event that fits an aligned state leaves it aligned: a field that was known keeps its path. -/
theorem Aligned.apply (h : Aligned a) {e : Event} (he : e.Enabled a) (hfits : e.Fits a) :
    Aligned (e.apply a) := by
  intro o k s hs
  have hknown : Path.IsPlainKey k ∧ ∃ c, a.head? o = some c ∧ s.path = Path.child c.path k := by
    rcases (Records.field?_isSome_iff he o k).1 (by rw [hs]; rfl) with hsome | hseen
    · obtain ⟨t, ht⟩ := Option.isSome_iff_exists.1 hsome
      obtain ⟨u, hu, hpath, -⟩ := Event.field?_mono e he ht
      rw [hs, Option.some.injEq] at hu
      rw [hu, hpath]
      exact h o k t ht
    · obtain ⟨path, isNull, isArray, kinds, rfl⟩ := hseen
      rw [Event.field?_field he.1, if_pos ⟨rfl, rfl⟩, Option.some.injEq] at hs
      cases hold : a.field? o k with
      | some t =>
        rw [hold] at hs
        obtain ⟨hkey, d, hd, hpath⟩ := h o k t hold
        refine ⟨hkey, d, hd, ?_⟩
        rw [← hs, ← hpath]
        cases isNull <;> rfl
      | none =>
        rw [hold] at hs
        obtain ⟨hkey, d, hd, hpath⟩ := hfits
        refine ⟨hkey, d, hd, ?_⟩
        rw [← hs, ← hpath]
        cases isNull <;> rfl
  obtain ⟨hkey, d, hd, hpath⟩ := hknown
  obtain ⟨d', hd', -, hdpath, -⟩ := Event.head?_mono e hd
  exact ⟨hkey, d', hd', by rw [hpath, hdpath]⟩

namespace Keeps

theorem refl (h : Aligned a) : Keeps a a :=
  ⟨⟨[], .nil a⟩, h⟩

theorem trans (h : Keeps a b) (h' : Keeps b c) : Keeps a c := by
  obtain ⟨⟨es, run⟩, -⟩ := h
  obtain ⟨⟨fs, run'⟩, haligned⟩ := h'
  exact ⟨⟨es ++ fs, run.append run'⟩, haligned⟩

theorem apply (h : Aligned a) {e : Event} (he : e.Enabled a) (hfits : e.Fits a) : Keeps a (e.apply a) :=
  ⟨⟨[e], .single he⟩, h.apply he hfits⟩

theorem andThen {next : Accumulator → Merging} (h : Keeps a m.state)
    (hnext : Keeps a m.state → Keeps m.state (next m.state).state) : Keeps a (m.andThen next).state := by
  cases hf : m.fault? with
  | some fault => rwa [Merging.fault_andThen hf]
  | none =>
    rw [show m.andThen next = next m.state by simp [Merging.andThen, hf]]
    exact h.trans (hnext h)

theorem rootName (h : Keeps a b) (htop : a.root.name = top) : b.root.name = top := by
  obtain ⟨⟨es, run⟩, -⟩ := h
  exact run.rootName.trans htop

theorem hasPlace (h : Keeps a b) (hp : HasPlace top a p) : HasPlace top b p := by
  obtain ⟨⟨es, run⟩, -⟩ := h
  obtain ⟨d, hd, hpath⟩ := hp
  obtain ⟨d', hd', -, hpath', -⟩ := run.head?_mono hd
  exact ⟨d', hd', hpath'.trans hpath⟩

theorem field (h : Keeps a b) (hs : ∃ s, a.field? o k = some s ∧ 0 < s.nonNull) :
    ∃ s, b.field? o k = some s ∧ 0 < s.nonNull := by
  obtain ⟨⟨es, run⟩, -⟩ := h
  obtain ⟨s, hs, hpos⟩ := hs
  obtain ⟨t, ht, -, hle⟩ := run.field?_mono hs
  exact ⟨t, ht, Nat.lt_of_lt_of_le hpos hle⟩

end Keeps

theorem HasPlace.isSome (h : HasPlace top a p) : (a.context? (Place.owner top p)).isSome := by
  obtain ⟨d, hd, -⟩ := h
  rw [← Accumulator.head?_isSome, hd]
  rfl

/-- Seeing a field of an object at a place keeps a state aligned. -/
theorem keeps_fieldEvent (h : Aligned a) (hp : HasPlace top a p) (hf : FitsPlace p f) :
    Keeps a ((fieldEvent detect top p f).apply a) := by
  refine .apply h (fieldEvent_enabled hp.isSome f) ?_
  obtain ⟨d, hd, hpath⟩ := hp
  obtain ⟨key, path, kind, leaves, objects⟩ := f
  refine ⟨hf.1, d, hd, ?_⟩
  rw [hpath]
  exact hf.2

/-- The context of an object that is not refused the name of its type has the path of its place. -/
theorem hasPlace_nested (h : Aligned a) (htop : a.root.name = top) (hp : HasPlace top a up)
    (hs : ∃ s, a.field? (Place.owner top up) key = some s ∧ 0 < s.nonNull)
    (hgranted : (enter a (Place.owner top up) key).2 = true) :
    HasPlace top ((Event.nested (Place.owner top up) key).apply a) (key :: up) := by
  have hknown : knownPath a (Place.owner top up) key = Place.path (key :: up) := by
    obtain ⟨s, hs, -⟩ := hs
    obtain ⟨d, hd, hpath⟩ := hp
    obtain ⟨-, d', hd', hpath'⟩ := h _ _ s hs
    rw [hd, Option.some.injEq] at hd'
    rw [knownPath_eq, Records.stats_eq hs, hpath', ← hd', hpath]
    rfl
  rw [HasPlace, Event.head?_nested, ← nested_typeName htop key]
  simp only [if_true]
  refine ⟨_, rfl, ?_⟩
  cases hc : a.head? (.nested (Naming.nestedTypeName (a.ownerName (Place.owner top up)) key)) with
  | none =>
    simp only [Option.getD_none, if_true]
    exact hknown
  | some d =>
    have hd := Event.granted_iff.1 hgranted d hc
    simp only [Option.getD_some, if_pos hd]
    exact hd.trans hknown

/-! ## Merges -/

mutual
theorem keeps_mergeFields (place : Place) : ∀ (fields : List FieldSample) (a : Accumulator),
    Aligned a → a.root.name = top → HasPlace top a place → (∀ f ∈ fields, FitsPlace place f) →
    (∀ q ∈ placedFields place fields, ∀ f ∈ q.2.fields, FitsPlace q.1 f) →
    Keeps a (mergeFields detect (Place.owner top place) fields a).state
  | [], a, h, _, _, _, _ => by
    rw [mergeFields]
    exact .refl h
  | .mk key path kind leaves objects :: fields, a, h, htop, hp, hfields, hbelow => by
    rw [mergeFields_cons]
    have hf := hfields _ List.mem_cons_self
    have hseen : Keeps a ((fieldEvent detect top place (.mk key path kind leaves objects)).apply a) :=
      keeps_fieldEvent h hp hf
    rw [ObjectSample.placedFields_cons] at hbelow
    refine .andThen ?_ fun hm =>
      keeps_mergeFields place fields _ hm.2 (hm.rootName htop) (hm.hasPlace hp)
        (fun f hf => hfields f (List.mem_cons_of_mem _ hf))
        fun q hq => hbelow q (List.mem_append_right _ hq)
    rw [mergeField_eq]
    cases hn : FieldSample.isNull (.mk key path kind leaves objects) with
    | true => exact hseen
    | false =>
      simp only [Bool.false_eq_true, if_false]
      split
      · exact hseen
      · refine hseen.trans (keeps_mergeNested place key objects _ hseen.2 (hseen.rootName htop)
          (hseen.hasPlace hp) (field?_fieldEvent hp.isSome hn) fun q hq => hbelow q ?_)
        rw [hn]
        exact List.mem_append_left _ hq
theorem keeps_mergeNested (up : Place) (key : String) :
    ∀ (objects : List ObjectSample) (a : Accumulator), Aligned a → a.root.name = top →
    HasPlace top a up → (∃ s, a.field? (Place.owner top up) key = some s ∧ 0 < s.nonNull) →
    (∀ q ∈ placedObjects (key :: up) objects, ∀ f ∈ q.2.fields, FitsPlace q.1 f) →
    Keeps a (mergeNested detect (Place.owner top up) key objects a).state
  | [], a, h, _, _, _, _ => by
    rw [mergeNested]
    exact .refl h
  | .mk path fields :: objects, a, h, htop, hp, hs, hbelow => by
    rw [mergeNested_cons]
    rw [placedObjects] at hbelow
    refine .andThen ?_ fun hm =>
      keeps_mergeNested up key objects _ hm.2 (hm.rootName htop) (hm.hasPlace hp) (hm.field hs)
        fun q hq => hbelow q (List.mem_append_right _ hq)
    split
    · have hempty : (Event.empty (Place.owner top up) key).Enabled a := hs
      exact .apply h hempty trivial
    · have hnested : (Event.nested (Place.owner top up) key).Enabled a := hs
      have hentered : Keeps a ((Event.nested (Place.owner top up) key).apply a) := .apply h hnested trivial
      split
      · rename_i hgranted
        rw [nested_typeName htop]
        refine hentered.trans (keeps_mergeFields (key :: up) fields _ hentered.2 (hentered.rootName htop)
          (hasPlace_nested h htop hp hs hgranted) (fun f hf => ?_) fun q hq => ?_)
        · exact hbelow _ (List.mem_append_left _ (ObjectSample.mem_placed_self _ _)) f hf
        · exact hbelow q (List.mem_append_left _ (by rw [ObjectSample.placed]; exact List.mem_cons_of_mem _ hq))
      · exact hentered
end

theorem recorded_run (a : Accumulator) (paths : List String) :
    Run a (.finish :: paths.map .record)
      ({ a with documentsMerged := a.documentsMerged + 1 }.recordPaths paths) :=
  .cons (e := .finish) trivial (recordPaths_run paths _)

/-- Merging a document whose fields have the paths of their places keeps a state aligned. -/
theorem keeps_mergeDocument {e : Extracted} (h : Aligned a) (hroot : a.root.path = "")
    (hfits : ∀ q ∈ e.placed, ∀ f ∈ q.2.fields, FitsPlace q.1 f) :
    Keeps a (mergeDocument detect e a).state := by
  obtain ⟨⟨path, fields⟩, paths⟩ := e
  rw [Extracted.placed, ObjectSample.placed] at hfits
  have hcounted : Keeps a ((Event.document (!fields.isEmpty)).apply a) :=
    .apply (e := .document (!fields.isEmpty)) h trivial trivial
  have hobject : mergeObject detect .root (.mk path fields) a =
      mergeFields detect (Place.owner a.root.name []) fields ((Event.document (!fields.isEmpty)).apply a) := by
    rw [mergeObject]
    rfl
  rw [mergeDocument, hobject]
  have hp : HasPlace a.root.name a [] := ⟨a.root.bare, rfl, hroot⟩
  refine .andThen ?_ fun hm =>
    ⟨⟨.finish :: paths.map .record, recorded_run _ paths⟩, hm.2⟩
  exact hcounted.trans (keeps_mergeFields [] fields _ hcounted.2 (hcounted.rootName rfl)
    (hcounted.hasPlace hp) (hfits _ List.mem_cons_self) fun q hq => hfits q (List.mem_cons_of_mem _ hq))

end Steps

theorem aligned_fresh (collection top : String) : Aligned (.fresh collection top) := by
  intro o k s hs
  cases o <;> cases hs

/-- Merging plain documents one after the other leads to an aligned state. -/
theorem aligned_mergeAll {detect : Bool} {es : List Extracted} (hplain : PlainDocuments es)
    {a : Accumulator} (h : Aligned a) (hroot : a.root.path = "") : Aligned (mergeAll detect es a) := by
  induction es generalizing a with
  | nil => exact h
  | cons e es ih =>
    have hkeeps : Keeps a (mergeDocument detect e a).state := by
      refine keeps_mergeDocument h hroot fun q hq f hf => ?_
      have hq : q ∈ placedIn (e :: es) := Extracted.mem_placedIn.2 ⟨e, List.mem_cons_self, hq⟩
      exact ⟨hplain.plain q hq f hf, hplain.logical_path_of_field hq hf⟩
    obtain ⟨⟨events, run⟩, haligned⟩ := hkeeps
    exact ih (hplain.subset fun x hx => List.mem_cons_of_mem _ hx) haligned (run.rootPath.trans hroot)

/-! ## Reading the paths -/

namespace Aligned

variable {a : Accumulator} {es : List Event} (h : Aligned a) (hrecords : Records a es)
  (hroot : a.root.path = "")

include h hrecords

/-- The context of a nested type has the path of the context above it with a plain key added. -/
theorem exists_above {n : String} {c : TypeContext} (hc : a.head? (.nested n) = some c) :
    ∃ o k d, a.head? o = some d ∧ Path.IsPlainKey k ∧ c.path = Path.child d.path k ∧
      n = Naming.nestedTypeName (a.ownerName o) k := by
  obtain ⟨-, -, -, o, k, hin, hn, hpath, -⟩ := hrecords.context n c hc
  obtain ⟨s, hs⟩ := Option.isSome_iff_exists.1 (hrecords.noted _ hin o k (by simp [Event.concerns]))
  obtain ⟨hkey, d, hd, hspath⟩ := h o k s hs
  rw [Records.stats_eq hs, hspath] at hpath
  exact ⟨o, k, d, hd, hkey, hpath, hn⟩

include hroot

/-- Contexts with the same path have the same owner. The induction is on the length of the path, which is
greater than that of the context above. -/
theorem owner_eq {o o' : Owner} {c c' : TypeContext} (hc : a.head? o = some c) (hc' : a.head? o' = some c')
    (hpath : c.path = c'.path) : o = o' := by
  induction hlength : c.path.length using Nat.strongRecOn generalizing o o' c c' with
  | _ length ih =>
    have hempty {d : TypeContext} (hd : a.head? .root = some d) : d.path = "" := by
      rw [← Option.some.inj hd]
      exact hroot
    cases o with
    | root =>
      cases o' with
      | root => rfl
      | nested n' =>
        obtain ⟨_, k, d, -, hkey, hchild, -⟩ := h.exists_above hrecords hc'
        rw [hempty hc, hchild] at hpath
        exact absurd hpath.symm (Path.child_ne_empty hkey.nonempty)
    | nested n =>
      obtain ⟨up, k, d, hd, hkey, hchild, hn⟩ := h.exists_above hrecords hc
      cases o' with
      | root =>
        rw [hempty hc', hchild] at hpath
        exact absurd hpath (Path.child_ne_empty hkey.nonempty)
      | nested n' =>
        obtain ⟨up', k', d', hd', hkey', hchild', hn'⟩ := h.exists_above hrecords hc'
        rw [hchild, hchild'] at hpath
        obtain ⟨habove, rfl⟩ := Place.child_inj hkey hkey' hpath
        have hlt : d.path.length < length := by
          rw [← hlength, hchild]
          exact Path.length_lt_child hkey
        rw [hn, hn', ih _ hlt hd hd' habove rfl]

/-- Fields that are known under the same path are the same. -/
theorem field_eq {o o' : Owner} {k k' : String} {s s' : FieldStats} (hs : a.field? o k = some s)
    (hs' : a.field? o' k' = some s') (hpath : s.path = s'.path) : o = o' ∧ k = k' := by
  obtain ⟨hkey, c, hc, hchild⟩ := h o k s hs
  obtain ⟨hkey', c', hc', hchild'⟩ := h o' k' s' hs'
  rw [hchild, hchild'] at hpath
  obtain ⟨habove, rfl⟩ := Place.child_inj hkey hkey' hpath
  exact ⟨h.owner_eq hrecords hroot hc hc' habove, rfl⟩

end Aligned

end Schema

end DocSchema
