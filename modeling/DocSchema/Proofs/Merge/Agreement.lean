import DocSchema.Proofs.Merge.Separation

/-!
# States with the same record agree

When the name of a nested type tells the field that asked for it, and each field has one path, no name
is refused in whatever order the events come, and the states of two runs with the same events agree in
all that can be looked up in them.

- `NamesTellFields`: names tell fields.
- `Records.clean_of_names`, `NamesTellFields.collisions_mergeAll`: no name is refused.
- `Unambiguous`: names tell fields, and fields have one path.
- `Agree`, `Agree.of_records`: states with the same unambiguous record agree.
-/

namespace DocSchema

/-- The name of the type of an owner, below a top-level type. -/
def Owner.typeName (top : String) : Owner → String
  | .root => top
  | .nested name => name

theorem Accumulator.ownerName_eq (a : Accumulator) (o : Owner) : a.ownerName o = o.typeName a.root.name := by
  cases o <;> rfl

theorem Place.typeName_owner (top : String) (p : Place) : (owner top p).typeName top = typeName top p := by
  cases p <;> rfl

namespace Schema

open Extracted (placedIn)
open ObjectSample (isEmpty_of_mem_fields)

/-- In some events the name of a nested type tells the field that asked for it. -/
def NamesTellFields (top : String) (events : List Event) : Prop :=
  ∀ o k o' k', Event.nested o k ∈ events → Event.nested o' k' ∈ events →
    Naming.nestedTypeName (o.typeName top) k = Naming.nestedTypeName (o'.typeName top) k' → o = o' ∧ k = k'

/-- Events in which the name of a nested type tells the field that asked for it, and each field has one
path. -/
structure Unambiguous (top : String) (events : List Event) : Prop where
  names : ∀ o k o' k', Event.nested o k ∈ events → Event.nested o' k' ∈ events →
    Naming.nestedTypeName (o.typeName top) k = Naming.nestedTypeName (o'.typeName top) k' → o = o' ∧ k = k'
  paths : ∀ o k path path' n n' r r' ks ks', Event.field o k path n r ks ∈ events →
    Event.field o k path' n' r' ks' ∈ events → path = path'

variable {detect : Bool} {top : String} {es : List Extracted} {a b : Accumulator}
  {events events' : List Event}

/-- The events of plain documents that were merged without a collision are unambiguous. -/
theorem Merged.unambiguous (h : Merged detect top es a) (hplain : PlainDocuments es) :
    Unambiguous top (es.flatMap (documentEvents detect top)) where
  names o k o' k' hin hin' hname := by
    obtain ⟨q, hq, up, hplace, rfl, hne⟩ := nested_mem_iff.1 hin
    obtain ⟨r, hr, up', hplace', rfl, hne'⟩ := nested_mem_iff.1 hin'
    have howner : Place.owner top q.1 = Place.owner top r.1 := by
      rw [hplace, hplace', Place.owner_cons, Place.owner_cons, ← Place.typeName_owner,
        ← Place.typeName_owner, hname]
    have hsame := h.separated hplain q hq r hr hne hne' howner
    rw [hplace, hplace', List.cons.injEq] at hsame
    exact ⟨by rw [hsame.2], hsame.1⟩
  paths o k path path' n n' r r' ks ks' hin hin' := by
    obtain ⟨q, hq, f, hf, rfl, rfl, rfl, -⟩ := field_mem_iff.1 hin
    obtain ⟨u, hu, g, hg, howner, hkey, rfl, -⟩ := field_mem_iff.1 hin'
    have hsame := h.separated hplain u hu q hq (isEmpty_of_mem_fields hg) (isEmpty_of_mem_fields hf) howner
    rw [hplain.logical_path_of_field hq hf, hplain.logical_path_of_field hu hg, hsame, hkey]

/-- No name is refused that tells the field that asked for it. -/
theorem Records.clean_of_names (h : Records a events) (hnames : NamesTellFields a.root.name events) :
    a.collisions = [] := by
  refine List.eq_nil_iff_forall_not_mem.2 fun d hd => ?_
  obtain ⟨hne, ⟨c, hc, hfirst⟩, o, k, hin, hname, hcolliding⟩ := h.refused d hd
  obtain ⟨-, -, -, o', k', hin', hname', hpath, -⟩ := h.context _ c hc
  rw [hname, Accumulator.ownerName_eq, Accumulator.ownerName_eq] at hname'
  obtain ⟨rfl, rfl⟩ := hnames o k o' k' hin hin' hname'
  exact hne (hfirst.symm.trans (hpath.trans hcolliding.symm))

/-- Documents are merged without a collision if all that they call for is among events in which names tell
fields. -/
theorem NamesTellFields.collisions_mergeAll {collection : String} (hnames : NamesTellFields top events)
    (hsub : ∀ f ∈ es.flatMap (documentEvents detect top), f ∈ events) :
    (mergeAll detect es (.fresh collection top)).collisions = [] := by
  obtain ⟨events', run, hsub', -⟩ := @mergeAll_traced detect top es (.fresh collection top) rfl
  have hin : ∀ f ∈ events', f ∈ events := fun f hf => hsub f (hsub' f hf)
  refine (records_of_run (.fresh collection top) run).clean_of_names ?_
  rw [run.rootName]
  exact fun o k o' k' h h' => hnames o k o' k' (hin _ h) (hin _ h')

theorem Unambiguous.collisions_mergeAll {collection : String} (hu : Unambiguous top events)
    (hsub : ∀ f ∈ es.flatMap (documentEvents detect top), f ∈ events) :
    (mergeAll detect es (.fresh collection top)).collisions = [] :=
  NamesTellFields.collisions_mergeAll hu.names hsub

/-- States in which the same is looked up. -/
structure Agree (a b : Accumulator) : Prop where
  collection : a.collection = b.collection
  name : a.root.name = b.root.name
  merged : a.documentsMerged = b.documentsMerged
  documents : a.root.observations = b.root.observations
  fields : ∀ o k, a.field? o k = b.field? o k
  heads : ∀ n, a.head? (.nested n) = b.head? (.nested n)
  empties : ∀ path, a.emptyCount path = b.emptyCount path

theorem ownerName_agree (hname : a.root.name = b.root.name) (o : Owner) :
    a.ownerName o = b.ownerName o := by
  rw [Accumulator.ownerName_eq, Accumulator.ownerName_eq, hname]

section Agreement

variable (ha : Records a events) (hb : Records b events) (hname : a.root.name = b.root.name)

include ha hb hname

theorem field?_agree (hu : Unambiguous a.root.name events) (o : Owner) (k : String) :
    a.field? o k = b.field? o k := by
  cases hs : a.field? o k with
  | none =>
    cases ht : b.field? o k with
    | none => rfl
    | some t =>
      have hsome := (ha.seen o k).2 ((hb.seen o k).1 (by rw [ht]; rfl))
      rw [hs] at hsome
      cases hsome
  | some s =>
    obtain ⟨t, ht⟩ := Option.isSome_iff_exists.1 ((hb.seen o k).2 ((ha.seen o k).1 (by rw [hs]; rfl)))
    obtain ⟨n, r, ks, hin⟩ := ha.path o k (by rw [hs]; rfl)
    obtain ⟨n', r', ks', hin'⟩ := hb.path o k (by rw [ht]; rfl)
    have hpath := hu.paths o k _ _ n n' r r' ks ks' hin hin'
    have hfa := ha.fields o k
    have hfb := hb.fields o k
    rw [Records.stats_eq hs] at hfa hpath
    rw [Records.stats_eq ht] at hfb hpath
    rw [Accumulator.ownerName_eq, hname, ← Accumulator.ownerName_eq] at hfa
    rw [ht, hfa.unique hfb hpath]

theorem stats_agree (hu : Unambiguous a.root.name events) (o : Owner) (k : String) :
    a.stats o k = b.stats o k := by
  rw [Accumulator.stats, Accumulator.stats, field?_agree ha hb hname hu]

/-- A context that one state has the other one has, too. -/
theorem head?_agree_of_some (hu : Unambiguous a.root.name events) (hclean : b.collisions = []) {n : String}
    {c : TypeContext} (hc : a.head? (.nested n) = some c) : b.head? (.nested n) = some c := by
  obtain ⟨hcname, hpop, hobs, o, k, hin, hn, hpath, hparent⟩ := ha.context n c hc
  obtain ⟨c', hc', hpath'⟩ := hb.asked o k hin
  have hpath' := hpath'.resolve_right (by rw [hclean]; exact List.not_mem_nil)
  rw [← ownerName_agree hname, ← hn] at hc'
  obtain ⟨hcname', hpop', hobs', o', k', hin', hn', -, hparent'⟩ := hb.context n c' hc'
  obtain ⟨rfl, -⟩ := hu.names o k o' k' hin hin' (by
    rw [← Accumulator.ownerName_eq, ← hn, hn', ← ownerName_agree hname, Accumulator.ownerName_eq])
  rw [← stats_agree ha hb hname hu, ← hpath] at hpath'
  have hasks : Event.asksFor b n c'.path = Event.asksFor a n c.path := by
    funext e
    cases e with
    | nested o k =>
      rw [Event.asksFor, Event.asksFor, ownerName_agree hname, stats_agree ha hb hname hu, hpath']
    | _ => rfl
  rw [hc', Option.some.injEq]
  obtain ⟨x, -, rfl⟩ := Option.map_eq_some_iff.1 hc
  obtain ⟨x', -, rfl⟩ := Option.map_eq_some_iff.1 hc'
  rw [hasks, ← hobs] at hobs'
  rw [← ownerName_agree hname, ← hparent] at hparent'
  simp only [TypeContext.bare, TypeContext.mk.injEq, true_and] at *
  exact ⟨hcname'.trans hcname.symm, hpath', hparent', hobs', hpop'.trans hpop.symm⟩

end Agreement

/-- States with the same unambiguous record agree. -/
theorem Agree.of_records (ha : Records a events) (hb : Records b events)
    (hu : Unambiguous a.root.name events) (hname : a.root.name = b.root.name)
    (hcollection : a.collection = b.collection) : Agree a b where
  collection := hcollection
  name := hname
  merged := ha.merged.trans hb.merged.symm
  documents := ha.documents.trans hb.documents.symm
  fields := field?_agree ha hb hname hu
  heads n := by
    have hub : Unambiguous b.root.name events := hname ▸ hu
    refine Option.ext fun c => ⟨?_, ?_⟩
    · exact head?_agree_of_some ha hb hname hu (hb.clean_of_names hub.names)
    · exact head?_agree_of_some hb ha hname.symm hub (ha.clean_of_names hu.names)
  empties path := by
    rw [ha.empties, hb.empties]
    refine List.countP_congr fun e _ => ?_
    cases e with
    | empty o k => rw [Event.emptyAt, Event.emptyAt, stats_agree ha hb hname hu]
    | _ => rfl

end Schema

end DocSchema
