import DocSchema.Proofs.Schema.Exactness
import DocSchema.Proofs.Schema.Repetition

/-!
# How often a document comes is of no account

Documents that come more or less often, in any order, call for the same events more or less often. What
is known of a field then differs in its counts, and no definition but its number of occurrences is made
of a count: a field is missed when some object lacks it, however many there are. Names are refused to
none of them if they are refused to none of the others.

- `Merged.of_subset`: some of the documents that were merged, each as often as it may come.
- `Merged.alike`: the same documents, each as often as it may come.
-/

namespace DocSchema.Schema

open Extracted (placedIn mem_placedIn)

variable {detect : Bool} {top : String} {es es' : List Extracted} {a b : Accumulator}
  {events events' : List Event}

/-- Types with the same events have the same path and parent, if these are unambiguous. -/
theorem SameEvents.context_eq (h : SameEvents a b events events') (hu : Unambiguous a.root.name events)
    {n : String} {c d : TypeContext} (hc : a.nested.get? n = some c) (hd : b.nested.get? n = some d) :
    d.path = c.path ∧ d.parent? = c.parent? := by
  obtain ⟨-, -, -, o, k, hin, hn, hpath, hparent⟩ := h.left.context_of_get? hc
  obtain ⟨-, -, -, o', k', hin', hn', hpath', hparent'⟩ := h.right.context_of_get? hd
  rw [← ownerName_agree h.name] at hn' hparent'
  have hnames : Naming.nestedTypeName (o.typeName a.root.name) k =
      Naming.nestedTypeName (o'.typeName a.root.name) k' := by
    rw [← Accumulator.ownerName_eq, ← Accumulator.ownerName_eq, ← hn, hn']
  obtain ⟨rfl, rfl⟩ := hu.names o k o' k' hin ((h.mem_iff _).1 hin') hnames
  obtain ⟨_, _, _, hfield⟩ := h.left.path o k (h.left.noted _ hin o k (by simp [Event.concerns]))
  obtain ⟨_, _, _, hfield'⟩ := h.right.path o k (h.right.noted _ hin' o k (by simp [Event.concerns]))
  have hstats := hu.paths o k _ _ _ _ _ _ _ _ ((h.mem_iff _).1 hfield') hfield
  exact ⟨hpath'.trans (hstats.trans hpath.symm), hparent'.trans hparent.symm⟩

namespace Merged

variable (h : Merged detect top es a) (hplain : PlainDocuments es)

include h hplain

variable (h' : Merged detect top es' b) (hsame : ∀ e, e ∈ es' ↔ e ∈ es)

include h' hsame

/-- A field is missed by objects of the same documents. -/
theorem missed_iff {o : Owner} {k : String} {s t : FieldStats} (hs : a.field? o k = some s)
    (ht : b.field? o k = some t) : t.nonNull < b.observationsOf o ↔ s.nonNull < a.observationsOf o := by
  obtain ⟨w, hw, hwe, rfl, -⟩ := h.exists_place_of_field? hplain (o := o) (k := k) (by rw [hs]; rfl)
  have hw' : w ∈ placedIn es' := by
    obtain ⟨e, he, hw⟩ := mem_placedIn.1 hw
    exact mem_placedIn.2 ⟨e, (hsame e).2 he, hw⟩
  rw [h.nonNull_lt_iff hplain (.inr ⟨w, hw, rfl, hwe⟩) hs,
    h'.nonNull_lt_iff (hplain.subset fun e => (hsame e).1) (.inr ⟨w, hw', rfl, hwe⟩) ht]
  simp only [instancesAt, List.mem_filter, List.mem_flatMap, hsame]

/-- The same documents, each as often as it may come, show the same but for the numbers of
occurrences. -/
theorem alike (hcollection : b.collection = a.collection) :
    Alike FieldDefinition.withoutOccurrences a b := by
  have hevents : SameEvents a b (es.flatMap (documentEvents detect top))
      (es'.flatMap (documentEvents detect top)) :=
    ⟨h.records, h'.records, h.name.trans h'.name.symm, fun f => by simp only [List.mem_flatMap, hsame]⟩
  refine hevents.alike hcollection (fun n c d => hevents.context_eq ?_) fun o k s t =>
    h.missed_iff hplain h' hsame
  rw [h.name]
  exact h.unambiguous hplain

end Merged

end DocSchema.Schema
