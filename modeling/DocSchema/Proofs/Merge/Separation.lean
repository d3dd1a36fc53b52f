import DocSchema.Proofs.Extraction.PlainKey
import DocSchema.Proofs.Merge.Tally

/-!
# Types of different places are different

Two places may have types of the same name, and then the one that comes later is refused it. When
plain documents have been merged and no name was refused, the type of an object with fields therefore
tells its place, and each field is known under the path of its place.

- `Separated`: objects with fields at different places have different types.
- `Merged.separated`: the objects of merged documents are separated.
- `Merged.stats_path`: the path that a field is known under.
-/

namespace DocSchema.Schema

open Extracted (placedIn)
open ObjectSample (isEmpty_of_mem_fields)

/-- Objects with fields whose types have the same name stand at the same place. -/
def Separated (top : String) (es : List Extracted) : Prop :=
  ∀ q ∈ placedIn es, ∀ r ∈ placedIn es, q.2.isEmpty = false → r.2.isEmpty = false →
    Place.owner top q.1 = Place.owner top r.1 → q.1 = r.1

/-- An object below the top level is in a field of an object with fields. -/
theorem exists_parent {es : List Extracted} {q : Place × ObjectSample} (hq : q ∈ placedIn es)
    {key : String} {up : Place} (hplace : q.1 = key :: up) :
    ∃ r ∈ placedIn es, ∃ f ∈ r.2.fields, r.1 = up ∧ f.key = key ∧ f.isNull = false ∧ q.2 ∈ f.objects := by
  rcases Extracted.placedIn_parent hq with hroot | ⟨r, hr, f, hf, hn, ho, hp⟩
  · rw [hplace] at hroot
    cases hroot
  · rw [hplace, List.cons.injEq] at hp
    exact ⟨r, hr, f, hf, hp.2.symm, hp.1.symm, hn, ho⟩

namespace Merged

variable {detect : Bool} {top : String} {es : List Extracted} {a : Accumulator}
  (h : Merged detect top es a) (hplain : PlainDocuments es)

include h hplain

/-- A known field has the path of a place of its owner. -/
theorem exists_place_of_field? {o : Owner} {k : String} (hk : (a.field? o k).isSome) :
    ∃ w ∈ placedIn es, w.2.isEmpty = false ∧ Place.owner top w.1 = o ∧
      Path.IsPlainKey k ∧ (a.stats o k).path = Place.path (k :: w.1) := by
  obtain ⟨w, hw, howner, g, hg, rfl, hpath⟩ := h.path_of_field? hk
  refine ⟨w, hw, isEmpty_of_mem_fields hg, howner, hplain.plain w hw g hg, ?_⟩
  rw [hpath, hplain.logical_path_of_field hw hg]

/-- Types of the same name have been asked for on behalf of the same path, so of the same place. -/
theorem separated : Separated top es := by
  suffices hind : ∀ (p : Place) (q), q ∈ placedIn es → q.1 = p → q.2.isEmpty = false →
      ∀ r ∈ placedIn es, r.2.isEmpty = false → Place.owner top q.1 = Place.owner top r.1 → q.1 = r.1 from
    fun q hq r hr hqe hre => hind q.1 q hq rfl hqe r hr hre
  intro p
  induction p with
  | nil =>
    intro q _ hp _ r _ _ howner
    rw [hp] at howner ⊢
    exact (Place.owner_eq_root_iff.1 howner.symm).symm
  | cons key up ih =>
    intro q hq hp hqe r hr hre howner
    obtain ⟨key', up', hp'⟩ : ∃ key' up', r.1 = key' :: up' := by
      cases hr1 : r.1 with
      | nil =>
        rw [hp, hr1] at howner
        cases howner
      | cons key' up' => exact ⟨key', up', rfl⟩
    rw [hp, hp', Place.owner_cons, Place.owner_cons, Owner.nested.injEq] at howner
    -- both have asked for the name, so the fields they are in have the same path
    have hin : Event.nested (Place.owner top up) key ∈ es.flatMap (documentEvents detect top) :=
      nested_mem_iff.2 ⟨q, hq, up, hp, rfl, hqe⟩
    have hin' : Event.nested (Place.owner top up') key' ∈ es.flatMap (documentEvents detect top) :=
      nested_mem_iff.2 ⟨r, hr, up', hp', rfl, hre⟩
    obtain ⟨c, hc, hpath⟩ := h.registered hin
    obtain ⟨c', hc', hpath'⟩ := h.registered hin'
    rw [h.ownerName_owner] at hc hc'
    rw [howner, hc', Option.some.injEq] at hc
    rw [hc, hpath] at hpath'
    have hknown := h.records.noted _ hin (Place.owner top up) key (by simp [Event.concerns])
    have hknown' := h.records.noted _ hin' (Place.owner top up') key' (by simp [Event.concerns])
    obtain ⟨w, hw, hwe, hwo, hkey, hwp⟩ := h.exists_place_of_field? hplain hknown
    obtain ⟨w', hw', hwe', hwo', hkey', hwp'⟩ := h.exists_place_of_field? hplain hknown'
    obtain ⟨u, hu, f, hf, huplace, -⟩ := exists_parent hq hp
    obtain ⟨u', hu', f', hf', huplace', -⟩ := exists_parent hr hp'
    have hup : up = w.1 := by
      rw [← huplace] at hwo ⊢
      exact ih u hu huplace (isEmpty_of_mem_fields hf) w hw hwe hwo.symm
    rw [hwp, hwp', ← hup] at hpath'
    have hplain' : ∀ (k : String) (v : Place × ObjectSample), v ∈ placedIn es → Path.IsPlainKey k →
        ∀ l ∈ k :: v.1, Path.IsPlainKey l := by
      intro k v hv hk l hl
      rcases List.mem_cons.1 hl with rfl | hl
      · exact hk
      · exact hplain.plain_place hv l hl
    have hplaces := Place.path_injective (hup ▸ hplain' key w hw hkey) (hplain' key' w' hw' hkey') hpath'
    obtain ⟨rfl, hup'⟩ := List.cons.inj hplaces
    -- so the owner of the second is that of the first, too
    rw [hp, hp', ← huplace, ← huplace']
    refine congrArg _ (ih u hu huplace (isEmpty_of_mem_fields hf) u' hu' (isEmpty_of_mem_fields hf') ?_)
    rw [huplace, huplace', ← hwo', ← hup']

/-- A field is known under the path of its place. -/
theorem stats_path {q : Place × ObjectSample} (hq : q ∈ placedIn es) {f : FieldSample}
    (hf : f ∈ q.2.fields) : (a.stats (Place.owner top q.1) f.key).path = Place.path (f.key :: q.1) := by
  obtain ⟨w, hw, hwe, hwo, -, hpath⟩ := h.exists_place_of_field? hplain
    (h.field?_isSome_iff.2 ⟨q, hq, rfl, f, hf, rfl⟩)
  rw [hpath, h.separated hplain q hq w hw (isEmpty_of_mem_fields hf) hwe hwo.symm]

end Merged

end DocSchema.Schema
