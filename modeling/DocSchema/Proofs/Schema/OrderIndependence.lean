import DocSchema.Proofs.Extraction.Rearrangement
import DocSchema.Proofs.Merge.Agreement
import DocSchema.Proofs.Schema.Alike
import DocSchema.Proofs.Schema.Exactness

/-!
# The order of documents is of no account

Rearranged documents with plain keys call for the same events in another order. If no name is refused
in one order, none is in any other, and since the schemas say only what can be looked up in a state,
they are the same.

- `schemas_agree`: states that agree have the same schemas.
- `merged_rearranged`: rearranged documents have the same schemas.
-/

namespace DocSchema.Schema

variable {identifier? : Option String} {a b : Accumulator}

/-! ## Schemas of states that agree -/

section Agreement

variable (h : Agree a b)

include h

/-- The same names are registered. -/
theorem isSome_agree (n : String) : (a.nested.get? n).isSome = (b.nested.get? n).isSome := by
  have hhead := congrArg Option.isSome (h.heads n)
  rwa [Accumulator.head?_isSome, Accumulator.head?_isSome] at hhead

/-- A context that is registered in one state is registered in the other one, with all but its fields. -/
theorem context?_agree {n : String} {c : TypeContext} (hc : a.nested.get? n = some c) :
    ∃ d, b.nested.get? n = some d ∧ c.name = d.name ∧ c.path = d.path ∧ c.parent? = d.parent? ∧
      c.observations = d.observations ∧ c.populated = d.populated := by
  have hhead := h.heads n
  rw [Accumulator.head?, Accumulator.context?, hc, Option.map_some] at hhead
  obtain ⟨d, hd, hbare⟩ := Option.map_eq_some_iff.1 hhead.symm
  simp only [TypeContext.bare, TypeContext.mk.injEq, true_and] at hbare
  obtain ⟨h₁, h₂, h₃, h₄, h₅⟩ := hbare
  exact ⟨d, hd, h₁.symm, h₂.symm, h₃.symm, h₄.symm, h₅.symm⟩

theorem get?_eq_none_agree {n : String} (hc : a.nested.get? n = none) : b.nested.get? n = none := by
  rw [← Option.not_isSome_iff_eq_none, ← isSome_agree h, hc]
  decide

theorem label_agree (n : String) :
    (b.nested.get? n).map TypeContext.label = (a.nested.get? n).map TypeContext.label := by
  cases hc : a.nested.get? n with
  | none => rw [get?_eq_none_agree h hc]
  | some c =>
    obtain ⟨d, hd, hname, hpath, hparent, -, hpop⟩ := context?_agree h hc
    rw [hd, Option.map_some, Option.map_some, TypeContext.label, TypeContext.label, hname, hpath, hparent,
      hpop]

theorem typeOf_agree (s : FieldStats) : typeOf a s = typeOf b s := by
  rw [typeOf, typeOf]
  refine if_congr Iff.rfl ?_ rfl
  cases hn : s.nestedType? with
  | none => rfl
  | some n =>
    rw [Option.bind_some, Option.bind_some]
    cases hc : a.nested.get? n with
    | none => rw [get?_eq_none_agree h hc]
    | some c =>
      obtain ⟨d, hd, -, -, -, -, hpop⟩ := context?_agree h hc
      simp only [hd, hpop]

theorem observationsOf_agree (o : Owner) : a.observationsOf o = b.observationsOf o := by
  cases o with
  | root => exact h.documents
  | nested n =>
    rw [Accumulator.observationsOf, Accumulator.observationsOf]
    cases hc : a.nested.get? n with
    | none => rw [get?_eq_none_agree h hc]
    | some c =>
      obtain ⟨d, hd, -, hpath, -, hobs, -⟩ := context?_agree h hc
      simp only [hd, hobs, hpath, h.empties]

/-- States that agree have the same definitions, as they are. -/
theorem alike_of_agree (hnamed : ∀ n c, a.nested.get? n = some c → c.name = n) : Alike id a b where
  name := h.name.symm
  collection := h.collection.symm
  named := hnamed
  contexts := label_agree h
  known o k := congrArg Option.isSome (h.fields o k).symm
  definitions o k s t hs ht := by
    obtain rfl : s = t := Option.some.inj (hs.symm.trans ((h.fields o k).trans ht))
    simp only [id, fieldDefinition, typeOf_agree h, observationsOf_agree h]

/-- The schemas say only what can be looked up. -/
theorem schemas_agree (hnamed : ∀ n c, a.nested.get? n = some c → c.name = n) :
    entity identifier? a = entity identifier? b ∧
      nestedEntities identifier? a = nestedEntities identifier? b := by
  have halike := alike_of_agree h hnamed
  have hentity := halike.entity_eq identifier?
  have hnested := halike.nestedEntities_eq identifier?
  rw [EntitySchema.mapFields_id, ← h.merged] at hentity
  rw [EntitySchema.mapFields_id, List.map_id, List.map_id] at hnested
  exact ⟨hentity.symm, hnested.symm⟩

end Agreement

/-- **Order independence.** Proper documents with plain keys may be put in another order, and so may the
entries of any object in them. If no name was refused while the documents were merged, none is refused
while the rearranged ones are, and the schemas that are built are the same. -/
theorem merged_rearranged (s : ExtractionSettings) (detect : Bool) (identifier? : Option String)
    (collection top : String) (documents documents' : List Value) (es : List Extracted)
    (hproper : ∀ d ∈ documents, d.isProper = true) (hrearranged : Rearrangement documents documents')
    (hextract : documents.mapM (Extraction.extract s) = .ok es)
    (hplain : ∀ e ∈ es, ∀ o ∈ e.objects, ∀ f ∈ o.fields, Path.IsPlainKey f.key)
    (hclean : (mergeAll detect es (.fresh collection top)).collisions = []) :
    ∃ es', documents'.mapM (Extraction.extract s) = .ok es' ∧
      (∀ e ∈ es ++ es', ∀ b, (mergeDocument detect e b).fault? = none) ∧
      let a := mergeAll detect es (.fresh collection top)
      let a' := mergeAll detect es' (.fresh collection top)
      a'.collisions = [] ∧ entity identifier? a' = entity identifier? a ∧
        nestedEntities identifier? a' = nestedEntities identifier? a := by
  obtain ⟨hproper', es', hextract', hevents⟩ := extract_rearrangement detect top hrearranged hproper hextract
  have hdocuments := plainDocuments hproper hextract hplain
  have hregular' : ∀ e ∈ es', e.root.Regular := by
    intro e he
    obtain ⟨d, hd, h⟩ := exists_of_mapM_ok hextract' he
    exact (Extraction.regular_of_extract h (hproper' d hd)).1
  have hfault : ∀ e ∈ es, ∀ b, (mergeDocument detect e b).fault? = none := fun e he =>
    fault?_mergeDocument (hdocuments.regular e he)
  have hfault' : ∀ e ∈ es', ∀ b, (mergeDocument detect e b).fault? = none := fun e he =>
    fault?_mergeDocument (hregular' e he)
  refine ⟨es', hextract', fun e he => (List.mem_append.1 he).elim (hfault e) (hfault' e), ?_⟩
  have h : Merged detect top es (mergeAll detect es (.fresh collection top)) :=
    .of_regular hdocuments.regular hclean
  have hunambiguous := h.unambiguous hdocuments
  obtain ⟨events, run, -⟩ := @mergeAll_traced detect top es (.fresh collection top) rfl
  obtain ⟨events', run', -, hall⟩ := @mergeAll_traced detect top es' (.fresh collection top) rfl
  have hrecords' := records_of_run (.fresh collection top) run'
  -- the rearranged documents call for the same events, so no name is refused
  have hclean' : (mergeAll detect es' (.fresh collection top)).collisions = [] :=
    hunambiguous.collisions_mergeAll fun e => hevents.mem_iff.2
  have hagree : Agree (mergeAll detect es' (.fresh collection top)) (mergeAll detect es (.fresh collection top)) := by
    refine .of_records (hrecords'.perm ((hall hfault' hclean').trans hevents.symm)) h.records ?_ ?_ ?_
    · rw [run'.rootName]
      exact hunambiguous
    · rw [run'.rootName, run.rootName]
    · rw [collection_mergeAll, collection_mergeAll]
  exact ⟨hclean', schemas_agree hagree fun n c hc => (hrecords'.context_named hc).1⟩

/-- Two documents, and the same in the opposite order, one of them with its entries the other way
round. -/
theorem merged_rearranged_pair :
    let d : Value := .map [("c", .null), ("a", .map [])]
    let documents : List Value := [.map [("a", .map [("b", .int 1)]), ("c", .int 2)], d]
    let documents' : List Value := [d, .map [("c", .int 2), ("a", .map [("b", .int 1)])]]
    ∃ es es', documents.mapM (Extraction.extract {}) = .ok es ∧
      documents'.mapM (Extraction.extract {}) = .ok es' ∧
      entity none (mergeAll true es' (.fresh "c" "C")) = entity none (mergeAll true es (.fresh "c" "C")) ∧
      nestedEntities none (mergeAll true es' (.fresh "c" "C")) =
        nestedEntities none (mergeAll true es (.fresh "c" "C")) := by
  intro d documents documents'
  have hrearranged : Rearrangement documents documents' :=
    .trans (.document [] [d] (.entries (.swap _ _ _))) (.perm (.swap _ _ _))
  obtain ⟨es', hes', -, -, hentity, hnested⟩ := merged_rearranged {} true none "c" "C" documents documents' _
    (by decide) hrearranged rfl (by decide) rfl
  exact ⟨_, es', rfl, hes', hentity, hnested⟩

end DocSchema.Schema
