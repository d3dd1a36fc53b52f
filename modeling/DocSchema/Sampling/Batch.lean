import DocSchema.Extraction.Walk
import DocSchema.Sampling.Notice
import DocSchema.Schema.Merge
import DocSchema.Value.Conversion

/-!
# Batches of documents

A batch is merged one document after the other. A document that cannot be converted, extracted or
merged is skipped, with a notice that says why.

- `documentsSkipped_skip`: a skipped document is counted.
-/

namespace DocSchema.Sampling

variable (s : ExtractionSettings)

/-- What a raw document shows. -/
def readDocument (r : Raw) : Except DocumentFault Extracted := do
  let value ← Value.ofRaw 0 r
  Extraction.extract s value

/-- The notices about the objects that are cut off in a raw document. -/
def cutNotices (r : Raw) : List Notice :=
  match Value.ofRaw 0 r with
  | .ok value => (Extraction.cuts (Extraction.incidents s value)).map (.cut s.maxDepth)
  | .error _ => []

/-- The notices about the names that were refused while a state was reached. -/
def collisionNotices (before after : Accumulator) : List Notice :=
  (after.collisions.drop before.collisions.length).map .collision

/-- Counts a skipped document. -/
def skip (a : Accumulator) : Accumulator :=
  { a with documentsSkipped := a.documentsSkipped + 1 }

/-- Merges a raw document, the one at an index of a batch, or skips it. -/
def ingest (batch index : Nat) (r : Raw) (a : Accumulator) : Accumulator × List Notice :=
  let skipped (f : DocumentFault) : Notice := .skipped index batch f.message
  match readDocument s r with
  | .error f => (skip a, cutNotices s r ++ [skipped f])
  | .ok e =>
    let m := Schema.mergeDocument s.detects e a
    let notices := cutNotices s r ++ collisionNotices a m.state
    match m.fault? with
    | none => (m.state, notices)
    | some f => (skip m.state, notices ++ [skipped f])

/-- Merges the documents of a batch from an index on (`_process_batch`). -/
def ingestAll (batch index : Nat) : List Raw → Accumulator → Accumulator × List Notice
  | [], a => (a, [])
  | r :: rs, a =>
    let first := ingest s batch index r a
    let rest := ingestAll batch (index + 1) rs first.1
    (rest.1, first.2 ++ rest.2)

theorem documentsSkipped_skip (a : Accumulator) :
    (skip a).documentsSkipped = a.documentsSkipped + 1 := rfl

end DocSchema.Sampling
