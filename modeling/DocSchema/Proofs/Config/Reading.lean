import DocSchema.Config.Reader
import DocSchema.Proofs.Value.Proper

/-!
# How configurations are read

What is known of the data of an accepted configuration: each part of it was read on its own, and so was each of its
collections.

- `Read`, `read_of_ofRaw`: an accepted configuration, part by part.
- `ReadEntry`, `readEntry_of_readCollection`: a collection of it.
-/

namespace DocSchema.Config

/-- The collection that the data of a configuration lists at an index. -/
def item? (data : Raw) (i : Nat) : Option Raw :=
  match data.get? "collections" with
  | some (.list items) => items[i]?
  | _ => none

/-- A configuration holds what the parts of its data are read as. -/
structure Read [Stack] (data : Raw) (c : Config) : Prop where
  source : readSource (data.get? "source") = .ok c.source
  sampling : readSampling "sampling" {} (data.get? "sampling") = .ok c.sampling
  extraction : readExtraction "extraction" {} (data.get? "extraction") = .ok c.extraction
  maxParallel : readParallel (data.get? "max_parallel_collections") = .ok c.maxParallel
  collections : ∀ i, (item? data i).map (readCollection c.sampling c.extraction i) = c.collections[i]?.map .ok
  names : checkNames (c.collections.map CollectionSettings.name) = .ok ()

variable {data item : Raw} {c : Config} {sampling : SamplingSettings} {extraction : ExtractionSettings}
  {entry : CollectionSettings} {i : Nat}

/-- Collections are read one by one. -/
theorem map_readCollection [Stack] {items : List Raw} {entries : List CollectionSettings}
    (h : readCollections sampling extraction i items = .ok entries) (j : Nat) :
    items[j]?.map (readCollection sampling extraction (i + j)) = entries[j]?.map .ok := by
  induction items generalizing i j entries with
  | nil =>
    obtain rfl := Except.ok.inj h
    rfl
  | cons item items ih =>
    obtain ⟨entry, hentry, h⟩ := exists_of_bind_ok h
    obtain ⟨entries, hentries, h⟩ := exists_of_bind_ok h
    obtain rfl := Except.ok.inj h
    cases j with
    | zero => exact congrArg some hentry
    | succ j =>
      have htail := ih hentries j
      rw [Nat.add_assoc, Nat.add_comm 1 j] at htail
      exact htail

theorem read_of_ofRaw [Stack] (h : ofRaw data = .ok c) : Read data c := by
  cases data with
  | map entries =>
    obtain ⟨source, hsource, h⟩ := exists_of_bind_ok h
    obtain ⟨sampling, hsampling, h⟩ := exists_of_bind_ok h
    obtain ⟨extraction, hextraction, h⟩ := exists_of_bind_ok h
    obtain ⟨maxParallel, hparallel, h⟩ := exists_of_bind_ok h
    obtain ⟨collections, hcollections, h⟩ := exists_of_bind_ok h
    obtain rfl := Except.ok.inj h
    rw [readCollectionList.eq_def] at hcollections
    split at hcollections
    · cases hcollections
    · cases hcollections
    · rename_i items _ hitems
      obtain ⟨entries, hentries, h⟩ := exists_of_bind_ok hcollections
      obtain ⟨⟨⟩, hnames, h⟩ := exists_of_bind_ok h
      obtain rfl := Except.ok.inj h
      refine ⟨hsource, hsampling, hextraction, hparallel, fun i => ?_, hnames⟩
      have hread := map_readCollection hentries i
      rw [Nat.zero_add] at hread
      rw [item?, Raw.get?, hitems]
      exact hread
    · cases hcollections
  | _ => cases h

/-- A collection holds what its item is read as: a name, and settings for which those of all collections stand
where it has none. -/
structure ReadEntry [Stack] (sampling : SamplingSettings) (extraction : ExtractionSettings) (i : Nat) (item : Raw)
    (entry : CollectionSettings) : Prop where
  name : (∃ name, item.text? = some name) ∧ entry.name = item ∨ item.get? "name" = some entry.name
  sampling : readSampling (partOf i "sampling") sampling (item.get? "sampling") =
    .ok (entry.sampling?.getD sampling)
  extraction : readExtraction (partOf i "extraction") extraction (item.get? "extraction") =
    .ok (entry.extraction?.getD extraction)

/-- Reads settings of a collection, if it has some of its own. -/
def readOwn {α : Type} (read : Option Raw → Except ConfigFault α) : Option Raw → Except ConfigFault (Option α)
  | none => .ok none
  | some data => (read (some data)).map some

theorem read_of_readOwn {α : Type} {read : Option Raw → Except ConfigFault α} {base : α} {data : Option Raw}
    {own? : Option α} (habsent : read none = .ok base) (h : readOwn read data = .ok own?) :
    read data = .ok (own?.getD base) := by
  cases data with
  | none =>
    obtain rfl := Except.ok.inj h
    exact habsent
  | some r =>
    obtain ⟨a, ha, rfl⟩ := exists_of_map_ok h
    exact ha

theorem readCollection_map [Stack] {entries : List (Raw × Raw)} {name : Raw} (hname : Raw.field? "name" entries = some name) :
    readCollection sampling extraction i (.map entries) = do
      let sampling? ← readOwn (readSampling (partOf i "sampling") sampling) (Raw.field? "sampling" entries)
      let extraction? ← readOwn (readExtraction (partOf i "extraction") extraction) (Raw.field? "extraction" entries)
      return { name, typeName := (Raw.field? "type_name" entries).getD .null, sampling?, extraction? } := by
  rw [readCollection, hname]
  cases Raw.field? "sampling" entries <;> cases Raw.field? "extraction" entries <;> rfl

theorem readEntry_of_readCollection [Stack] (h : readCollection sampling extraction i item = .ok entry) :
    ReadEntry sampling extraction i item entry := by
  cases item with
  | text s =>
    obtain rfl := Except.ok.inj h
    exact ⟨.inl ⟨⟨s, rfl⟩, rfl⟩, rfl, rfl⟩
  | code s =>
    obtain rfl := Except.ok.inj h
    exact ⟨.inl ⟨⟨s, rfl⟩, rfl⟩, rfl, rfl⟩
  | map entries =>
    cases hname : Raw.field? "name" entries with
    | none =>
      rw [readCollection, hname] at h
      cases h
    | some name =>
      rw [readCollection_map hname] at h
      obtain ⟨sampling?, hsampling, h⟩ := exists_of_bind_ok h
      obtain ⟨extraction?, hextraction, h⟩ := exists_of_bind_ok h
      obtain rfl := Except.ok.inj h
      exact ⟨.inr hname, read_of_readOwn rfl hsampling, read_of_readOwn rfl hextraction⟩
  | _ => cases h

/-- An item and the collection at its index are read as one another. -/
theorem Read.readEntry [Stack] (h : Read data c) (hitem : item? data i = some item) (hentry : c.collections[i]? = some entry) :
    ReadEntry c.sampling c.extraction i item entry := by
  have hread := h.collections i
  rw [hitem, hentry] at hread
  exact readEntry_of_readCollection (Option.some.inj hread)

/-- Each collection is read from an item. -/
theorem Read.exists_item [Stack] (h : Read data c) (hentry : entry ∈ c.collections) :
    ∃ i item, item? data i = some item ∧ ReadEntry c.sampling c.extraction i item entry := by
  obtain ⟨i, hi⟩ := List.mem_iff_getElem?.1 hentry
  have hread := h.collections i
  rw [hi] at hread
  obtain ⟨item, hitem, -⟩ := Option.map_eq_some_iff.1 hread
  exact ⟨i, item, hitem, h.readEntry hitem hi⟩

end DocSchema.Config
