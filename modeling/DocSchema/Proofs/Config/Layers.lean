import DocSchema.Proofs.Config.Reading
import DocSchema.Proofs.Settings.Reading

/-!
# Layers of settings

A setting of a collection is the one that the collection gives, if it does, or else the one for all collections, or
else the default. The settings of a collection are not kept in layers, though: they are read as the settings for all
collections with other values in the place of some, and each value is checked and brought into its form once more.
As a value that is held stays as it is, this makes no difference.

- `Settings.Layering`: settings that are read in layers, of either kind.
- `Layering.value_of_layers`: a setting that is read in two layers over the default.
- `ofRaw_layers`: the settings that hold in a configuration, and those that another collection does not touch.
-/

namespace DocSchema

/-- What the data of a section says about a setting, in one of its parts. -/
def Raw.said? (r : Raw) (part name : String) : Option Raw :=
  (r.get? part).bind (Raw.get? name)

/-! ## Settings of either kind -/

/-- Settings with names, of which each has a value that is held in a form of its own. -/
structure Settings.Layering (α : Type) where
  names : List String
  overriding : α → Settings.Fields → Except SettingsFault α
  default : α
  value : α → String → Raw
  held : String → Raw → Raw
  value_of_overriding {base s : α} {fields : Settings.Fields} {name : String} :
    overriding base fields = .ok s → name ∈ names →
      value s name = held name (Settings.value fields name (value base name))
  held_held (name : String) (r : Raw) : held name (held name r) = held name r
  overriding_default : overriding default [] = .ok default

/-- The settings of the sampling. -/
def SamplingSettings.layering [Stack] : Settings.Layering SamplingSettings where
  names := names
  overriding := overriding
  default := {}
  value := value
  held := held
  value_of_overriding h hname := (overriding_eq_ok_iff.1 h).2.value_eq hname
  held_held := held_held
  overriding_default := overriding_self

/-- The settings of the extraction. -/
def ExtractionSettings.layering [Stack] : Settings.Layering ExtractionSettings where
  names := names
  overriding := overriding
  default := {}
  value := value
  held := held
  value_of_overriding h hname := (overriding_eq_ok_iff.1 h).2.value_eq hname
  held_held := held_held
  overriding_default := overriding_self

namespace Settings.Layering

open Config (sectionFields readSection)

variable {α : Type} {l : Layering α} {base s : α} {part name : String} {data : Option Raw}

/-- The values of settings are in the form in which they are held. -/
def IsHeld (l : Layering α) (s : α) : Prop :=
  ∀ name ∈ l.names, l.held name (l.value s name) = l.value s name

theorem isHeld_of_overriding {fields : Settings.Fields} (h : l.overriding base fields = .ok s) : l.IsHeld s := by
  intro name hname
  rw [l.value_of_overriding h hname, l.held_held]

theorem isHeld_default (l : Layering α) : l.IsHeld l.default :=
  isHeld_of_overriding l.overriding_default

/-- The fields of entries have the values of the entries with text keys. -/
theorem lookup_filterMap (entries : List (Raw × Raw)) (name : String) :
    (entries.filterMap fun (key, value) => key.text?.map (·, value)).lookup name = Raw.field? name entries := by
  induction entries with
  | nil => rfl
  | cons e entries ih =>
    obtain ⟨key, value⟩ := e
    rw [Raw.field?, ← ih]
    cases hkey : key.text? with
    | none => simp [hkey]
    | some other =>
      by_cases heq : other = name
      · simp [hkey, heq]
      · simp [hkey, heq, List.lookup_cons, beq_eq_false_iff_ne.2 (Ne.symm heq)]

/-- The fields of a section have the values of its entries. -/
theorem lookup_sectionFields {known : List String} {entries : List (Raw × Raw)} {fields : Settings.Fields}
    (h : sectionFields part known entries = .ok fields) (name : String) :
    fields.lookup name = Raw.field? name entries := by
  rw [sectionFields] at h
  dsimp only at h
  split at h
  · rw [← Except.ok.inj h, lookup_filterMap]
  · split at h <;> cases h

/-- A section either leaves the settings as they are or overrides them with its fields. -/
theorem overriding_of_readSection (h : readSection part l.names l.overriding base data = .ok s) :
    (∀ name, data.bind (Raw.get? name) = none) ∧ s = base ∨
      ∃ fields, l.overriding base fields = .ok s ∧ ∀ name, fields.lookup name = data.bind (Raw.get? name) := by
  unfold readSection at h
  split at h
  · exact .inl ⟨fun name => rfl, (Except.ok.inj h).symm⟩
  · exact .inl ⟨fun name => rfl, (Except.ok.inj h).symm⟩
  · rename_i entries
    obtain ⟨fields, hfields, h⟩ := exists_of_bind_ok h
    refine .inr ⟨fields, ?_, lookup_sectionFields hfields⟩
    cases hs : l.overriding base fields with
    | ok s' =>
      rw [hs] at h
      rw [Except.ok.inj h]
    | error fault =>
      rw [hs] at h
      cases h
  · cases h

/-- A setting that is read has the value that its section gives, or else the one it had before. -/
theorem value_of_readSection (hbase : l.IsHeld base)
    (h : readSection part l.names l.overriding base data = .ok s) (hname : name ∈ l.names) :
    l.value s name = (data.bind (Raw.get? name)).elim (l.value base name) (l.held name) := by
  obtain ⟨hnone, rfl⟩ | ⟨fields, hs, hfields⟩ := overriding_of_readSection h
  · rw [hnone]
    rfl
  · rw [l.value_of_overriding hs hname, Settings.value, hfields]
    cases data.bind (Raw.get? name) with
    | none => exact hbase name hname
    | some r => rfl

/-- What holds of settings that are accepted, and of those before a section, holds of those after it. -/
theorem holds_of_readSection {P : α → Prop} (haccepted : ∀ {base fields s}, l.overriding base fields = .ok s → P s)
    (hbase : P base) (h : readSection part l.names l.overriding base data = .ok s) : P s := by
  obtain ⟨-, rfl⟩ | ⟨fields, hs, -⟩ := overriding_of_readSection h
  · exact hbase
  · exact haccepted hs

/-- What holds of settings that are accepted holds of those that are read over the default. -/
theorem holds_of_outer {P : α → Prop} (haccepted : ∀ {base fields s}, l.overriding base fields = .ok s → P s)
    (h : readSection part l.names l.overriding l.default data = .ok s) : P s :=
  holds_of_readSection haccepted (haccepted l.overriding_default) h

variable {outer inner : Option Raw} {outerPart innerPart : String} {outerSettings : α}

/-- What holds of settings that are accepted holds of those that are read in two layers over the default. -/
theorem holds_of_layers {P : α → Prop} (haccepted : ∀ {base fields s}, l.overriding base fields = .ok s → P s)
    (houter : readSection outerPart l.names l.overriding l.default outer = .ok outerSettings)
    (hinner : readSection innerPart l.names l.overriding outerSettings inner = .ok s) : P s :=
  holds_of_readSection haccepted (holds_of_outer haccepted houter) hinner

/-- Settings that are read in two layers over the default. -/
theorem value_of_layers
    (houter : readSection outerPart l.names l.overriding l.default outer = .ok outerSettings)
    (hinner : readSection innerPart l.names l.overriding outerSettings inner = .ok s) (hname : name ∈ l.names) :
    l.value s name =
      ((inner.bind (Raw.get? name)).or (outer.bind (Raw.get? name))).elim (l.value l.default name) (l.held name) := by
  rw [value_of_readSection (holds_of_outer isHeld_of_overriding houter) hinner hname]
  cases inner.bind (Raw.get? name) with
  | none => exact value_of_readSection l.isHeld_default houter hname
  | some r => rfl

end Settings.Layering

/-! ## Configurations -/

namespace Config

/-- The settings that hold for a collection are those that the collection gives, then those for all collections, then
the default ones. -/
structure LayeredEntry (data item : Raw) (c : Config) (entry : CollectionSettings) : Prop where
  sampling : ∀ name ∈ SamplingSettings.names, (c.samplingOf entry).value name =
    ((item.said? "sampling" name).or (data.said? "sampling" name)).elim
      (({} : SamplingSettings).value name) (SamplingSettings.held name)
  extraction : ∀ name ∈ ExtractionSettings.names, (c.extractionOf entry).value name =
    ((item.said? "extraction" name).or (data.said? "extraction" name)).elim
      (({} : ExtractionSettings).value name) (ExtractionSettings.held name)
  /-- The starts of hidden keys stay as they are when they are read once more. -/
  hiddenStarts : ExtractionSettings.startsOf (.tuple (c.extractionOf entry).hiddenStarts) =
    .ok (c.extractionOf entry).hiddenStarts

/-- The settings that hold in a configuration are those that its data gives. -/
structure Layered (data : Raw) (c : Config) : Prop where
  sampling : ∀ name ∈ SamplingSettings.names, c.sampling.value name =
    (data.said? "sampling" name).elim (({} : SamplingSettings).value name) (SamplingSettings.held name)
  extraction : ∀ name ∈ ExtractionSettings.names, c.extraction.value name =
    (data.said? "extraction" name).elim (({} : ExtractionSettings).value name) (ExtractionSettings.held name)
  /-- Each collection stands at the index of its item. -/
  items : ∀ i, (item? data i).isSome = c.collections[i]?.isSome
  entries : ∀ i item entry, item? data i = some item → c.collections[i]? = some entry →
    LayeredEntry data item c entry

/-- Two configurations differ in the collection at an index at most, and there in no setting about which the items of
both say the same. -/
structure Untouched (data data' : Raw) (c c' : Config) (j : Nat) : Prop where
  source : c'.source = c.source
  sampling : c'.sampling = c.sampling
  extraction : c'.extraction = c.extraction
  maxParallel : c'.maxParallel = c.maxParallel
  others : ∀ i, i ≠ j → c'.collections[i]? = c.collections[i]?
  settings : ∀ item item' entry entry', item? data j = some item → item? data' j = some item' →
    c.collections[j]? = some entry → c'.collections[j]? = some entry' → ∀ name,
    (name ∈ SamplingSettings.names → item'.said? "sampling" name = item.said? "sampling" name →
      (c'.samplingOf entry').value name = (c.samplingOf entry).value name) ∧
    (name ∈ ExtractionSettings.names → item'.said? "extraction" name = item.said? "extraction" name →
      (c'.extractionOf entry').value name = (c.extractionOf entry).value name)

variable {data data' : Raw} {c c' : Config}

/-- The starts of hidden keys are held if they stay as they are when they are read once more. -/
theorem startsOf_of_isHeld [Stack] {s : ExtractionSettings} (h : ExtractionSettings.layering.IsHeld s) :
    ExtractionSettings.startsOf (.tuple s.hiddenStarts) = .ok s.hiddenStarts := by
  have hname : "excluded_prefixes" ∈ ExtractionSettings.names := by decide
  have hheld := h "excluded_prefixes" hname
  exact congrArg Except.ok (Raw.tuple.inj hheld)

theorem Read.layeredEntry [Stack] (h : Read data c) {i : Nat} {item : Raw} {entry : CollectionSettings}
    (hitem : item? data i = some item) (hentry : c.collections[i]? = some entry) :
    LayeredEntry data item c entry where
  sampling _ := SamplingSettings.layering.value_of_layers h.sampling (h.readEntry hitem hentry).sampling
  extraction _ := ExtractionSettings.layering.value_of_layers h.extraction (h.readEntry hitem hentry).extraction
  hiddenStarts := startsOf_of_isHeld <|
    Settings.Layering.holds_of_layers Settings.Layering.isHeld_of_overriding h.extraction
      (h.readEntry hitem hentry).extraction

theorem Read.layered [Stack] (h : Read data c) : Layered data c where
  sampling _ := Settings.Layering.value_of_readSection SamplingSettings.layering.isHeld_default h.sampling
  extraction _ := Settings.Layering.value_of_readSection ExtractionSettings.layering.isHeld_default h.extraction
  items i := by simpa using congrArg Option.isSome (h.collections i)
  entries _ _ _ := h.layeredEntry

/-- What is read from a part of the data is read from that part of other data. -/
theorem eq_of_read {α : Type} {read : Option Raw → Except ConfigFault α} {part : String} {a a' : α}
    (hpart : data'.get? part = data.get? part) (h : read (data.get? part) = .ok a)
    (h' : read (data'.get? part) = .ok a') : a' = a := by
  rw [hpart, h] at h'
  exact (Except.ok.inj h').symm

/-- Nothing but the item at an index is read into the collection at that index. -/
theorem Read.untouched [Stack] (h : Read data c) (h' : Read data' c') {j : Nat}
    (hparts : ∀ part, part ≠ "collections" → data'.get? part = data.get? part)
    (hitems : ∀ i, i ≠ j → item? data' i = item? data i) : Untouched data data' c c' j := by
  have hsampling : c'.sampling = c.sampling := eq_of_read (hparts "sampling" (by decide)) h.sampling h'.sampling
  have hextraction : c'.extraction = c.extraction :=
    eq_of_read (hparts "extraction" (by decide)) h.extraction h'.extraction
  refine
    { source := eq_of_read (hparts "source" (by decide)) h.source h'.source
      sampling := hsampling
      extraction := hextraction
      maxParallel := eq_of_read (hparts "max_parallel_collections" (by decide)) h.maxParallel h'.maxParallel
      others := ?_
      settings := ?_ }
  · intro i hi
    have hread := h'.collections i
    rw [hitems i hi, hsampling, hextraction, h.collections i] at hread
    exact (Option.map_injective (fun _ _ => Except.ok.inj) hread).symm
  · intro item item' entry entry' hitem hitem' hentry hentry' name
    have hlayered := h.layeredEntry hitem hentry
    have hlayered' := h'.layeredEntry hitem' hentry'
    have hdata : ∀ part, part ≠ "collections" → data'.said? part name = data.said? part name := by
      intro part hpart
      rw [Raw.said?, Raw.said?, hparts part hpart]
    constructor
    · intro hname hsaid
      rw [hlayered.sampling name hname, hlayered'.sampling name hname, hsaid, hdata "sampling" (by decide)]
    · intro hname hsaid
      rw [hlayered.extraction name hname, hlayered'.extraction name hname, hsaid, hdata "extraction" (by decide)]

/-- **Layers of settings.** Each setting that holds for a collection is the one that the collection gives, or else
the one for all collections, or else the default, in the form in which it is held. What one collection gives changes
no other setting, of no other collection, and none of those for all collections. -/
theorem ofRaw_layers [Stack] (h : ofRaw data = .ok c) :
    Layered data c ∧ ∀ data' c' j, ofRaw data' = .ok c' →
      (∀ part, part ≠ "collections" → data'.get? part = data.get? part) →
      (∀ i, i ≠ j → item? data' i = item? data i) → Untouched data data' c c' j :=
  ⟨(read_of_ofRaw h).layered, fun _ _ _ h' hparts hitems =>
    (read_of_ofRaw h).untouched (read_of_ofRaw h') hparts hitems⟩

/-- The data of a configuration with settings for all collections, and with a collection that has none of its own and
one that has some. -/
def moviesData (comments : List (String × Raw)) : Raw :=
  .ofFields [
    ("source", .ofFields [("type", .text "memory")]),
    ("sampling", .ofFields [("batch_size", .long 100)]),
    ("extraction", .ofFields [("excluded_prefixes", .list [.text "_", .text ""])]),
    ("collections", .list [.text "movies", .ofFields (("name", .text "comments") :: comments)])]

/-- The configuration with that data. -/
def moviesConfig (sampling? : Option SamplingSettings) (extraction? : Option ExtractionSettings) : Config where
  source := { type := .text "memory" }
  collections := [{ name := .text "movies" }, { name := .text "comments", sampling?, extraction? }]
  sampling := { batchSize := 100 }
  extraction := { hiddenStarts := [.text "_"] }

/-- A collection has a batch size and hidden keys as all collections have them, a depth and no limit of time of its
own, and other defaults; without settings of its own the rest stays as it is. -/
theorem ofRaw_layers_movies :
    let data := moviesData [("sampling", .ofFields [("timeout_seconds", .null), ("max_samples", .int 2000)]),
      ("extraction", .ofFields [("max_depth", .int 5)])]
    let c := moviesConfig (some { batchSize := 100, maxSamples := 2000 })
      (some { maxDepth := 5, hiddenStarts := [.text "_"] })
    let c' := moviesConfig none none
    ofRaw data = .ok c ∧ ofRaw (moviesData []) = .ok c' ∧ Layered data c ∧ Untouched data (moviesData []) c c' 1 := by
  intro data c c'
  have hdata : ofRaw data = .ok c := by with_unfolding_all rfl
  have hdata' : ofRaw (moviesData []) = .ok c' := by with_unfolding_all rfl
  have hlayers := ofRaw_layers hdata
  refine ⟨hdata, hdata', hlayers.1, hlayers.2 (moviesData []) c' 1 hdata' ?_ ?_⟩
  · intro part hpart
    simp [data, moviesData, Raw.ofFields, Raw.get?, Raw.field?, Raw.text?, Ne.symm hpart]
  · rintro (_ | _ | i) hi
    · rfl
    · exact absurd rfl hi
    · rfl

end Config

end DocSchema
