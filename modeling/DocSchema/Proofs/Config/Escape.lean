import DocSchema.Proofs.Config.Checks
import DocSchema.Proofs.Raw.Keys

/-!
# Configurations that fail unnoticed

A configuration that is refused is told so, with the part of it that is at fault. Not every failure is told so. Keys
that are not known and names that are repeated are put in order to be told, which only texts are sure to be; what is
given for the starts of hidden keys is gone through, and need not be something to go through; names are compared,
which may be nested too deeply; and a value that is refused is told as it is shown, and may have no text. `Escapes`
lists what happens then, in any part of the data and on any stack.

- `exists_orderedTexts`, `exists_notText_of_orderedTexts`: texts can be told in order.
- `readSection_escapes_iff`, `readCollection_escapes_iff`, `checkNames_escapes_iff`: how sections, collections and
  the names of collections fail without a report.
- `ofRaw_unreported_iff`: which configurations fail without a report.
-/

namespace DocSchema

/-! ## Texts in order -/

namespace Raw

variable {values : List Raw} {m : Misuse}

theorem perm_of_inOrder? {ordered : List Raw} (h : inOrder? values = some ordered) : ordered.Perm values := by
  rw [inOrder?] at h
  dsimp only at h
  split at h
  · obtain rfl := Option.some.inj h
    exact List.mergeSort_perm _ _
  · cases h

/-- Texts can be put in order. -/
theorem exists_orderedTexts (h : ∀ v ∈ values, ∃ s, v = .text s) : ∃ ss, orderedTexts values = .ok ss := by
  have hcomparable : ∀ a ∈ values, ∀ b ∈ values, (isBefore? a b).isSome = true := by
    intro a ha b hb
    obtain ⟨s, rfl⟩ := h a ha
    obtain ⟨t, rfl⟩ := h b hb
    rw [isBefore?_text, Option.isSome_some]
  let ordered := values.mergeSort fun a b => !(isBefore? b a).getD false
  have horder : inOrder? values = some ordered :=
    if_pos (.inr (by simpa only [List.all_eq_true] using hcomparable))
  refine ⟨ordered.map fun v => v.text?.getD "", ?_⟩
  rw [orderedTexts, horder]
  refine texts_ok_iff.2 ?_
  rw [List.map_map]
  refine List.map_congr_left fun v hv => ?_
  obtain ⟨s, rfl⟩ := h v (List.mem_mergeSort.1 hv)
  rfl

/-- Values that are told in order are texts. -/
theorem exists_text?_of_orderedTexts {ss : List String} (h : orderedTexts values = .ok ss) {v : Raw}
    (hv : v ∈ values) : ∃ s, v.text? = some s := by
  rw [orderedTexts] at h
  split at h
  · rename_i ordered hordered
    have hmem : v.text? ∈ ordered.map text? :=
      List.mem_map_of_mem ((perm_of_inOrder? hordered).mem_iff.2 hv)
    rw [texts_ok_iff.1 h] at hmem
    obtain ⟨s, -, hs⟩ := List.mem_map.1 hmem
    exact ⟨s, hs.symm⟩
  · cases h

/-- Of values that cannot be put in order, or told, one is no text. -/
theorem exists_notText_of_orderedTexts (h : orderedTexts values = .error m) : ∃ v ∈ values, ∀ s, v ≠ .text s := by
  refine Classical.byContradiction fun hnone => ?_
  have hall : ∀ v ∈ values, ∃ s, v = .text s := fun v hv =>
    Classical.byContradiction fun hv' => hnone ⟨v, hv, fun s hs => hv' ⟨s, hs⟩⟩
  obtain ⟨ss, hss⟩ := exists_orderedTexts hall
  rw [hss] at h
  cases h

end Raw

namespace Config

variable {α β : Type} {f : ConfigFault}

/-! ## Failures without a report -/

/-- Something fails without a report. -/
def Unreported (e : Except ConfigFault α) (f : ConfigFault) : Prop :=
  e = .error f ∧ f.isReported = false

theorem not_unreported_ok {a : α} : ¬Unreported (.ok a) f := by
  simp [Unreported]

theorem not_unreported_error {fault : ConfigFault} (h : fault.isReported = true) :
    ¬Unreported (.error fault : Except ConfigFault α) f := by
  rintro ⟨hfault, hf⟩
  obtain rfl := Except.error.inj hfault
  exact Bool.false_ne_true (hf.symm.trans h)

theorem unreported_error {fault : ConfigFault} :
    Unreported (.error fault : Except ConfigFault α) f ↔ fault = f ∧ f.isReported = false := by
  simp [Unreported]

theorem unreported_bind_iff {e : Except ConfigFault α} {k : α → Except ConfigFault β} :
    Unreported (e >>= k) f ↔ Unreported e f ∨ ∃ a, e = .ok a ∧ Unreported (k a) f := by
  cases e with
  | ok a => simp [not_unreported_ok, bind, Except.bind]
  | error fault => simp [Unreported, bind, Except.bind]

theorem Unreported.bind {e : Except ConfigFault α} {k : α → Except ConfigFault β} (h : Unreported e f) :
    Unreported (e >>= k) f :=
  unreported_bind_iff.2 (.inl h)

theorem Unreported.bind_of_ok {e : Except ConfigFault α} {k : α → Except ConfigFault β} {a : α} (he : e = .ok a)
    (h : Unreported (k a) f) : Unreported (e >>= k) f :=
  unreported_bind_iff.2 (.inr ⟨a, he, h⟩)

theorem unreported_map_iff {e : Except ConfigFault α} {g : α → β} : Unreported (e.map g) f ↔ Unreported e f := by
  cases e <;> simp [Unreported, Except.map]

theorem unreported_mapError_iff {e : Except SettingsFault α} {tell : SettingsFault → ConfigFault}
    (htell : ∀ fault, (tell fault).isReported = true) :
    Unreported (e.mapError (.ofSettings tell)) f ↔ Settings.unreported? e = some f := by
  cases e with
  | ok a => exact iff_of_false not_unreported_ok (by simp [Settings.unreported?])
  | error fault =>
    change Unreported (.error (.ofSettings tell fault)) f ↔ fault.unreported? = some f
    rw [unreported_error]
    constructor
    · rintro ⟨rfl, hf⟩
      cases fault with
      | misuse m => rfl
      | notShown fault => rfl
      | _ => exact absurd ((htell _).symm.trans hf) (by decide)
    · intro h
      cases fault <;> cases h <;> exact ⟨rfl, rfl⟩

/-! ## Sections -/

/-- The keys of a section that are not known. -/
def unknownKeys (known : List String) (entries : List (Raw × Raw)) : List Raw :=
  (entries.filter fun (key, _) => !(key.text?.any known.contains)).map Prod.fst

end Config

namespace Settings.Checked

open Config (Unreported readSection sectionFields unknownKeys)

variable {α : Type} {l : Checked α} {base : α} {part : String} {data : Option Raw} {f : ConfigFault}

/-- The settings pass their checks. -/
def Accepts (l : Checked α) (s : α) : Prop :=
  ∀ c ∈ l.checks, c.accepts (l.value s c.name) = true

/-- How a section of settings fails without a report. -/
inductive Escapes (l : Checked α) : Option Raw → ConfigFault → Prop
  /-- A key that is not known is no text, and those that are not known cannot be told in order. -/
  | keys {entries : List (Raw × Raw)} {key : Raw} {m : Misuse} (key_mem : key ∈ unknownKeys l.names entries)
      (notText : ∀ s, key ≠ .text s) (fault_eq : Raw.orderedTexts (unknownKeys l.names entries) = .error m) :
      Escapes l (some (.map entries)) (.misuse m)
  /-- All keys are known, and what comes of the first value that is refused is not reported. -/
  | value {entries : List (Raw × Raw)} {c : Check} {r : Raw} {fault : ConfigFault}
      (known : unknownKeys l.names entries = [])
      (first : l.checks.find? (·.refuses (Raw.field? · entries)) = some c)
      (value_eq : Raw.field? c.name entries = some r) (fault_eq : c.escape? r = some fault) :
      Escapes l (some (.map entries)) fault

theorem sectionFields_eq {known : List String} {entries : List (Raw × Raw)} :
    sectionFields part known entries =
      if unknownKeys known entries = [] then
        .ok (entries.filterMap fun (key, value) => key.text?.map (·, value))
      else match Raw.orderedTexts (unknownKeys known entries) with
        | .ok keys => .error (.unknownKeys part keys known.mergeSort)
        | .error m => .error (.misuse m) := by
  have hempty : (entries.filter fun (key, _) => !(key.text?.any known.contains)).isEmpty = true ↔
      unknownKeys known entries = [] := by
    rw [unknownKeys, List.map_eq_nil_iff, List.isEmpty_iff]
  rw [sectionFields]
  by_cases h : unknownKeys known entries = []
  · rw [if_pos h]
    exact if_pos (hempty.2 h)
  · rw [if_neg h]
    exact if_neg (mt hempty.1 h)

/-- The fields of a section have known names. -/
theorem checkNames_sectionFields {known : List String} {entries : List (Raw × Raw)} {fields : Settings.Fields}
    (h : sectionFields part known entries = .ok fields) :
    unknownKeys known entries = [] ∧ Settings.checkNames known fields = .ok () := by
  rw [sectionFields_eq] at h
  split at h
  · rename_i hunknown
    refine ⟨hunknown, ?_⟩
    have hknown : ∀ e ∈ entries, e.1.text?.any known.contains = true := by
      simpa [unknownKeys] using hunknown
    obtain rfl := Except.ok.inj h
    rw [Settings.checkNames, List.find?_eq_none.2]
    rintro ⟨name, value⟩ hfield
    obtain ⟨⟨key, value⟩, he, hkey⟩ := List.mem_filterMap.1 hfield
    obtain ⟨name, htext, hname⟩ := Option.map_eq_some_iff.1 hkey
    cases hname
    have hcontains := hknown _ he
    rw [htext] at hcontains
    simpa using hcontains
  · split at h <;> cases h

theorem unreported_sectionFields_iff {known : List String} {entries : List (Raw × Raw)} :
    Unreported (sectionFields part known entries) f ↔
      ∃ m, Raw.orderedTexts (unknownKeys known entries) = .error m ∧ f = .misuse m := by
  rw [sectionFields_eq]
  split
  · rename_i hnone
    obtain ⟨ss, hss⟩ : ∃ ss, Raw.orderedTexts [] = .ok ss := Raw.exists_orderedTexts (by simp)
    simp [hnone, hss, Config.not_unreported_ok]
  · cases Raw.orderedTexts (unknownKeys known entries) with
    | ok keys => exact iff_of_false (Config.not_unreported_error rfl) (by simp)
    | error m =>
      simp only [Config.unreported_error, Except.error.injEq, exists_eq_left']
      constructor
      · exact fun h => h.1.symm
      · rintro rfl
        exact ⟨rfl, rfl⟩

/-- The values of known fields fail without a report by the first check that refuses one. -/
theorem unreported_overriding_iff (hbase : l.Accepts base) {entries : List (Raw × Raw)} {fields : Settings.Fields}
    (hfields : sectionFields part l.names entries = .ok fields) :
    Unreported ((l.overriding base fields).mapError (.ofSettings (.invalidSection part))) f ↔
      ∃ c r, l.checks.find? (·.refuses (Raw.field? · entries)) = some c ∧ Raw.field? c.name entries = some r ∧
        c.escape? r = some f := by
  rw [Config.unreported_mapError_iff fun _ => rfl, l.unreported?_overriding (checkNames_sectionFields hfields).2,
    ← firstEscape?_getD hbase]
  simp only [Layering.lookup_sectionFields hfields]

/-- A section over settings that are accepted fails without a report because of a key, or of a value of its own. -/
theorem readSection_escapes_iff (hbase : l.Accepts base) :
    Unreported (readSection part l.names l.overriding base data) f ↔ l.Escapes data f := by
  constructor
  · intro h
    unfold readSection at h
    split at h
    · exact absurd h Config.not_unreported_ok
    · exact absurd h Config.not_unreported_ok
    · obtain hkeys | ⟨fields, hfields, hvalue⟩ := Config.unreported_bind_iff.1 h
      · obtain ⟨m, hm, rfl⟩ := unreported_sectionFields_iff.1 hkeys
        obtain ⟨key, hkey, hnot⟩ := Raw.exists_notText_of_orderedTexts hm
        exact .keys hkey hnot hm
      · obtain ⟨c, r, hfirst, hr, hescape⟩ := (unreported_overriding_iff hbase hfields).1 hvalue
        exact .value (checkNames_sectionFields hfields).1 hfirst hr hescape
    · exact absurd h (Config.not_unreported_error rfl)
  · intro h
    cases h with
    | keys key_mem notText fault_eq =>
      exact .bind (unreported_sectionFields_iff.2 ⟨_, fault_eq, rfl⟩)
    | value known first value_eq fault_eq =>
      have hfields : sectionFields part _ _ = _ := sectionFields_eq.trans (if_pos known)
      exact .bind_of_ok hfields ((unreported_overriding_iff hbase hfields).2 ⟨_, _, first, value_eq, fault_eq⟩)

theorem accepts_default (l : Checked α) : l.Accepts l.default :=
  l.accepts_value l.overriding_default

theorem accepts_of_readSection {s : α} (h : readSection part l.names l.overriding l.default data = .ok s) :
    l.Accepts s :=
  Layering.holds_of_outer l.accepts_value h

theorem unreported_readOwn_iff (hbase : l.Accepts base) :
    Unreported (Config.readOwn (readSection part l.names l.overriding base) data) f ↔ l.Escapes data f := by
  cases data with
  | none =>
    rw [Config.readOwn]
    exact ⟨fun h => absurd h Config.not_unreported_ok, fun h => nomatch h⟩
  | some r => rw [Config.readOwn, Config.unreported_map_iff, readSection_escapes_iff hbase]

end Settings.Checked

namespace Config

variable {data item : Raw} {sampling : SamplingSettings} {extraction : ExtractionSettings} {i : Nat}

/-! ## Collections -/

/-- How a collection at an index fails without a report: one of its own sections does. -/
inductive EntryEscapes [Stack] (sampling : SamplingSettings) (i : Nat) (item : Raw) : ConfigFault → Prop
  /-- Its settings of the sampling fail so. -/
  | sampling {name : Raw} {fault : ConfigFault} (name_eq : item.get? "name" = some name)
      (fails : SamplingSettings.checked.Escapes (item.get? "sampling") fault) : EntryEscapes sampling i item fault
  /-- Its settings of the extraction fail so, after those of the sampling went well. -/
  | extraction {name : Raw} {own? : Option SamplingSettings} {fault : ConfigFault}
      (name_eq : item.get? "name" = some name)
      (sampling_eq : readOwn (readSampling (partOf i "sampling") sampling) (item.get? "sampling") = .ok own?)
      (fails : ExtractionSettings.checked.Escapes (item.get? "extraction") fault) : EntryEscapes sampling i item fault

/-- A collection that fails so has a name and settings of its own. -/
theorem EntryEscapes.exists_map [Stack] (h : EntryEscapes sampling i item f) :
    ∃ entries name, item = .map entries ∧ Raw.field? "name" entries = some name := by
  obtain ⟨name, hname⟩ : ∃ name, item.get? "name" = some name := by
    cases h with
    | sampling name_eq => exact ⟨_, name_eq⟩
    | extraction name_eq => exact ⟨_, name_eq⟩
  cases item with
  | map entries => exact ⟨entries, name, rfl, hname⟩
  | _ => cases hname

theorem readCollection_escapes_iff [Stack] (hsampling : SamplingSettings.checked.Accepts sampling)
    (hextraction : ExtractionSettings.checked.Accepts extraction) :
    Unreported (readCollection sampling extraction i item) f ↔ EntryEscapes sampling i item f := by
  constructor
  · intro h
    cases item with
    | text s => exact absurd h not_unreported_ok
    | code s => exact absurd h not_unreported_ok
    | map entries =>
      cases hname : Raw.field? "name" entries with
      | none =>
        rw [readCollection, hname] at h
        exact absurd h (not_unreported_error rfl)
      | some name =>
        rw [readCollection_map hname] at h
        obtain h | ⟨own?, hown, h⟩ := unreported_bind_iff.1 h
        · exact .sampling hname ((Settings.Checked.unreported_readOwn_iff hsampling).1 h)
        obtain h | ⟨own?', hown', h⟩ := unreported_bind_iff.1 h
        · exact .extraction hname hown ((Settings.Checked.unreported_readOwn_iff hextraction).1 h)
        · exact absurd h not_unreported_ok
    | _ => exact absurd h (not_unreported_error rfl)
  · intro h
    obtain ⟨entries, name, rfl, hname⟩ := h.exists_map
    rw [readCollection_map hname]
    cases h with
    | sampling name_eq fails => exact .bind ((Settings.Checked.unreported_readOwn_iff hsampling).2 fails)
    | extraction name_eq sampling_eq fails =>
      exact .bind_of_ok sampling_eq <| .bind <| (Settings.Checked.unreported_readOwn_iff hextraction).2 fails

/-- Collections fail by the first that does. -/
theorem readCollections_eq_error_iff [Stack] {items : List Raw} :
    readCollections sampling extraction i items = .error f ↔ ∃ j item, items[j]? = some item ∧
      (∀ k < j, ∀ other, items[k]? = some other →
        ∃ entry, readCollection sampling extraction (i + k) other = .ok entry) ∧
      readCollection sampling extraction (i + j) item = .error f := by
  induction items generalizing i with
  | nil => simp [readCollections]
  | cons item items ih =>
    have hshift : ∀ j, i + 1 + j = i + (j + 1) := fun j => by omega
    cases hentry : readCollection sampling extraction i item with
    | error fault =>
      have hfirst : readCollections sampling extraction i (item :: items) = .error fault := by
        rw [readCollections, hentry]
        rfl
      rw [hfirst]
      -- nothing is read before the first item, and nothing fails after it
      constructor
      · intro h
        obtain rfl := Except.error.inj h
        exact ⟨0, item, rfl, fun k hk => absurd hk (Nat.not_lt_zero k), hentry⟩
      · rintro ⟨j, failed, hfailed, hbefore, h⟩
        cases j with
        | zero =>
          obtain rfl := Option.some.inj hfailed
          exact congrArg Except.error (Except.error.inj (hentry.symm.trans h))
        | succ j =>
          obtain ⟨entry, hok⟩ := hbefore 0 j.succ_pos item rfl
          cases hentry.symm.trans hok
    | ok entry =>
      have hrest : readCollections sampling extraction i (item :: items) = .error f ↔
          readCollections sampling extraction (i + 1) items = .error f := by
        rw [readCollections, hentry]
        cases readCollections sampling extraction (i + 1) items <;> simp [bind, Except.bind]
      -- the failure is one of the rest, where each item stands one place further on
      rw [hrest, ih]
      simp only [hshift]
      constructor
      · rintro ⟨j, failed, hfailed, hbefore, h⟩
        refine ⟨j + 1, failed, hfailed, fun k hk other hother => ?_, h⟩
        cases k with
        | zero =>
          obtain rfl := Option.some.inj hother
          exact ⟨entry, hentry⟩
        | succ k => exact hbefore k (Nat.lt_of_succ_lt_succ hk) other hother
      · rintro ⟨j, failed, hfailed, hbefore, h⟩
        cases j with
        | zero =>
          obtain rfl := Option.some.inj hfailed
          cases hentry.symm.trans h
        | succ j =>
          exact ⟨j, failed, hfailed, fun k hk => hbefore (k + 1) (Nat.succ_lt_succ hk), h⟩

/-- Keys that can be told in order are texts. -/
theorem exists_text_of_orderedTexts_distinct {keys : List Raw} {ss : List String}
    (hkeys : ∀ key ∈ keys, key.isKey = true) (h : Raw.orderedTexts (Raw.distinct keys) = .ok ss) {key : Raw}
    (hkey : key ∈ keys) : ∃ s, key = .text s := by
  obtain ⟨other, hother, hsame⟩ := Raw.exists_same_of_mem_distinct hkey
  obtain ⟨s, hs⟩ := Raw.exists_text?_of_orderedTexts h hother
  have hotherKey := hkeys other (Raw.mem_of_mem_distinct hother)
  obtain rfl : other = .text s := by
    cases other with
    | text t => exact congrArg Raw.text (Option.some.inj hs)
    | code t => cases hotherKey
    | _ => cases hs
  obtain rfl | hsame := hsame
  · exact ⟨s, rfl⟩
  · exact ⟨s, Raw.eq_text_of_same hsame⟩

/-- Two names of a list are nested too deeply to be compared. -/
def Incomparable [Stack] (names : List Raw) : Prop :=
  ∃ (i j : Nat) (name other : Raw), i ≠ j ∧ names[i]? = some name ∧ names[j]? = some other ∧
    other.exhausts (Stack.compared j i) name = true

theorem isIncomparable_iff [Stack] {names : List Raw} {name : Raw} {i : Nat} :
    isIncomparable names name i = true ↔
      ∃ j other, i ≠ j ∧ names[j]? = some other ∧ other.exhausts (Stack.compared j i) name = true := by
  rw [isIncomparable, List.any_eq_true]
  constructor
  · rintro ⟨⟨other, j⟩, hmem, h⟩
    rw [Bool.and_eq_true, bne_iff_ne] at h
    exact ⟨j, other, h.1.symm, List.mem_zipIdx_iff_getElem?.1 hmem, h.2⟩
  · rintro ⟨j, other, hne, hother, h⟩
    refine ⟨(other, j), List.mem_zipIdx_iff_getElem?.2 hother, ?_⟩
    rw [Bool.and_eq_true, bne_iff_ne]
    exact ⟨hne.symm, h⟩

/-- A name that cannot be counted or kept is no text that occurs more than once, or is nested too deeply. -/
theorem escapes_of_countFault? [Stack] {names : List Raw} {name : Raw} {i : Nat} (hname : names[i]? = some name)
    (h : countFault? names (name, i) = some f) :
    ((∃ name ∈ repeatedNames names, ∀ s, name ≠ .text s) ∨ Incomparable names) ∧ f.isReported = false := by
  rw [countFault?] at h
  split at h
  · rename_i hincomparable
    obtain rfl := Option.some.inj h
    obtain ⟨j, other, hne, hother, hexhausts⟩ := isIncomparable_iff.1 hincomparable
    exact ⟨.inr ⟨i, j, name, other, hne, hname, hother, hexhausts⟩, rfl⟩
  · split at h
    · rename_i hrepeated
      obtain rfl := Option.some.inj h
      rw [Bool.and_eq_true, Bool.not_eq_true'] at hrepeated
      have hmem := List.mem_filter.2 ⟨List.mem_of_getElem? hname, hrepeated.1⟩
      refine ⟨.inl ⟨name, hmem, ?_⟩, rfl⟩
      rintro s rfl
      cases hrepeated.2
    · cases h

/-- Where all names can be counted and kept, they can be compared, and those that occur more than once are keys. -/
theorem countable_of_countFault? [Stack] {names : List Raw} (h : names.zipIdx.findSome? (countFault? names) = none) :
    ¬Incomparable names ∧ ∀ name ∈ repeatedNames names, name.isKey = true := by
  have hnone : ∀ i name, names[i]? = some name → countFault? names (name, i) = none := fun i name hname =>
    List.findSome?_eq_none_iff.1 h (name, i) (List.mem_zipIdx_iff_getElem?.2 hname)
  constructor
  · rintro ⟨i, j, name, other, hne, hname, hother, hexhausts⟩
    have hcount := hnone i name hname
    rw [countFault?, if_pos (isIncomparable_iff.2 ⟨j, other, hne, hother, hexhausts⟩)] at hcount
    cases hcount
  · intro name hname
    obtain ⟨hmem, hrepeated⟩ := List.mem_filter.1 hname
    obtain ⟨i, hi⟩ := List.mem_iff_getElem?.1 hmem
    have hcount := hnone i name hi
    rw [countFault?] at hcount
    split at hcount
    · cases hcount
    · simpa [hrepeated] using hcount

/-- The names of collections fail without a report if one that is repeated is no text, or if two are nested too deeply
to be compared. -/
theorem checkNames_escapes_iff [Stack] {names : List Raw} :
    Unreported (checkNames names) f ↔
      ((∃ name ∈ repeatedNames names, ∀ s, name ≠ .text s) ∨ Incomparable names) ∧ checkNames names = .error f := by
  rw [Unreported, and_comm, and_congr_left_iff]
  intro h
  -- a failure is a name that cannot be counted or kept, names that are told, or names that cannot be
  rw [checkNames] at h
  split at h
  · rename_i fault hfault
    obtain rfl := Except.error.inj h
    obtain ⟨⟨name, i⟩, hmem, hcount⟩ := List.exists_of_findSome?_eq_some hfault
    obtain ⟨hescapes, hreported⟩ := escapes_of_countFault? (List.mem_zipIdx_iff_getElem?.1 hmem) hcount
    exact iff_of_true hreported hescapes
  · rename_i hnone
    obtain ⟨hcomparable, hallKeys⟩ := countable_of_countFault? hnone
    dsimp only at h
    split at h
    · cases h
    split at h
    · rename_i texts htexts
      obtain rfl := Except.error.inj h
      refine iff_of_false Bool.false_ne_true.symm ?_
      rintro (⟨name, hname, hnot⟩ | hincomparable)
      · obtain ⟨s, hs⟩ := exists_text_of_orderedTexts_distinct hallKeys htexts hname
        exact hnot s hs
      · exact hcomparable hincomparable
    · rename_i m hm
      obtain rfl := Except.error.inj h
      obtain ⟨name, hname, hnot⟩ := Raw.exists_notText_of_orderedTexts hm
      exact iff_of_true rfl (.inl ⟨name, Raw.mem_of_mem_distinct hname, hnot⟩)

theorem unreported_readCollections_iff [Stack] (hsampling : SamplingSettings.checked.Accepts sampling)
    (hextraction : ExtractionSettings.checked.Accepts extraction) {items : List Raw} :
    Unreported (readCollections sampling extraction 0 items) f ↔ ∃ j item, items[j]? = some item ∧
      (∀ k < j, ∀ other, items[k]? = some other → ∃ entry, readCollection sampling extraction k other = .ok entry) ∧
      EntryEscapes sampling j item f := by
  simp only [← readCollection_escapes_iff hsampling hextraction, Unreported, readCollections_eq_error_iff,
    Nat.zero_add]
  constructor
  · rintro ⟨⟨j, item, hitem, hbefore, h⟩, hf⟩
    exact ⟨j, item, hitem, hbefore, h, hf⟩
  · rintro ⟨j, item, hitem, hbefore, h, hf⟩
    exact ⟨⟨j, item, hitem, hbefore, h⟩, hf⟩

/-- A list of collections fails without a report if one of them does, or their names do. -/
theorem unreported_readCollectionList_iff [Stack] {data : Option Raw} :
    Unreported (readCollectionList sampling extraction data) f ↔ ∃ items, data = some (.list items) ∧
      (Unreported (readCollections sampling extraction 0 items) f ∨
        ∃ entries, readCollections sampling extraction 0 items = .ok entries ∧
          Unreported (checkNames (entries.map CollectionSettings.name)) f) := by
  unfold readCollectionList
  split
  · exact iff_of_false (not_unreported_error rfl) (by simp)
  · refine iff_of_false (not_unreported_error rfl) ?_
    rintro ⟨items, hitems, h⟩
    cases hitems
    obtain h | ⟨entries, hentries, h⟩ := h
    · exact not_unreported_ok h
    · obtain rfl := Except.ok.inj hentries
      exact not_unreported_ok h
  · simp [unreported_bind_iff, not_unreported_ok]
  · rename_i hlist
    refine iff_of_false (not_unreported_error rfl) ?_
    rintro ⟨items, hitems, -⟩
    exact hlist items (Option.some.inj hitems)

/-! ## Configurations -/

/-- All of a configuration is read, but for its collections. -/
structure ReadOuter [Stack] (data : Raw) (sampling : SamplingSettings) (extraction : ExtractionSettings) : Prop where
  source : ∃ source, readSource (data.get? "source") = .ok source
  sampling : readSampling "sampling" {} (data.get? "sampling") = .ok sampling
  extraction : readExtraction "extraction" {} (data.get? "extraction") = .ok extraction
  parallel : ∃ n, readParallel (data.get? "max_parallel_collections") = .ok n

/-- How a configuration fails without a report. -/
inductive Escapes [Stack] (data : Raw) : ConfigFault → Prop
  /-- The data is no mapping. -/
  | notMapping (ne_map : ∀ entries, data ≠ .map entries) : Escapes data (.misuse (.noPart data.typeName "get"))
  /-- The settings of the sampling fail so. -/
  | sampling {source : SourceSettings} {fault : ConfigFault}
      (source_eq : readSource (data.get? "source") = .ok source)
      (fails : SamplingSettings.checked.Escapes (data.get? "sampling") fault) : Escapes data fault
  /-- The settings of the extraction fail so, after those of the sampling went well. -/
  | extraction {source : SourceSettings} {sampling : SamplingSettings} {fault : ConfigFault}
      (source_eq : readSource (data.get? "source") = .ok source)
      (sampling_eq : readSampling "sampling" {} (data.get? "sampling") = .ok sampling)
      (fails : ExtractionSettings.checked.Escapes (data.get? "extraction") fault) : Escapes data fault
  /-- The number of collections at a time is refused, and cannot be shown. -/
  | parallel {source : SourceSettings} {sampling : SamplingSettings} {extraction : ExtractionSettings} {r : Raw}
      {fault : Raw.ShowFault} (source_eq : readSource (data.get? "source") = .ok source)
      (sampling_eq : readSampling "sampling" {} (data.get? "sampling") = .ok sampling)
      (extraction_eq : readExtraction "extraction" {} (data.get? "extraction") = .ok extraction)
      (value_eq : data.get? "max_parallel_collections" = some r) (refused : ∀ n, r.int? = some n → n ≤ 0)
      (fault_eq : r.showFault? = some fault) : Escapes data (.notShown fault)
  /-- A collection fails so, after those before it went well. -/
  | collection {sampling : SamplingSettings} {extraction : ExtractionSettings} {j : Nat} {item : Raw}
      {fault : ConfigFault} (outer : ReadOuter data sampling extraction) (item_eq : item? data j = some item)
      (read : ∀ k < j, ∀ other, item? data k = some other →
        ∃ entry, readCollection sampling extraction k other = .ok entry)
      (fails : EntryEscapes sampling j item fault) : Escapes data fault
  /-- A name that is repeated is no text. -/
  | names {sampling : SamplingSettings} {extraction : ExtractionSettings} {items : List Raw}
      {entries : List CollectionSettings} {name : Raw} {fault : ConfigFault}
      (outer : ReadOuter data sampling extraction) (items_eq : data.get? "collections" = some (.list items))
      (entries_eq : readCollections sampling extraction 0 items = .ok entries)
      (name_mem : name ∈ repeatedNames (entries.map CollectionSettings.name)) (notText : ∀ s, name ≠ .text s)
      (fault_eq : checkNames (entries.map CollectionSettings.name) = .error fault) : Escapes data fault
  /-- Two names are nested too deeply to be compared. -/
  | compared {sampling : SamplingSettings} {extraction : ExtractionSettings} {items : List Raw}
      {entries : List CollectionSettings} {fault : ConfigFault}
      (outer : ReadOuter data sampling extraction) (items_eq : data.get? "collections" = some (.list items))
      (entries_eq : readCollections sampling extraction 0 items = .ok entries)
      (incomparable : Incomparable (entries.map CollectionSettings.name))
      (fault_eq : checkNames (entries.map CollectionSettings.name) = .error fault) : Escapes data fault

theorem not_unreported_readSource {r? : Option Raw} : ¬Unreported (readSource r?) f := by
  unfold readSource
  split
  · exact not_unreported_error rfl
  · exact not_unreported_error rfl
  · split
    · exact not_unreported_error rfl
    · split
      · exact not_unreported_ok
      · exact not_unreported_error rfl
  · exact not_unreported_error rfl

theorem unreported_readParallel_iff [Stack] {r? : Option Raw} :
    Unreported (readParallel r?) f ↔ ∃ r fault, r? = some r ∧ (∀ n, r.int? = some n → n ≤ 0) ∧
      r.showFault? = some fault ∧ f = .notShown fault := by
  rw [readParallel, unreported_mapError_iff fun _ => rfl, Settings.describes_positive.unreported?_eq_some_iff]
  cases r? with
  | none => simp [Settings.Check.size, Raw.int?]
  | some r =>
    have hrefused : (Settings.Check.size "max_parallel_collections").accepts r = false ↔
        ∀ n, r.int? = some n → n ≤ 0 := by
      cases hint : r.int? <;> simp [Settings.Check.size, hint]
    rw [Option.getD_some, hrefused]
    constructor
    · rintro ⟨hr, hescape⟩
      obtain ⟨fault, hfault, rfl⟩ := Option.map_eq_some_iff.1 hescape
      exact ⟨r, fault, rfl, hr, hfault, rfl⟩
    · rintro ⟨_, fault, hsome, hr, hfault, rfl⟩
      obtain rfl := Option.some.inj hsome
      exact ⟨hr, Option.map_eq_some_iff.2 ⟨fault, hfault, rfl⟩⟩

theorem readSampling_escapes_iff [Stack] {part : String} {r? : Option Raw}
    (hsampling : SamplingSettings.checked.Accepts sampling) :
    Unreported (readSampling part sampling r?) f ↔ SamplingSettings.checked.Escapes r? f :=
  Settings.Checked.readSection_escapes_iff hsampling

theorem readExtraction_escapes_iff [Stack] {part : String} {r? : Option Raw}
    (hextraction : ExtractionSettings.checked.Accepts extraction) :
    Unreported (readExtraction part extraction r?) f ↔ ExtractionSettings.checked.Escapes r? f :=
  Settings.Checked.readSection_escapes_iff hextraction

theorem exists_map_of_readSource {source : SourceSettings} (h : readSource (data.get? "source") = .ok source) :
    ∃ entries, data = .map entries := by
  cases data with
  | map entries => exact ⟨entries, rfl⟩
  | _ => cases h

theorem item?_eq {items : List Raw} (h : data.get? "collections" = some (.list items)) (j : Nat) :
    item? data j = items[j]? := by
  rw [item?, h]

theorem exists_items_of_item? {j : Nat} (h : item? data j = some item) :
    ∃ items, data.get? "collections" = some (.list items) ∧ ∀ k, item? data k = items[k]? := by
  rw [item?.eq_def] at h
  split at h
  · rename_i items hitems
    exact ⟨items, hitems, item?_eq hitems⟩
  · cases h

theorem escapes_of_readCollectionList [Stack] (houter : ReadOuter data sampling extraction)
    (h : Unreported (readCollectionList sampling extraction (data.get? "collections")) f) : Escapes data f := by
  have hsampling := SamplingSettings.checked.accepts_of_readSection houter.sampling
  have hextraction := ExtractionSettings.checked.accepts_of_readSection houter.extraction
  obtain ⟨items, hitems, h⟩ := unreported_readCollectionList_iff.1 h
  have hitem := item?_eq hitems
  obtain h | ⟨entries, hentries, h⟩ := h
  · obtain ⟨j, item, hj, hbefore, h⟩ := (unreported_readCollections_iff hsampling hextraction).1 h
    exact .collection houter ((hitem j).trans hj) (fun k hk other hother => hbefore k hk other (hitem k ▸ hother)) h
  · obtain ⟨⟨name, hname, hnot⟩ | hincomparable, hfault⟩ := checkNames_escapes_iff.1 h
    · exact .names houter hitems hentries hname hnot hfault
    · exact .compared houter hitems hentries hincomparable hfault

theorem escapes_of_ofRaw [Stack] (h : Unreported (ofRaw data) f) : Escapes data f := by
  cases data with
  | map entries =>
    obtain h | ⟨source, hsource, h⟩ := unreported_bind_iff.1 h
    · exact absurd h not_unreported_readSource
    obtain h | ⟨sampling, hsampling, h⟩ := unreported_bind_iff.1 h
    · have hfails := (readSampling_escapes_iff SamplingSettings.checked.accepts_default).1 h
      exact .sampling hsource hfails
    obtain h | ⟨extraction, hextraction, h⟩ := unreported_bind_iff.1 h
    · have hfails := (readExtraction_escapes_iff ExtractionSettings.checked.accepts_default).1 h
      exact .extraction hsource hsampling hfails
    obtain h | ⟨maxParallel, hparallel, h⟩ := unreported_bind_iff.1 h
    · obtain ⟨r, fault, hr, hrefused, hfault, rfl⟩ := unreported_readParallel_iff.1 h
      exact .parallel hsource hsampling hextraction hr hrefused hfault
    obtain h | ⟨collections, hcollections, h⟩ := unreported_bind_iff.1 h
    · exact escapes_of_readCollectionList ⟨⟨source, hsource⟩, hsampling, hextraction, ⟨maxParallel, hparallel⟩⟩ h
    · exact absurd h not_unreported_ok
  | _ =>
    obtain ⟨hfault, -⟩ := h
    cases hfault
    exact .notMapping fun entries => by simp

/-- What the list of collections fails with is what the configuration fails with. -/
theorem ReadOuter.unreported_ofRaw [Stack] (houter : ReadOuter data sampling extraction)
    (h : Unreported (readCollectionList sampling extraction (data.get? "collections")) f) :
    Unreported (ofRaw data) f := by
  obtain ⟨source, hsource⟩ := houter.source
  obtain ⟨maxParallel, hparallel⟩ := houter.parallel
  obtain ⟨entries, rfl⟩ := exists_map_of_readSource hsource
  exact .bind_of_ok hsource <| .bind_of_ok houter.sampling <| .bind_of_ok houter.extraction <|
    .bind_of_ok hparallel <| .bind h

theorem Escapes.result [Stack] (h : Escapes data f) : Unreported (ofRaw data) f := by
  cases h with
  | notMapping ne_map =>
    cases data with
    | map entries => exact absurd rfl (ne_map entries)
    | _ => exact ⟨rfl, rfl⟩
  | sampling source_eq fails =>
    obtain ⟨entries, rfl⟩ := exists_map_of_readSource source_eq
    exact .bind_of_ok source_eq <| .bind <|
      (readSampling_escapes_iff SamplingSettings.checked.accepts_default).2 fails
  | extraction source_eq sampling_eq fails =>
    obtain ⟨entries, rfl⟩ := exists_map_of_readSource source_eq
    exact .bind_of_ok source_eq <| .bind_of_ok sampling_eq <| .bind <|
      (readExtraction_escapes_iff ExtractionSettings.checked.accepts_default).2 fails
  | parallel source_eq sampling_eq extraction_eq value_eq refused fault_eq =>
    obtain ⟨entries, rfl⟩ := exists_map_of_readSource source_eq
    exact .bind_of_ok source_eq <| .bind_of_ok sampling_eq <| .bind_of_ok extraction_eq <| .bind <|
      unreported_readParallel_iff.2 ⟨_, _, value_eq, refused, fault_eq, rfl⟩
  | @collection sampling extraction j item fault outer item_eq read fails =>
    have hsampling := SamplingSettings.checked.accepts_of_readSection outer.sampling
    have hextraction := ExtractionSettings.checked.accepts_of_readSection outer.extraction
    obtain ⟨items, hitems, hitem⟩ := exists_items_of_item? item_eq
    refine outer.unreported_ofRaw (unreported_readCollectionList_iff.2 ⟨items, hitems, .inl ?_⟩)
    refine (unreported_readCollections_iff hsampling hextraction).2 ⟨j, item, ?_, fun k hk other hother => ?_, fails⟩
    · rw [← hitem, item_eq]
    · exact read k hk other ((hitem k).trans hother)
  | names outer items_eq entries_eq name_mem notText fault_eq =>
    refine outer.unreported_ofRaw (unreported_readCollectionList_iff.2 ⟨_, items_eq, .inr ⟨_, entries_eq, ?_⟩⟩)
    exact checkNames_escapes_iff.2 ⟨.inl ⟨_, name_mem, notText⟩, fault_eq⟩
  | compared outer items_eq entries_eq incomparable fault_eq =>
    refine outer.unreported_ofRaw (unreported_readCollectionList_iff.2 ⟨_, items_eq, .inr ⟨_, entries_eq, ?_⟩⟩)
    exact checkNames_escapes_iff.2 ⟨.inr incomparable, fault_eq⟩

end Config

end DocSchema
