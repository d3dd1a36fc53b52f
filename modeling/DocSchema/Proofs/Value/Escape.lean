import DocSchema.Proofs.Number.DecimalText
import DocSchema.Proofs.Number.Range
import DocSchema.Proofs.Value.Shape

/-!
# Conversions that fail unnoticed

A document whose conversion fails is malformed if it has a key that is no text or a wrapper of a number whose
payload is none. Not every failure is told so: a decimal number is read by its text, which need not be one of a
number, a number of a wrapper may be out of the range of the wanted kind, a payload or a key may have no text to be
shown, and there may be no room to go into a container. `Escapes` lists what happens then, at any depth of a document
and on any stack.

- `toInt_isRange_iff`, `toFloat_isRange_iff`: the numbers that are out of range.
- `ofDecimalText_text_eq_error_iff`, `exists_ofDecimalText_wideText`: the decimal numbers that are converted.
- `unwrap_eq_error_iff`: why a wrapper fails.
- `ofRaw_escapes_iff`: which conversions fail though the document is not malformed.
-/

namespace DocSchema

open Number (tenTo twoTo)

namespace Raw

variable {r : Raw} {fault : NumberFault}

/-! ## Containers and what they hold -/

theorem sizeOf_lt_of_mem_held {part : Raw} (h : part ∈ r.held) : sizeOf part < sizeOf r := by
  cases r with
  | list items =>
    have hlt : sizeOf part < sizeOf items := List.sizeOf_lt_of_mem h
    simp only [list.sizeOf_spec]
    omega
  | tuple items =>
    have hlt : sizeOf part < sizeOf items := List.sizeOf_lt_of_mem h
    simp only [tuple.sizeOf_spec]
    omega
  | map entries =>
    obtain ⟨⟨key, value⟩, he, rfl⟩ := List.mem_map.1 h
    have hlt := List.sizeOf_lt_of_mem he
    simp only [map.sizeOf_spec, Prod.mk.sizeOf_spec] at *
    omega
  | _ => cases h

/-- What holds of a value if it holds of all values held by it holds of every value. -/
theorem held_induct {P : Raw → Prop} (step : ∀ r, (∀ part ∈ r.held, P part) → P r) (r : Raw) : P r :=
  step r fun part hpart =>
    have := sizeOf_lt_of_mem_held hpart
    held_induct step part
termination_by sizeOf r

/-! ## Numbers out of range -/

/-- A number that is infinite, with the name that a fault gives it. -/
inductive IsInfinite : Raw → String → Prop
  | float (negative : Bool) : IsInfinite (.float (.infinity negative)) "float infinity"
  | decimal (negative : Bool) : IsInfinite (.decimal (.infinity negative)) "Infinity"

/-- Of all values only infinite numbers are out of the range of whole numbers. -/
theorem toInt_isRange_iff :
    r.toInt = .error fault ∧ fault.isRange = true ↔ ∃ name, r.IsInfinite name ∧ fault = .infinite name := by
  constructor
  · rintro ⟨h, hrange⟩
    unfold toInt at h
    split at h
    · cases h
    · cases h
    · cases h
    · cases h
      cases hrange
    · rename_i x hnan
      cases x with
      | nan => exact absurd rfl hnan
      | infinity negative =>
        cases h
        exact ⟨_, .float negative, rfl⟩
      | finite negative significand exponent => cases h
    · cases h
      cases hrange
    · rename_i d hnan
      cases d with
      | nan negative signal payload => exact absurd rfl (hnan negative signal payload)
      | infinity negative =>
        cases h
        exact ⟨_, .decimal negative, rfl⟩
      | finite negative coefficient exponent => cases h
    · cases h
    · -- a numeral is not out of range, whatever it is
      split at h
      · cases h
        cases hrange
      · split at h <;> cases h <;> cases hrange
  · rintro ⟨name, hinfinite, rfl⟩
    cases hinfinite <;> exact ⟨rfl, rfl⟩

/-- Of all values only whole numbers that are too large are out of the range of floating-point numbers. -/
theorem toFloat_isRange_iff :
    r.toFloat = .error fault ∧ fault.isRange = true ↔
      fault = .tooLarge ∧ ∃ n, r.int? = some n ∧ twoTo 1024 ≤ n.natAbs + twoTo 970 := by
  simp only [← Binary64.ofInt?_eq_none_iff]
  constructor
  · rintro ⟨h, hrange⟩
    unfold toFloat at h
    split at h
    · cases h
    · rename_i n
      split at h
      · cases h
      · rename_i hnone
        cases h
        exact ⟨rfl, n, rfl, hnone⟩
    · rename_i n
      split at h
      · cases h
      · rename_i hnone
        cases h
        exact ⟨rfl, n, rfl, hnone⟩
    · cases h
    · split at h
      · cases h
        cases hrange
      · cases h
    · split at h
      · cases h
      · cases h
        cases hrange
    · split at h
      · cases h
        cases hrange
      · split at h
        · cases h
        · cases h
          cases hrange
  · rintro ⟨rfl, n, hn, hnone⟩
    have hfloat : r.toFloat = .error .tooLarge := by
      cases r with
      | int m =>
        obtain rfl := Option.some.inj hn
        rw [toFloat, hnone]
      | long m =>
        obtain rfl := Option.some.inj hn
        rw [toFloat, hnone]
      | _ => cases hn
    exact ⟨hfloat, rfl⟩

end Raw

namespace DocumentFault

theorem isMalformed_ofShow (fault : Raw.ShowFault) : (ofShow fault).isMalformed = false := by
  cases fault <;> rfl

/-- A fault of a malformed document is told unless the value it is about cannot be shown. -/
theorem isMalformed_showing [Stack] {depth : Int} {r : Raw} {make : String → DocumentFault}
    (hmake : ∀ s, (make s).isMalformed = true) :
    (showing depth r make).isMalformed = false ↔
      ∃ fault, r.tellFault? depth = some fault ∧ showing depth r make = .ofShow fault := by
  rw [showing]
  cases r.tellFault? depth with
  | none => simp [hmake]
  | some fault => simp [isMalformed_ofShow]

end DocumentFault

namespace Value

/-! ## Decimal numbers and wrappers -/

theorem ofDecimalText_eq (text : String) :
    ofDecimalText text = match Number.readFloat text.toList with
      | some x => .ok (.float x)
      | none => .error (.number (.malformedFloat (Text.quoted text))) := by
  have htext : (Raw.text text).toFloat = match Number.readFloat text.toList with
    | some x => .ok x
    | none => .error (.malformedFloat (Text.quoted text)) := rfl
  rw [ofDecimalText, htext]
  cases Number.readFloat text.toList <;> rfl

/-- A decimal number is converted unless it is a signal or a NaN that carries a number. -/
theorem ofDecimalText_text_eq_error_iff {d : Decimal} {f : DocumentFault} :
    ofDecimalText d.text = .error f ↔
      d.toBinary64? = none ∧ f = .number (.malformedFloat (Text.quoted d.text)) := by
  rw [ofDecimalText_eq, Decimal.readFloat_text]
  cases d.toBinary64? with
  | none => simp [eq_comm]
  | some x => simp

/-- A decimal number of 128 bits is always converted. -/
theorem exists_ofDecimalText_wideText (d : Decimal) : ∃ v, ofDecimalText d.wideText = .ok v := by
  obtain ⟨x, hx⟩ := Option.isSome_iff_exists.1 d.readFloat_wideText_isSome
  exact ⟨.float x, by rw [ofDecimalText_eq, hx]⟩

/-- The part of the payload of a wrapper whose text the wrapper stands for. -/
def textPart? : Wrapper → Raw → Option Raw
  | .identifier, raw => some raw
  | .text, .map entries => entries.head?.map Prod.snd
  | .text, raw => some raw
  | _, _ => none

/-- Why the payload of a wrapper of a number is none. -/
def numberFault? : Wrapper → Raw → Option NumberFault
  | .int, raw => match raw.toInt with
    | .ok _ => none
    | .error fault => some fault
  | .float, raw => match raw.toFloat with
    | .ok _ => none
    | .error fault => some fault
  | _, _ => none

theorem unwrapText_eq_error_iff [Stack] {depth : Int} {make : String → Value} {raw : Raw} {f : DocumentFault} :
    unwrapText depth make raw = .error f ↔ ∃ fault, raw.tellFault? depth = some fault ∧ f = .ofShow fault := by
  rw [unwrapText]
  cases raw.tellFault? depth with
  | none => simp
  | some fault => simp [eq_comm]

theorem unwrapNumber_eq_error_iff [Stack] {α : Type} {make : α → Value} {depth : Int} {key : String} {raw : Raw}
    {n : Except NumberFault α} {f : DocumentFault} :
    unwrapNumber depth key raw (n.map make) = .error f ↔ ∃ fault, n = .error fault ∧
      f = if fault.isRange then .number fault else .showing depth raw (.wrapper key) := by
  cases n with
  | ok a => simp [unwrapNumber, Except.map]
  | error fault =>
    simp only [unwrapNumber, Except.map, Except.error.injEq, exists_eq_left']
    split <;> simp [eq_comm]

theorem unwrap_text [Stack] (depth : Int) (key : String) (raw : Raw) :
    unwrap depth key .text raw = match textPart? .text raw with
      | some part => unwrapText depth .string part
      | none => .ok (.string "") := by
  cases raw with
  | map entries => cases entries <;> rfl
  | _ => rfl

/-- A wrapper fails for want of a text or of a number. -/
theorem unwrap_eq_error_iff [Stack] {depth : Int} {key : String} {wrapper : Wrapper} {raw : Raw}
    {f : DocumentFault} :
    unwrap depth key wrapper raw = .error f ↔
      (∃ part fault, textPart? wrapper raw = some part ∧ part.tellFault? depth = some fault ∧ f = .ofShow fault) ∨
      ∃ fault, numberFault? wrapper raw = some fault ∧
        f = if fault.isRange then .number fault else .showing depth raw (.wrapper key) := by
  cases wrapper with
  | identifier => simp [unwrap, textPart?, numberFault?, unwrapText_eq_error_iff]
  | binary => simp [unwrap, textPart?, numberFault?]
  | text =>
    rw [unwrap_text]
    cases textPart? .text raw with
    | none => simp [numberFault?]
    | some part => simp [numberFault?, unwrapText_eq_error_iff]
  | int =>
    rw [unwrap, unwrapNumber_eq_error_iff]
    cases hint : raw.toInt <;> simp [textPart?, numberFault?, hint]
  | float =>
    rw [unwrap, unwrapNumber_eq_error_iff]
    cases hfloat : raw.toFloat <;> simp [textPart?, numberFault?, hfloat]

/-- How a conversion from a depth fails on a stack though the document is not malformed. -/
inductive Escapes : Stack → Int → Raw → DocumentFault → Prop
  /-- A decimal number is a signal, or a NaN that carries a number. -/
  | nan {stack : Stack} {depth : Int} {negative signal : Bool} {payload : Nat}
      (unread : signal = true ∨ payload ≠ 0) :
      Escapes stack depth (.decimal (.nan negative signal payload))
        (.number (.malformedFloat (Text.quoted (Decimal.nan negative signal payload).text)))
  /-- A wrapper of a whole number holds an infinite one. -/
  | infinite {stack : Stack} {depth : Int} {entries : List (Raw × Raw)} {key name : String} {raw : Raw}
      (wrapper_eq : wrapper? entries = some (key, .int, raw)) (infinite : raw.IsInfinite name) :
      Escapes stack depth (.map entries) (.number (.infinite name))
  /-- A wrapper of a floating-point number holds a whole number that is too large. -/
  | large {stack : Stack} {depth : Int} {entries : List (Raw × Raw)} {key : String} {raw : Raw} {n : Int}
      (wrapper_eq : wrapper? entries = some (key, .float, raw)) (int_eq : raw.int? = some n)
      (large : twoTo 1024 ≤ n.natAbs + twoTo 970) : Escapes stack depth (.map entries) (.number .tooLarge)
  /-- A wrapper of a text holds what has none. -/
  | text {stack : Stack} {depth : Int} {entries : List (Raw × Raw)} {key : String} {wrapper : Wrapper}
      {raw part : Raw} {fault : Raw.ShowFault} (wrapper_eq : wrapper? entries = some (key, wrapper, raw))
      (part_eq : textPart? wrapper raw = some part) (fault_eq : part.tellFault? depth = some fault) :
      Escapes stack depth (.map entries) (.ofShow fault)
  /-- A wrapper of a number holds what is none and cannot be told. -/
  | payload {stack : Stack} {depth : Int} {entries : List (Raw × Raw)} {key : String} {wrapper : Wrapper} {raw : Raw}
      {number : NumberFault} {fault : Raw.ShowFault} (wrapper_eq : wrapper? entries = some (key, wrapper, raw))
      (number_eq : numberFault? wrapper raw = some number) (isRange_eq : number.isRange = false)
      (fault_eq : raw.tellFault? depth = some fault) : Escapes stack depth (.map entries) (.ofShow fault)
  /-- There is no room to go into a container. -/
  | container {stack : Stack} {depth : Int} {r : Raw} (container : r.isContainer = true) (above : depth < maxDepth)
      (full : Stack.opens [] depth r = false) : Escapes stack depth r (.tooDeep .converted)
  /-- A key is no text and cannot be told. -/
  | key {stack : Stack} {depth : Int} {entries before after : List (Raw × Raw)} {key raw : Raw}
      {fault : Raw.ShowFault} (above : depth < maxDepth) (unwrapped : wrapper? entries = none)
      (opens : Stack.opens [] depth (.map entries) = true) (entries_eq : entries = before ++ (key, raw) :: after)
      (converted : ∀ e ∈ before, ∃ value, @ofRawEntry (stack.inside (.map entries)) (depth + 1) e = .ok value)
      (notText : key.text? = none)
      (fault_eq : @Raw.tellFault? (stack.inside (.map entries)) (depth + 1) key = some fault) :
      Escapes stack depth (.map entries) (.ofShow fault)
  /-- The conversion of an item fails so, after those before it went well. -/
  | item {stack : Stack} {depth : Int} {r : Raw} {items before after : List Raw} {item : Raw} {fault : DocumentFault}
      (above : depth < maxDepth) (sequence : r = .list items ∨ r = .tuple items)
      (opens : Stack.opens [] depth r = true) (items_eq : items = before ++ item :: after)
      (converted : ∀ other ∈ before, ∃ value, @ofRaw (stack.inside r) (depth + 1) other = .ok value)
      (fails : Escapes (stack.inside r) (depth + 1) item fault) : Escapes stack depth r fault
  /-- The conversion of the value of an entry fails so, after the entries before it went well. -/
  | entry {stack : Stack} {depth : Int} {entries before after : List (Raw × Raw)} {key raw : Raw}
      {fault : DocumentFault} (above : depth < maxDepth) (unwrapped : wrapper? entries = none)
      (opens : Stack.opens [] depth (.map entries) = true) (entries_eq : entries = before ++ (key, raw) :: after)
      (converted : ∀ e ∈ before, ∃ value, @ofRawEntry (stack.inside (.map entries)) (depth + 1) e = .ok value)
      {name : String} (text_eq : key.text? = some name)
      (fails : Escapes (stack.inside (.map entries)) (depth + 1) raw fault) :
      Escapes stack depth (.map entries) fault

/-! ## The conversion -/

section

variable {stack : Stack} {depth : Int} {r : Raw} {f : DocumentFault}

theorem numberFault?_int {raw : Raw} {fault : NumberFault} :
    numberFault? .int raw = some fault ↔ raw.toInt = .error fault := by
  cases h : raw.toInt <;> simp [numberFault?, h]

theorem numberFault?_float {raw : Raw} {fault : NumberFault} :
    numberFault? .float raw = some fault ↔ raw.toFloat = .error fault := by
  cases h : raw.toFloat <;> simp [numberFault?, h]

theorem isMalformed_wrapper {raw : Raw} {key : String} :
    (DocumentFault.showing depth raw (.wrapper key)).isMalformed = false ↔
      ∃ fault, raw.tellFault? depth = some fault ∧ DocumentFault.showing depth raw (.wrapper key) = .ofShow fault :=
  DocumentFault.isMalformed_showing fun _ => rfl

theorem escapes_of_unwrap {entries : List (Raw × Raw)} {key : String} {wrapper : Wrapper} {raw : Raw}
    (hwrapper : wrapper? entries = some (key, wrapper, raw)) (h : unwrap depth key wrapper raw = .error f)
    (hf : f.isMalformed = false) : Escapes stack depth (.map entries) f := by
  obtain ⟨part, fault, hpart, hfault, rfl⟩ | ⟨fault, hnumber, rfl⟩ := unwrap_eq_error_iff.1 h
  · exact .text hwrapper hpart hfault
  cases hrange : fault.isRange with
  | false =>
    rw [hrange] at hf
    rw [if_neg Bool.false_ne_true] at hf ⊢
    obtain ⟨shown, hshown, heq⟩ := isMalformed_wrapper.1 hf
    rw [heq]
    exact .payload hwrapper hnumber hrange hshown
  | true =>
    rw [if_pos rfl]
    cases wrapper with
    | int =>
      obtain ⟨name, hinfinite, rfl⟩ := Raw.toInt_isRange_iff.1 ⟨numberFault?_int.1 hnumber, hrange⟩
      exact .infinite hwrapper hinfinite
    | float =>
      obtain ⟨rfl, n, hn, hlarge⟩ := Raw.toFloat_isRange_iff.1 ⟨numberFault?_float.1 hnumber, hrange⟩
      exact .large hwrapper hn hlarge
    | _ => cases hnumber

theorem escapes_of_ofRawEntry {e : Raw × Raw} (h : ofRawEntry depth e = .error f) (hf : f.isMalformed = false) :
    (e.1.text? = none ∧ ∃ fault, e.1.tellFault? depth = some fault ∧ f = .ofShow fault) ∨
      (∃ name, e.1.text? = some name) ∧ ofRaw depth e.2 = .error f := by
  rw [ofRawEntry] at h
  split at h
  · rename_i hkey
    cases h
    obtain ⟨fault, hfault, heq⟩ := (DocumentFault.isMalformed_showing fun _ => rfl).1 hf
    exact .inl ⟨hkey, fault, hfault, heq⟩
  · rename_i name hkey
    refine .inr ⟨⟨name, hkey⟩, ?_⟩
    cases hvalue : ofRaw depth e.2 with
    | ok v =>
      rw [hvalue] at h
      cases h
    | error f' =>
      rw [hvalue] at h
      cases h
      rfl

theorem exists_of_mapM_error {α β : Type} {make : List β → Value} {g : α → Except DocumentFault β} {as : List α}
    (h : (as.mapM g).map make = .error f) :
    ∃ before a after, as = before ++ a :: after ∧ (∀ x ∈ before, ∃ b, g x = .ok b) ∧ g a = .error f := by
  refine mapM_eq_error_iff.1 ?_
  cases has : as.mapM g with
  | ok bs =>
    rw [has] at h
    cases h
  | error f' =>
    rw [has] at h
    cases h
    rfl

theorem escapes_of_ofRaw (h : ofRaw depth r = .error f) (hf : f.isMalformed = false) : Escapes stack depth r f := by
  induction r using Raw.held_induct generalizing stack depth with
  | step r ih =>
    cases hr : r.isContainer with
    | true =>
      obtain hclosed | hdepth := Int.lt_or_le depth maxDepth |>.symm
      · rw [ofRaw_closed hr hclosed] at h
        cases h
      cases hopens : Stack.opens [] depth r with
      | false =>
        rw [ofRaw_unopened hr hdepth hopens] at h
        cases h
        exact .container hr hdepth hopens
      | true =>
        cases r with
        | list items =>
          rw [ofRaw_opened_sequence hdepth (.inl rfl) hopens] at h
          obtain ⟨before, item, after, hitems, hbefore, hitem⟩ := exists_of_mapM_error h
          exact .item hdepth (.inl rfl) hopens hitems hbefore (ih item (by simp [Raw.held, hitems]) hitem)
        | tuple items =>
          rw [ofRaw_opened_sequence hdepth (.inr rfl) hopens] at h
          obtain ⟨before, item, after, hitems, hbefore, hitem⟩ := exists_of_mapM_error h
          exact .item hdepth (.inr rfl) hopens hitems hbefore (ih item (by simp [Raw.held, hitems]) hitem)
        | map entries =>
          have hunwrapped := Option.isNone_iff_eq_none.1 hr
          rw [ofRaw_opened_map hdepth hunwrapped hopens] at h
          obtain ⟨before, ⟨key, raw⟩, after, hentries, hbefore, hentry⟩ := exists_of_mapM_error h
          obtain ⟨hkey, fault, hfault, rfl⟩ | ⟨⟨name, hname⟩, hvalue⟩ := escapes_of_ofRawEntry hentry hf
          · exact .key hdepth hunwrapped hopens hentries hbefore hkey hfault
          · exact .entry hdepth hunwrapped hopens hentries hbefore hname
              (ih raw (by simp [Raw.held, hentries]) hvalue)
        | _ => cases hr
    | false =>
      cases r with
      | list items => cases hr
      | tuple items => cases hr
      | map entries =>
        obtain ⟨⟨key, wrapper, raw⟩, hwrapper⟩ := Option.isSome_iff_exists.1 (Option.isNone_eq_false_iff.1 hr)
        rw [ofRaw_wrapper hwrapper] at h
        exact escapes_of_unwrap hwrapper h hf
      | decimal d =>
        rw [ofRaw, ofDecimalText_text_eq_error_iff] at h
        obtain ⟨hnone, rfl⟩ := h
        cases d with
        | nan negative signal payload => exact .nan (Decimal.toBinary64?_nan.1 hnone)
        | finite negative coefficient exponent => cases hnone
        | infinity negative => cases hnone
      | wideDecimal d =>
        obtain ⟨v, hv⟩ := exists_ofDecimalText_wideText d
        rw [ofRaw, hv] at h
        cases h
      | _ =>
        rw [ofRaw] at h
        cases h

theorem Escapes.result (h : Escapes stack depth r f) : ofRaw depth r = .error f ∧ f.isMalformed = false := by
  induction h with
  | @nan stack depth negative signal payload unread =>
    refine ⟨?_, rfl⟩
    rw [ofRaw, ofDecimalText_text_eq_error_iff]
    exact ⟨Decimal.toBinary64?_nan.2 unread, rfl⟩
  | infinite wrapper_eq infinite =>
    obtain ⟨hint, hrange⟩ := Raw.toInt_isRange_iff.2 ⟨_, infinite, rfl⟩
    refine ⟨?_, rfl⟩
    rw [ofRaw_wrapper wrapper_eq, unwrap_eq_error_iff]
    exact .inr ⟨_, numberFault?_int.2 hint, rfl⟩
  | large wrapper_eq int_eq large =>
    obtain ⟨hfloat, hrange⟩ := Raw.toFloat_isRange_iff.2 ⟨rfl, _, int_eq, large⟩
    refine ⟨?_, rfl⟩
    rw [ofRaw_wrapper wrapper_eq, unwrap_eq_error_iff]
    exact .inr ⟨_, numberFault?_float.2 hfloat, rfl⟩
  | @text stack depth entries key wrapper raw part fault wrapper_eq part_eq fault_eq =>
    refine ⟨?_, DocumentFault.isMalformed_ofShow fault⟩
    rw [ofRaw_wrapper wrapper_eq, unwrap_eq_error_iff]
    exact .inl ⟨part, fault, part_eq, fault_eq, rfl⟩
  | @payload stack depth entries key wrapper raw number fault wrapper_eq number_eq isRange_eq fault_eq =>
    refine ⟨?_, DocumentFault.isMalformed_ofShow fault⟩
    rw [ofRaw_wrapper wrapper_eq, unwrap_eq_error_iff]
    refine .inr ⟨number, number_eq, ?_⟩
    rw [isRange_eq, if_neg Bool.false_ne_true, DocumentFault.showing, fault_eq]
  | container container above full => exact ⟨ofRaw_unopened container above full, rfl⟩
  | @key stack depth entries before after key raw fault above unwrapped opens entries_eq converted notText fault_eq =>
    refine ⟨?_, DocumentFault.isMalformed_ofShow fault⟩
    have hentry : @ofRawEntry (stack.inside (.map entries)) (depth + 1) (key, raw) = .error (.ofShow fault) := by
      simp only [ofRawEntry, notText, DocumentFault.showing, fault_eq]
    rw [ofRaw_opened_map above unwrapped opens,
      mapM_eq_error_iff.2 ⟨before, _, after, entries_eq, converted, hentry⟩]
    rfl
  | @item stack depth r items before after item fault above sequence opens items_eq converted fails ih =>
    refine ⟨?_, ih.2⟩
    rw [ofRaw_opened_sequence above sequence opens,
      mapM_eq_error_iff.2 ⟨before, item, after, items_eq, converted, ih.1⟩]
    rfl
  | @entry stack depth entries before after key raw fault above unwrapped opens entries_eq converted name text_eq
      fails ih =>
    refine ⟨?_, ih.2⟩
    have hentry : @ofRawEntry (stack.inside (.map entries)) (depth + 1) (key, raw) = .error fault := by
      simp only [ofRawEntry, text_eq, ih.1]
      rfl
    rw [ofRaw_opened_map above unwrapped opens,
      mapM_eq_error_iff.2 ⟨before, _, after, entries_eq, converted, hentry⟩]
    rfl

/-- **Which failures are not told as malformed.** On any stack, a conversion returns a value or fails because the
document is malformed, unless it comes to a decimal number that is not read, to a wrapper of a number that is out of
range, to a payload or a key that cannot be told, or to a container that there is no room to go into. -/
theorem ofRaw_escapes_iff (stack : Stack) (depth : Int) (r : Raw) (f : DocumentFault) :
    ofRaw depth r = .error f ∧ f.isMalformed = false ↔ Escapes stack depth r f :=
  ⟨fun h => escapes_of_ofRaw h.1 h.2, Escapes.result⟩

end

/-- Three plain values that fail though they are not told as malformed: a wrapper of a whole number that holds an
infinite one, a wrapper of a floating-point number that holds a whole one that is too large, and a decimal
signal. -/
theorem ofRaw_escapes_plain :
    let infinite := Raw.map [(.text "$numberInt", .float (.infinity false))]
    let large := Raw.map [(.text "$numberDouble", .int (tenTo 400))]
    let signal := Raw.decimal (.nan false true 0)
    infinite.IsPlain ∧ ofRaw 0 infinite = .error (.number (.infinite "float infinity")) ∧
      large.IsPlain ∧ ofRaw 0 large = .error (.number .tooLarge) ∧
      signal.IsPlain ∧ ofRaw 0 signal = .error (.number (.malformedFloat (Text.quoted "sNaN"))) ∧
      ∀ fault, (DocumentFault.number fault).isMalformed = false := by
  intro infinite large signal
  have hlarge : twoTo 1024 ≤ (tenTo 400 : Int).natAbs + twoTo 970 := by decide +kernel
  have hescapes : Escapes .usual 0 large (.number .tooLarge) := .large rfl rfl hlarge
  have htext : (Decimal.nan false true 0).text = "sNaN" := by decide +kernel
  have hsignal : Escapes .usual 0 signal (.number (.malformedFloat (Text.quoted (Decimal.nan false true 0).text))) :=
    .nan (.inl rfl)
  rw [htext] at hsignal
  have hinfinite : Escapes .usual 0 infinite (.number (.infinite "float infinity")) := .infinite rfl (.float false)
  exact ⟨rfl, hinfinite.result.1, rfl, hescapes.result.1, rfl, hsignal.result.1, fun _ => rfl⟩

end Value

end DocSchema
