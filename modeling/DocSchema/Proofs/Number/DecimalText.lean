import DocSchema.Number.WideDecimal

/-!
# Decimal texts read as binary numbers

The text of a decimal number is read as the binary number nearest to it. The text of a finite number has digits
at its front, of which some may stand behind a point, and behind the digits a power of ten where one is needed.
Signals and NaNs that carry a number have texts, too, but these are not read as numbers.

- `readScientific_numeral`: the digits and the power of a numeral are read as they stand.
- `readFloat_text`: the text of a decimal number gives its nearest binary number.
- `readFloat_wideText_isSome`: the text of a decimal number of 128 bits always gives a binary number.
-/

namespace DocSchema

namespace Number

/-! ## Characters of numerals -/

/-- Whether a character is read as it stands: it is ASCII, no blank and no underscore. -/
def isClean (c : Char) : Bool :=
  decide (c.toNat < 128) && !isSpace c && c != '_'

theorem isClean_iff {c : Char} : isClean c = true ↔ c.toNat < 128 ∧ isSpace c = false ∧ c ≠ '_' := by
  simp [isClean, and_assoc]

theorem isDigit_iff {c : Char} : c.isDigit = true ↔ 48 ≤ c.toNat ∧ c.toNat ≤ 57 := by
  simp [Char.isDigit, UInt32.le_iff_toNat_le]

theorem isClean_of_isDigit {c : Char} (h : c.isDigit = true) : isClean c = true := by
  have hrange := isDigit_iff.1 h
  have hblank : c ≠ ' ' := by
    rintro rfl
    exact absurd hrange.1 (by decide)
  refine isClean_iff.2 ⟨by omega, ?_, ?_⟩
  · simp [isSpace, hblank]
    omega
  · rintro rfl
    exact absurd hrange.2 (by decide)

theorem dropWhile_eq_self {cs : List Char} (h : ∀ c ∈ cs, isSpace c = false) :
    cs.dropWhile isSpace = cs := by
  cases cs with
  | nil => rfl
  | cons c rest => rw [List.dropWhile_cons_of_neg (by simp [h c (List.mem_cons_self ..)])]

theorem plain_of_clean {cs : List Char} (h : ∀ c ∈ cs, isClean c = true) : plain cs = cs := by
  have hspace (c : Char) (hc : c ∈ cs) : isSpace c = false := (isClean_iff.1 (h c hc)).2.1
  have hmap : cs.map plainChar = cs := by
    rw [List.map_congr_left (g := id) fun c hc => by simp [plainChar, (isClean_iff.1 (h c hc)).1],
      List.map_id]
  rw [plain, hmap, dropWhile_eq_self hspace,
    dropWhile_eq_self fun c hc => hspace c (List.mem_reverse.1 hc), List.reverse_reverse]

theorem dropUnderscores_of_clean {before : Char} {cs : List Char} (hbefore : before ≠ '_')
    (h : ∀ c ∈ cs, isClean c = true) : dropUnderscores before cs = some cs := by
  induction cs generalizing before with
  | nil => rw [dropUnderscores, if_neg hbefore]
  | cons c rest ih =>
    have hc : c ≠ '_' := (isClean_iff.1 (h c (List.mem_cons_self ..))).2.2
    rw [dropUnderscores, if_neg hc, if_neg fun hand => hbefore hand.1,
      ih hc fun d hd => h d (List.mem_cons_of_mem c hd), Option.map_some]

/-! ## Digits -/

theorem digits_ne_nil (n : Nat) : digits n ≠ [] :=
  Nat.toDigits_ne_nil

theorem isDigit_of_mem_digits {n : Nat} {c : Char} (h : c ∈ digits n) : c.isDigit = true :=
  Nat.isDigit_of_mem_toDigits (by decide) (by decide) h

theorem ofDigitChars_eq (ds : List Char) : ofDigitChars ds = Nat.ofDigitChars 10 ds 0 := by
  rw [ofDigitChars, Nat.ofDigitChars_eq_foldl]
  congr 1
  funext n d
  rw [Nat.mul_comm]
  rfl

theorem ofDigitChars_digits (n : Nat) : ofDigitChars (digits n) = n := by
  rw [ofDigitChars_eq]
  exact Nat.ofDigitChars_toDigits (by decide) (by decide)

/-- Zeros in front of digits do not count. -/
theorem ofDigitChars_zeros_append (n : Nat) (ds : List Char) :
    ofDigitChars (List.replicate n '0' ++ ds) = ofDigitChars ds := by
  rw [ofDigitChars, List.foldl_append]
  congr 1
  induction n with
  | zero => rfl
  | succ n ih => rw [List.replicate_succ, List.foldl_cons]; exact ih

theorem takeDigits_append {ds rest : List Char} (hds : ∀ c ∈ ds, c.isDigit = true)
    (hrest : ∀ c ∈ rest.head?, c.isDigit = false) : takeDigits (ds ++ rest) = (ds, rest) := by
  induction ds with
  | nil =>
    cases rest with
    | nil => rfl
    | cons c rest => simp [takeDigits, hrest c rfl]
  | cons d ds ih =>
    rw [List.cons_append, takeDigits, if_pos (hds d (List.mem_cons_self ..)),
      ih fun c hc => hds c (List.mem_cons_of_mem d hc)]

/-! ## Numerals -/

/-- The power of ten at the end of a numeral. -/
def powerText (power : Int) : List Char :=
  if power = 0 then [] else 'E' :: (if power < 0 then '-' else '+') :: digits power.natAbs

/-- The digits behind the point, with the point if there are some. -/
def pointed (fraction : List Char) : List Char :=
  if fraction = [] then [] else '.' :: fraction

theorem readPower_digits (negative : Bool) {ds : List Char} (hds : ∀ c ∈ ds, c.isDigit = true)
    (hne : ds ≠ []) :
    readPower ('E' :: (if negative then '-' else '+') :: ds) =
      some (if negative then -(ofDigitChars ds : Int) else ofDigitChars ds) := by
  have htake : takeDigits ds = (ds, []) := by
    have := takeDigits_append hds (show ∀ c ∈ ([] : List Char).head?, c.isDigit = false by simp)
    rwa [List.append_nil] at this
  obtain ⟨d, ds, rfl⟩ := List.exists_cons_of_ne_nil hne
  cases negative <;> simp [readPower, signOf, htake]

theorem readPower_powerText (power : Int) : readPower (powerText power) = some power := by
  rw [powerText]
  split
  · rename_i hzero
    rw [hzero, readPower]
  · have hread := readPower_digits (decide (power < 0))
      (fun c hc => isDigit_of_mem_digits (n := power.natAbs) hc) (digits_ne_nil power.natAbs)
    simp only [decide_eq_true_eq, ofDigitChars_digits] at hread
    rw [hread]
    congr 1
    split <;> omega

theorem head?_powerText_not_digit (power : Int) : ∀ c ∈ (powerText power).head?, c.isDigit = false := by
  intro c hc
  rw [powerText] at hc
  split at hc
  · cases hc
  · cases hc
    rfl

theorem readScientific_of_whole {cs whole rest : List Char} (h : takeDigits cs = (whole, rest))
    (hne : whole ≠ []) (hrest : rest.head? ≠ some '.') :
    readScientific cs = (readPower rest).map fun power => (ofDigitChars whole, power) := by
  have hpoint : ∀ after, rest ≠ '.' :: after := by
    rintro after rfl
    exact hrest rfl
  rw [readScientific, h]
  simp [hne]

theorem readScientific_of_point {cs whole after fraction rest : List Char}
    (h : takeDigits cs = (whole, '.' :: after)) (hne : whole ≠ [])
    (hafter : takeDigits after = (fraction, rest)) :
    readScientific cs = (readPower rest).map fun power : Int =>
      (ofDigitChars (whole ++ fraction), power - fraction.length) := by
  simp [readScientific, h, hne, hafter]

/-- The digits and the power of a numeral are read as they stand. -/
theorem readScientific_numeral {whole fraction : List Char} (hwhole : ∀ c ∈ whole, c.isDigit = true)
    (hfraction : ∀ c ∈ fraction, c.isDigit = true) (hne : whole ≠ []) (power : Int) :
    readScientific (whole ++ (pointed fraction ++ powerText power)) =
      some (ofDigitChars (whole ++ fraction), power - fraction.length) := by
  by_cases hnil : fraction = []
  · have htake := takeDigits_append hwhole (head?_powerText_not_digit power)
    have hpoint : (powerText power).head? ≠ some '.' := by
      rw [powerText]
      split <;> simp
    rw [hnil, pointed, if_pos rfl, List.nil_append, readScientific_of_whole htake hne hpoint,
      readPower_powerText]
    simp
  · have htake : takeDigits (whole ++ '.' :: (fraction ++ powerText power)) = _ :=
      takeDigits_append hwhole (by simp)
    rw [pointed, if_neg hnil, List.cons_append, readScientific_of_point htake hne
      (takeDigits_append hfraction (head?_powerText_not_digit power)), readPower_powerText, Option.map_some]

/-! ## Texts -/

theorem signOf_of_unsigned {cs : List Char} (h : ∀ c ∈ cs.head?, c ≠ '-' ∧ c ≠ '+') :
    signOf cs = (false, cs) := by
  cases cs with
  | nil => rfl
  | cons c rest =>
    obtain ⟨hminus, hplus⟩ := h c rfl
    unfold signOf
    split
    · rename_i heq
      exact absurd (List.cons.inj heq).1 hminus
    · rename_i heq
      exact absurd (List.cons.inj heq).1 hplus
    · rfl

/-- A clean text that is no name of an infinity or of a NaN is read as a numeral behind its sign. -/
theorem readFloat_of_clean (negative : Bool) {body : List Char} (h : ∀ c ∈ body, isClean c = true)
    (hsign : ∀ c ∈ body.head?, c ≠ '-' ∧ c ≠ '+')
    (hname : ∀ name ∈ ["inf", "infinity", "nan"], String.ofList (body.map Char.toLower) ≠ name) :
    readFloat ((if negative then ['-'] else []) ++ body) =
      (readScientific body).map fun (coefficient, exponent) =>
        ofDecimal negative coefficient exponent := by
  have hclean : ∀ c ∈ (if negative then ['-'] else []) ++ body, isClean c = true := by
    intro c hc
    obtain hc | hc := List.mem_append.1 hc
    · cases negative
      · cases hc
      · rw [List.mem_singleton.1 hc]
        decide
    · exact h c hc
  have hbody : signOf ((if negative then ['-'] else []) ++ body) = (negative, body) := by
    cases negative
    · exact signOf_of_unsigned hsign
    · rfl
  simp only [List.mem_cons, List.not_mem_nil, or_false, forall_eq_or_imp, forall_eq] at hname
  obtain ⟨hinf, hinfinity, hnan⟩ := hname
  rw [readFloat, plain_of_clean hclean, dropUnderscores_of_clean (by decide) hclean]
  dsimp only [bind, Option.bind]
  rw [hbody]
  simp only [hinf, hinfinity, hnan, decide_false, Bool.or_self, Bool.false_eq_true, if_false]
  cases readScientific body <;> rfl

theorem toLower_of_isDigit {c : Char} (h : c.isDigit = true) : c.toLower = c := by
  have hupper : ¬(c.val ≥ 'A'.val ∧ c.val ≤ 'Z'.val) := fun hand =>
    absurd (Nat.le_trans (UInt32.le_iff_toNat_le.1 hand.1) (isDigit_iff.1 h).2) (by decide)
  exact dif_neg hupper

theorem isClean_numeral {whole fraction : List Char} (hwhole : ∀ c ∈ whole, c.isDigit = true)
    (hfraction : ∀ c ∈ fraction, c.isDigit = true) (power : Int) :
    ∀ c ∈ whole ++ (pointed fraction ++ powerText power), isClean c = true := by
  have hpointed : ∀ c ∈ pointed fraction, isClean c = true := by
    intro c hc
    rw [pointed] at hc
    split at hc
    · cases hc
    · obtain rfl | hc := List.mem_cons.1 hc
      · decide
      · exact isClean_of_isDigit (hfraction c hc)
  have hpower : ∀ c ∈ powerText power, isClean c = true := by
    intro c hc
    rw [powerText] at hc
    split at hc
    · cases hc
    · obtain rfl | hc := List.mem_cons.1 hc
      · decide
      · obtain rfl | hc := List.mem_cons.1 hc
        · split <;> decide
        · exact isClean_of_isDigit (isDigit_of_mem_digits hc)
  intro c hc
  obtain hc | hc := List.mem_append.1 hc
  · exact isClean_of_isDigit (hwhole c hc)
  · obtain hc | hc := List.mem_append.1 hc
    · exact hpointed c hc
    · exact hpower c hc

theorem readFloat_numeral (negative : Bool) {whole fraction : List Char}
    (hwhole : ∀ c ∈ whole, c.isDigit = true) (hfraction : ∀ c ∈ fraction, c.isDigit = true)
    (hne : whole ≠ []) (power : Int) :
    readFloat ((if negative then ['-'] else []) ++ (whole ++ (pointed fraction ++ powerText power))) =
      some (ofDecimal negative (ofDigitChars (whole ++ fraction)) (power - fraction.length)) := by
  have hclean := isClean_numeral hwhole hfraction power
  have hread := readScientific_numeral hwhole hfraction hne power
  obtain ⟨d, ds, rfl⟩ := List.exists_cons_of_ne_nil hne
  have hd := hwhole d (List.mem_cons_self ..)
  have hother {c : Char} (hc : c.isDigit = false) : d ≠ c := by
    rintro rfl
    cases hc.symm.trans hd
  rw [readFloat_of_clean negative hclean, hread, Option.map_some]
  · intro c hc
    cases hc
    exact ⟨hother rfl, hother rfl⟩
  · intro name hname hword
    have hchars := congrArg String.toList hword
    rw [String.toList_ofList, List.cons_append, List.map_cons, toLower_of_isDigit hd] at hchars
    simp only [List.mem_cons, List.not_mem_nil, or_false] at hname
    obtain rfl | rfl | rfl := hname
    · exact hother rfl (List.cons.inj hchars).1
    · exact hother rfl (List.cons.inj hchars).1
    · exact hother rfl (List.cons.inj hchars).1

end Number

namespace Decimal

open Number

/-- Digits with a point among them or behind them. -/
theorem positional_eq {ds : List Char} {point : Nat} (h : point ≤ ds.length) :
    (if ds.length ≤ point then ds ++ List.replicate (point - ds.length) '0'
      else ds.take point ++ '.' :: ds.drop point) = ds.take point ++ pointed (ds.drop point) := by
  split
  · rename_i hle
    obtain rfl := Nat.le_antisymm h hle
    simp [pointed]
  · rename_i hlt
    have hne : ds.drop point ≠ [] := by simpa using hlt
    rw [pointed, if_neg hne]

/-- The text of a finite number is a numeral with its digits and its power. -/
theorem text_finite (negative : Bool) (coefficient : Nat) (exponent : Int) :
    ∃ (whole fraction : List Char) (power : Int),
      (text (.finite negative coefficient exponent)).toList =
          (if negative then ['-'] else []) ++ (whole ++ (pointed fraction ++ powerText power)) ∧
        whole ≠ [] ∧ (∀ c ∈ whole, c.isDigit = true) ∧ (∀ c ∈ fraction, c.isDigit = true) ∧
        ofDigitChars (whole ++ fraction) = coefficient ∧ power - fraction.length = exponent := by
  obtain ⟨left, hleft⟩ : ∃ left : Int, left = exponent + (digits coefficient).length := ⟨_, rfl⟩
  obtain ⟨point, hpoint⟩ : ∃ point, point = if exponent ≤ 0 ∧ left > -6 then left else 1 := ⟨_, rfl⟩
  have htext : (text (.finite negative coefficient exponent)).toList =
      (if negative then ['-'] else []) ++
        (if point ≤ 0 then '0' :: '.' :: (List.replicate (-point).toNat '0' ++ digits coefficient)
          else if (digits coefficient).length ≤ point.toNat then
            digits coefficient ++ List.replicate (point.toNat - (digits coefficient).length) '0'
          else (digits coefficient).take point.toNat ++ '.' :: (digits coefficient).drop point.toNat) ++
        powerText (left - point) := by
    subst hpoint hleft
    exact String.toList_ofList
  have hdigit (c : Char) (hc : c ∈ digits coefficient) : c.isDigit = true := isDigit_of_mem_digits hc
  have hpos : 0 < (digits coefficient).length := List.length_pos_iff.2 (digits_ne_nil coefficient)
  have hvalue := ofDigitChars_digits coefficient
  rw [htext, List.append_assoc]
  clear htext
  generalize digits coefficient = ds at *
  by_cases hzero : point ≤ 0
  · -- all digits stand behind the point, with zeros before them
    refine ⟨['0'], List.replicate (-point).toNat '0' ++ ds, left - point, ?_, by simp, by simp, ?_, ?_, ?_⟩
    · have hne : List.replicate (-point).toNat '0' ++ ds ≠ [] :=
        List.append_ne_nil_of_right_ne_nil _ (List.ne_nil_of_length_pos hpos)
      rw [if_pos hzero, pointed, if_neg hne]
      rfl
    · intro c hc
      obtain hc | hc := List.mem_append.1 hc
      · rw [List.eq_of_mem_replicate hc]
        rfl
      · exact hdigit c hc
    · rw [← List.append_assoc, show ['0'] ++ List.replicate (-point).toNat '0' =
        List.replicate ((-point).toNat + 1) '0' from rfl, ofDigitChars_zeros_append, hvalue]
    · rw [List.length_append, List.length_replicate]
      split at hpoint <;> omega
  · -- the point stands behind the first digit, or where the power of ten puts it
    have hle : point.toNat ≤ ds.length := by split at hpoint <;> omega
    refine ⟨ds.take point.toNat, ds.drop point.toNat, left - point, ?_, ?_, ?_, ?_, ?_, ?_⟩
    · rw [if_neg hzero, positional_eq hle, List.append_assoc]
    · refine List.ne_nil_of_length_pos ?_
      rw [List.length_take]
      omega
    · exact fun c hc => hdigit c (List.mem_of_mem_take hc)
    · exact fun c hc => hdigit c (List.mem_of_mem_drop hc)
    · rw [List.take_append_drop, hvalue]
    · rw [List.length_drop]
      omega

/-- The text of a signal, or of a NaN that carries a number, is not read. -/
theorem readFloat_text_nan (negative : Bool) {signal : Bool} {payload : Nat}
    (h : signal = true ∨ payload ≠ 0) : readFloat (text (.nan negative signal payload)).toList = none := by
  obtain ⟨rest, hrest⟩ : ∃ rest, rest = if payload = 0 then [] else digits payload := ⟨_, rfl⟩
  obtain ⟨letters, hletters⟩ :
    ∃ letters, letters = if signal then ['s', 'N', 'a', 'N'] else ['N', 'a', 'N'] := ⟨_, rfl⟩
  have htext : (text (.nan negative signal payload)).toList =
      (if negative then ['-'] else []) ++ (letters ++ rest) := by
    have hnumber : (if payload = 0 then "" else natText payload).toList = rest := by
      rw [hrest]
      split
      · rfl
      · exact String.toList_ofList
    rw [text, String.toList_append, String.toList_append, hnumber, hletters, List.append_assoc]
    cases negative <;> cases signal <;> rfl
  have hclean : ∀ c ∈ letters ++ rest, isClean c = true := by
    intro c hc
    obtain hc | hc := List.mem_append.1 hc
    · have hall : letters.all isClean = true := by
        rw [hletters]
        cases signal <;> rfl
      exact List.all_eq_true.1 hall c hc
    · rw [hrest] at hc
      split at hc
      · cases hc
      · exact isClean_of_isDigit (isDigit_of_mem_digits hc)
  have hname : ∀ name ∈ ["inf", "infinity", "nan"],
      String.ofList ((letters ++ rest).map Char.toLower) ≠ name := by
    intro name hname hword
    have hchars := congrArg String.toList hword
    rw [String.toList_ofList, hletters] at hchars
    simp only [List.mem_cons, List.not_mem_nil, or_false] at hname
    cases signal with
    | true => obtain rfl | rfl | rfl := hname <;> cases hchars
    | false =>
      have hne : rest ≠ [] := by
        rw [hrest, if_neg (h.resolve_left Bool.false_ne_true)]
        exact digits_ne_nil payload
      obtain ⟨d, ds, rfl⟩ := List.exists_cons_of_ne_nil hne
      obtain rfl | rfl | rfl := hname <;> cases hchars
  have hread : readScientific (letters ++ rest) = none := by
    rw [hletters]
    cases signal <;> rfl
  rw [htext, readFloat_of_clean negative hclean _ hname, hread]
  · rfl
  · rw [hletters]
    cases signal <;> simp

/-- **Decimal texts are read exactly.** The text of a decimal number is read as the binary number nearest to it;
that of a signal, or of a NaN that carries a number, is not read. -/
theorem readFloat_text (d : Decimal) : readFloat d.text.toList = d.toBinary64? := by
  cases d with
  | finite negative coefficient exponent =>
    obtain ⟨whole, fraction, power, htext, hne, hwhole, hfraction, hvalue, hpower⟩ :=
      text_finite negative coefficient exponent
    rw [htext, readFloat_numeral negative hwhole hfraction hne, hvalue, hpower, toBinary64?]
  | infinity negative => cases negative <;> decide +kernel
  | nan negative signal payload =>
    rw [toBinary64?]
    split
    · rename_i h
      exact readFloat_text_nan negative (by simpa using h)
    · rename_i h
      obtain ⟨rfl, rfl⟩ : signal = false ∧ payload = 0 := by simpa using h
      cases negative <;> decide +kernel

theorem readFloat_wideText_isSome (d : Decimal) : (readFloat d.wideText.toList).isSome = true := by
  cases d with
  | nan negative signal payload =>
    rw [wideText]
    decide +kernel
  | finite negative coefficient exponent => exact congrArg Option.isSome (readFloat_text _)
  | infinity negative => exact congrArg Option.isSome (readFloat_text _)

end Decimal

end DocSchema
