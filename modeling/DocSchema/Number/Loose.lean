import DocSchema.Number.Numeral

/-!
# Whole numbers read loosely

Besides a plain numeral, a whole number may stand between blanks, begin with a sign and with zeros,
have single underscores between its digits, and end in a point and at least one zero.

- `readLoose_plain`: a plain numeral is read as it stands.
-/

namespace DocSchema.Number

/-- A plain numeral: its sign and its digits. -/
def plainNumeral? (cs : List Char) : Option (Bool × List Char) :=
  let (negative, body) : Bool × List Char := match cs with
    | '-' :: rest => (true, rest)
    | cs => (false, cs)
  match body with
  | [] => none
  | ['0'] => some (negative, body)
  | '0' :: _ => none
  | body => if body.all Char.isDigit then some (negative, body) else none

/-- The number of characters of the sign and the digits at the front. -/
def numeralLength : List Char → Nat
  | '-' :: rest => (rest.takeWhile Char.isDigit).length + 1
  | cs => (cs.takeWhile Char.isDigit).length

/-- Whether the first digit is a zero, which no other digit may follow. -/
def beginsWithZero : List Char → Bool
  | '-' :: '0' :: _ => true
  | '0' :: _ => true
  | _ => false

/-- Reads a plain numeral. Digits in too great a number are found before anything that stands behind
them. -/
def readPlain (cs : List Char) : Except NumeralError Int :=
  if !beginsWithZero cs && decide (maxDigits < numeralLength cs) then
    .error (.tooLong (numeralLength cs))
  else
    match plainNumeral? cs with
    | none => .error .malformed
    | some (negative, digits) =>
      let magnitude : Int := ofDigitChars digits
      .ok (if negative then -magnitude else magnitude)

/-- Whether a character is a blank that may surround a number. -/
def isSurround (c : Char) : Bool :=
  Text.isBlank c && !(0x1c ≤ c.toNat && c.toNat ≤ 0x1f)

/-- A text without the blanks around it. -/
def stripSurround (cs : List Char) : List Char :=
  ((cs.dropWhile isSurround).reverse.dropWhile isSurround).reverse

/-- A text without a plus sign at its front; there is no minus sign behind one. -/
def dropPlus? : List Char → Option (List Char)
  | '+' :: '-' :: _ => none
  | '+' :: rest => some rest
  | cs => some cs

/-- The text behind the zeros at its front, of which the last one stays before a point or at the
end. -/
def afterZeros? (last : Char) : List Char → Option (List Char)
  | [] => some [last]
  | c :: rest =>
    if c = '0' ∨ c = '_' then afterZeros? c rest
    else if c.isDigit ∨ c = '-' then some (c :: rest)
    else if c = '.' then some (last :: c :: rest)
    else none

/-- A text without zeros at its front, where a digit must stand. -/
def dropZeros? : List Char → Option (List Char)
  | [] => none
  | c :: rest =>
    if c = '0' then afterZeros? c rest
    else if c.isDigit then some (c :: rest)
    else none

/-- A text without a point and the zeros behind it, if there are some. -/
def dropNoFraction (cs : List Char) : List Char :=
  let whole := cs.takeWhile (· != '.')
  match (cs.dropWhile (· != '.')).tail with
  | [] => cs
  | zeros => if zeros.all (· == '0') then whole else cs

/-- Whether two underscores stand next to each other. -/
def hasDoubleUnderscore : List Char → Bool
  | '_' :: '_' :: _ => true
  | _ :: rest => hasDoubleUnderscore rest
  | [] => false

/-- A text without the single underscores inside of it. -/
def dropInnerUnderscores (cs : List Char) : List Char :=
  if cs.head? = some '_' ∨ cs.getLast? = some '_' ∨ hasDoubleUnderscore cs then cs
  else cs.filter (· != '_')

/-- The plain digits that a text without a sign stands for. -/
def cleanedDigits? (cs : List Char) : Option (List Char) :=
  (dropZeros? cs).map fun digits => dropInnerUnderscores (dropNoFraction digits)

/-- The plain numeral that a text stands for. -/
def cleaned? (cs : List Char) : Option (List Char) := do
  match ← dropPlus? (stripSurround cs) with
  | '-' :: rest => (cleanedDigits? rest).map ('-' :: ·)
  | digits => cleanedDigits? digits

/-- Reads a whole number. -/
def readLoose (cs : List Char) : Except NumeralError Int :=
  match readPlain cs with
  | .error .malformed =>
    match cleaned? cs with
    | none => .error .malformed
    | some numeral => readPlain numeral
  | result => result

theorem numeralLength_plain {cs digits : List Char}
    (h : plainNumeral? cs = some (false, digits)) : numeralLength cs ≤ digits.length := by
  unfold plainNumeral? at h
  split at h
  rename_i negative body heq
  have hbody : body = digits ∧ negative = false := by
    split at h
    · cases h
    · simp only [Option.some.injEq, Prod.mk.injEq] at h
      exact ⟨h.2, h.1⟩
    · cases h
    · split at h
      · simp only [Option.some.injEq, Prod.mk.injEq] at h
        exact ⟨h.2, h.1⟩
      · cases h
  obtain ⟨rfl, rfl⟩ := hbody
  split at heq
  · simp at heq
  · next hminus =>
    obtain ⟨-, rfl⟩ := Prod.mk.inj heq
    unfold numeralLength
    split
    · exact absurd rfl (hminus _)
    · exact (List.takeWhile_sublist _).length_le

theorem readLoose_plain {cs digits : List Char} (h : plainNumeral? cs = some (false, digits))
    (hlength : digits.length ≤ maxDigits) : readLoose cs = .ok (ofDigitChars digits : Nat) := by
  have hle : ¬maxDigits < numeralLength cs :=
    Nat.not_lt.2 (Nat.le_trans (numeralLength_plain h) hlength)
  have hplain : readPlain cs = .ok (ofDigitChars digits : Nat) := by
    simp [readPlain, h, hle]
  simp [readLoose, hplain]

end DocSchema.Number
