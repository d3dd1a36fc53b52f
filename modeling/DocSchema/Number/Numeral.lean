import DocSchema.Number.Binary64
import DocSchema.Number.Integer
import DocSchema.Text.Blank
import DocSchema.Text.Digit

/-!
# Numbers read from text

A numeral may stand between blanks, carry a sign, use the decimal digits of any script, and have
single underscores between its digits.

- `plain_ascii`: a text of ASCII characters is read as it stands.
- `digitsFrom_underscore_end`: an underscore never ends a numeral.
-/

namespace DocSchema.Number

/-- Why a text is not read as a whole number. -/
inductive NumeralError
  | malformed
  | tooLong (digits : Nat)
  deriving DecidableEq, Repr

/-- The greatest number of decimal digits that is read, and that is written. -/
def maxDigits : Nat := 4300

/-- Whether a number has no more digits than are written. -/
def isWritable (n : Nat) : Bool :=
  decide ((digits n).length ≤ maxDigits)

theorem length_digits_le_iff {n k : Nat} (h : 0 < k) : (digits n).length ≤ k ↔ n < tenTo k :=
  Nat.length_toDigits_le_iff (by decide) h

theorem isWritable_iff {n : Nat} : isWritable n = true ↔ n < tenTo maxDigits := by
  rw [isWritable, decide_eq_true_iff, length_digits_le_iff (by decide)]

/-- A number below one that is written is written, too. -/
theorem isWritable_of_le {m n : Nat} (hle : m ≤ n) (h : isWritable n = true) : isWritable m = true :=
  isWritable_iff.2 (Nat.lt_of_le_of_lt hle (isWritable_iff.1 h))

/-- The blanks that may surround a numeral of ASCII characters. -/
def isSpace (c : Char) : Bool :=
  c == ' ' || (9 ≤ c.toNat && c.toNat ≤ 13)

/-- The ASCII form of a character of a numeral; one that has none becomes a question mark. -/
def plainChar (c : Char) : Char :=
  if c.toNat < 128 then c
  else if Text.isBlank c then ' '
  else match Text.digit? c with
    | some d => Char.ofNat (d + 48)
    | none => '?'

/-- A numeral in ASCII, without the blanks around it. -/
def plain (cs : List Char) : List Char :=
  (((cs.map plainChar).dropWhile isSpace).reverse.dropWhile isSpace).reverse

theorem plain_ascii {c d : Char} {mid : List Char} (h : ∀ x ∈ c :: mid ++ [d], x.toNat < 128)
    (hc : isSpace c = false) (hd : isSpace d = false) : plain (c :: mid ++ [d]) = c :: mid ++ [d] := by
  have hmap : (c :: mid ++ [d]).map plainChar = c :: mid ++ [d] := by
    rw [List.map_congr_left (g := id) fun x hx => by simp [plainChar, h x hx], List.map_id]
  rw [plain, hmap]
  simp [hc, hd]

/-- The value of a digit in bases up to thirty-six. -/
def digitValue? (c : Char) : Option Nat :=
  if '0' ≤ c ∧ c ≤ '9' then some (c.toNat - 48)
  else if 'a' ≤ c ∧ c ≤ 'z' then some (c.toNat - 87)
  else if 'A' ≤ c ∧ c ≤ 'Z' then some (c.toNat - 55)
  else none

/-- Digits with single underscores between them; `afterDigit` tells that a digit came last. -/
def digitsFrom (base : Nat) (afterDigit : Bool) : List Char → Option (List Nat)
  | [] => if afterDigit then some [] else none
  | c :: rest =>
    if c = '_' then
      if afterDigit then digitsFrom base false rest else none
    else
      match digitValue? c with
      | some d => if d < base then (digitsFrom base true rest).map (d :: ·) else none
      | none => none

theorem digitsFrom_underscore_end (base : Nat) (afterDigit : Bool) (cs : List Char) :
    digitsFrom base afterDigit (cs ++ ['_']) = none := by
  induction cs generalizing afterDigit with
  | nil => cases afterDigit <;> simp [digitsFrom]
  | cons c rest ih =>
    simp only [List.cons_append, digitsFrom, ih, Option.map_none]
    split
    · split <;> rfl
    · split
      · split <;> rfl
      · rfl

/-- The number that digits stand for. -/
def ofDigits (base : Nat) (ds : List Nat) : Nat :=
  ds.foldl (fun n d => n * base + d) 0

/-- Splits off a sign. -/
def signOf : List Char → Bool × List Char
  | '-' :: rest => (true, rest)
  | '+' :: rest => (false, rest)
  | cs => (false, cs)

/-- Drops the mark of a base before digits of that base, and one underscore after the mark. -/
def dropBaseMark (base : Nat) (cs : List Char) : List Char :=
  let afterMark : List Char → List Char
    | '_' :: rest => rest
    | rest => rest
  match cs with
  | '0' :: m :: rest =>
    if (base = 16 ∧ (m = 'x' ∨ m = 'X')) ∨ (base = 8 ∧ (m = 'o' ∨ m = 'O')) ∨
        (base = 2 ∧ (m = 'b' ∨ m = 'B'))
    then afterMark rest else cs
  | _ => cs

/-- Reads a whole number in a base. -/
def readIntIn (base : Nat) (text : List Char) : Except NumeralError Int :=
  let (negative, body) := signOf (plain text)
  match digitsFrom base false (dropBaseMark base body) with
  | none => .error .malformed
  | some ds =>
    if base = 10 ∧ ds.length > maxDigits then .error (.tooLong ds.length)
    else
      let magnitude : Int := ofDigits base ds
      .ok (if negative then -magnitude else magnitude)

/-- Reads a whole number in base ten. -/
def readInt (text : List Char) : Except NumeralError Int :=
  readIntIn 10 text

/-- The number nearest to `coefficient · 10 ^ exponent`. -/
def ofDecimal (negative : Bool) (coefficient : Nat) (exponent : Int) : Binary64 :=
  if coefficient = 0 then .finite negative 0 Binary64.minExponent
  else
    let magnitude := (digits coefficient).length + exponent
    if magnitude > 310 then .infinity negative
    else if magnitude < -330 then .finite negative 0 Binary64.minExponent
    else if 0 ≤ exponent then Binary64.ofRatio negative (coefficient * tenTo exponent.toNat) 1
    else Binary64.ofRatio negative coefficient (tenTo (-exponent).toNat)

/-- Takes the digits at the front, dropping the underscores that stand between two digits. -/
def takeDigits : List Char → List Char × List Char
  | [] => ([], [])
  | c :: rest =>
    if c.isDigit then
      let (ds, after) := takeDigits rest
      (c :: ds, after)
    else ([], c :: rest)

/-- Drops the underscores that stand between two digits; none when one stands elsewhere. -/
def dropUnderscores (before : Char) : List Char → Option (List Char)
  | [] => if before = '_' then none else some []
  | c :: rest =>
    if c = '_' then
      if before.isDigit then dropUnderscores c rest else none
    else if before = '_' ∧ !c.isDigit then none
    else (dropUnderscores c rest).map (c :: ·)

/-- The whole number that a run of ASCII digits stands for. -/
def ofDigitChars (ds : List Char) : Nat :=
  ds.foldl (fun n d => n * 10 + (d.toNat - 48)) 0

/-- The power of ten at the end of a numeral, which may be missing; none when more follows. -/
def readPower : List Char → Option Int
  | [] => some 0
  | c :: rest =>
    if c = 'e' ∨ c = 'E' then
      let (negative, body) := signOf rest
      match takeDigits body with
      | ([], _) => none
      | (ds, []) =>
        let n : Int := ofDigitChars ds
        some (if negative then -n else n)
      | _ => none
    else none

/-- A decimal numeral: coefficient and power of ten. -/
def readScientific (cs : List Char) : Option (Nat × Int) :=
  let (whole, rest) := takeDigits cs
  let (fraction, rest) := match rest with
    | '.' :: after => takeDigits after
    | _ => ([], rest)
  if whole.isEmpty && fraction.isEmpty then none
  else
    (readPower rest).map fun power =>
      (ofDigitChars (whole ++ fraction), power - fraction.length)

/-- Reads a floating-point number, with infinities and NaN by name. -/
def readFloat (text : List Char) : Option Binary64 := do
  let body ← dropUnderscores ' ' (plain text)
  let (negative, body) := signOf body
  let word := String.ofList (body.map Char.toLower)
  if word = "inf" || word = "infinity" then some (.infinity negative)
  else if word = "nan" then some .nan
  else
    let (coefficient, exponent) ← readScientific body
    some (ofDecimal negative coefficient exponent)

end DocSchema.Number
