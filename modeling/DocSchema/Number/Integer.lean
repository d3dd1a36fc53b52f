/-!
# Whole numbers as text

The decimal text of a whole number, plain and with its digits in groups of three.

- `grouped_small`: a number below one thousand has no group mark.
-/

namespace DocSchema.Number

/-- The decimal digits of a natural number. -/
def digits (n : Nat) : List Char :=
  Nat.toDigits 10 n

/-- The decimal text of a natural number. -/
def natText (n : Nat) : String :=
  String.ofList (digits n)

/-- The decimal text of a whole number. -/
def intText (n : Int) : String :=
  if n < 0 then "-" ++ natText n.natAbs else natText n.natAbs

/-- Puts a comma before every third digit, counted from the end; takes and gives the digits last
first. -/
def groupReversed : List Char → List Char
  | a :: b :: c :: d :: rest => a :: b :: c :: ',' :: groupReversed (d :: rest)
  | few => few

/-- The decimal text of a natural number, its digits in groups of three. -/
def groupedNat (n : Nat) : String :=
  String.ofList (groupReversed (digits n).reverse).reverse

/-- The decimal text of a whole number, its digits in groups of three. -/
def grouped (n : Int) : String :=
  if n < 0 then "-" ++ groupedNat n.natAbs else groupedNat n.natAbs

/-- Digits in a base with lower-case letters, at least `width` of them. -/
def padded (base width n : Nat) : String :=
  let ds := Nat.toDigits base n
  String.ofList (List.replicate (width - ds.length) '0' ++ ds)

theorem groupReversed_of_length {ds : List Char} (h : ds.length ≤ 3) : groupReversed ds = ds := by
  match ds with
  | [] | [_] | [_, _] | [_, _, _] => rfl
  | _ :: _ :: _ :: _ :: _ =>
    simp only [List.length_cons] at h
    omega

theorem grouped_small {n : Nat} (h : (digits n).length ≤ 3) : groupedNat n = natText n := by
  rw [groupedNat, groupReversed_of_length (by simpa using h), List.reverse_reverse, natText]

end DocSchema.Number
