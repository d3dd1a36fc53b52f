/-!
# Halves of surrogate pairs

A text that is read may name one half of a surrogate pair alone, which is no character. Such a half is
kept as a character of a plane that holds no others, and is written as the half again.

- `pointOf_charOf`: a half is found again in the character that keeps it.
- `pointOf_low`: a character below that plane has its own code point.
-/

namespace DocSchema.Text

/-- Whether a code point is half of a surrogate pair. -/
def isHalf (point : Nat) : Bool :=
  decide (0xd800 ≤ point ∧ point < 0xe000)

/-- The first code point of the plane in which halves are kept. -/
def halfPlane : Nat := 0xb0000

/-- The character of a code point, or the character that keeps a half. -/
def charOf (point : Nat) : Char :=
  Char.ofNat (if isHalf point then halfPlane + point else point)

/-- Whether a character keeps a half. -/
def keepsHalf (c : Char) : Bool :=
  isHalf (c.toNat - halfPlane)

/-- The code point of a character, or the half that it keeps. -/
def pointOf (c : Char) : Nat :=
  if keepsHalf c then c.toNat - halfPlane else c.toNat

/-- Whether a text has a half. -/
def hasHalf (s : String) : Bool :=
  s.toList.any keepsHalf

theorem toNat_charOf_half {point : Nat} (h : isHalf point = true) :
    (charOf point).toNat = halfPlane + point := by
  have hrange : 0xd800 ≤ point ∧ point < 0xe000 := of_decide_eq_true h
  have hvalid : (halfPlane + point).isValidChar := Or.inr (by simp only [halfPlane]; omega)
  rw [charOf, if_pos h, Char.ofNat, dif_pos hvalid]
  rfl

theorem pointOf_charOf {point : Nat} (h : isHalf point = true) : pointOf (charOf point) = point := by
  simp [pointOf, keepsHalf, toNat_charOf_half h, h]

theorem pointOf_low {c : Char} (h : c.toNat < halfPlane) : pointOf c = c.toNat := by
  have hzero : c.toNat - halfPlane = 0 := by omega
  simp [pointOf, keepsHalf, hzero, isHalf]

end DocSchema.Text
