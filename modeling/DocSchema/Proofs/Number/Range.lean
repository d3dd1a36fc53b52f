import DocSchema.Number.Binary64

/-!
# The range of floating-point numbers

Which whole numbers are near a finite floating-point number. Rounding is towards the next power of two from
the middle between it and the greatest finite number on, as the significand of the power is even, and the
exponent of the power is too great.

- `roundHalfEven_eq_succ_iff`: when a quotient rounds up to an even number.
- `isFinite_ofInt_iff`: the whole numbers that are near a finite number.
- `ofInt?_eq_none_iff`: those that are too large.
-/

namespace DocSchema

/-- A quotient below an even number rounds up to it when it is at most a half away. -/
theorem roundHalfEven_eq_succ_iff {n half odd : Nat} (hodd : odd % 2 = 1)
    (hn : n < 2 * half * (odd + 1)) :
    roundHalfEven n (2 * half) = odd + 1 ↔ 2 * half * (odd + 1) ≤ n + half := by
  have hpos : 0 < 2 * half := Nat.pos_of_ne_zero fun hzero => by
    rw [hzero, Nat.zero_mul] at hn
    exact Nat.not_lt_zero n hn
  have hsplit := Nat.div_add_mod n (2 * half)
  have hrest := Nat.mod_lt n hpos
  have hquotient : n / (2 * half) ≤ odd := Nat.le_of_lt_succ (Nat.div_lt_of_lt_mul hn)
  have htop : 2 * half * (odd + 1) = 2 * half * odd + 2 * half := Nat.mul_succ _ _
  rw [roundHalfEven]
  obtain hlt | heq := Nat.lt_or_eq_of_le hquotient
  · -- the quotient is too small by one and more
    have hle : 2 * half * (n / (2 * half)) + 2 * half ≤ 2 * half * odd := by
      rw [← Nat.mul_succ]
      exact Nat.mul_le_mul_left _ hlt
    constructor
    · intro hround
      split at hround <;> omega
    · intro hle'
      omega
  · rw [heq] at hsplit
    constructor
    · intro hround
      split at hround
      · omega
      · rename_i hup
        simp at hup
        omega
    · intro hle
      rw [heq, if_neg]
      simp
      omega

namespace Number

theorem twoTo_add (m n : Nat) : twoTo (m + n) = twoTo m * twoTo n :=
  Nat.pow_add 2 m n

theorem twoTo_succ (n : Nat) : twoTo (n + 1) = twoTo n * 2 :=
  Nat.pow_succ 2 n

theorem twoTo_lt {m n : Nat} (h : m < n) : twoTo m < twoTo n :=
  Nat.pow_lt_pow_right (by decide) h

theorem log2_lt_iff {n k : Nat} (hn : n ≠ 0) : n.log2 < k ↔ n < twoTo k :=
  Nat.log2_lt hn

end Number

namespace Binary64

open Number (twoTo twoTo_add twoTo_succ twoTo_lt log2_lt_iff)

theorem shifted_one (n : Nat) {exponent : Int} (h : 0 ≤ exponent) :
    shifted n 1 exponent = (n, twoTo exponent.toNat) := by
  rw [shifted, if_pos h, Nat.one_mul]

/-- The exponent of a whole number before its significand is rounded: it is small for small numbers, and
that of the greatest power of two below a great one. -/
theorem exponent_cases {n : Nat} (hn : n ≠ 0) {guess exponent : Int} (hguess : guess = n.log2 - 52)
    (h : max minExponent (if (shifted n 1 guess).1 < (shifted n 1 guess).2 * twoTo 52 then guess - 1
      else guess) = exponent) :
    n.log2 < 1023 ∧ exponent < maxExponent ∨ 1023 ≤ n.log2 ∧ exponent = n.log2 - 52 := by
  rw [minExponent] at h
  rw [maxExponent]
  obtain hlt | hle := Nat.lt_or_ge n.log2 1023
  · refine .inl ⟨hlt, ?_⟩
    split at h <;> omega
  · have hlarge : ¬(shifted n 1 guess).1 < (shifted n 1 guess).2 * twoTo 52 := by
      rw [shifted_one n (by omega), ← twoTo_add, show guess.toNat + 52 = n.log2 by omega]
      exact Nat.not_lt.2 (Nat.log2_self_le hn)
    rw [if_neg hlarge] at h
    exact .inr ⟨hle, by omega⟩

/-- A whole number is finite whose exponent is not too great once its significand is rounded. -/
theorem isFinite_ofRatio_iff (negative : Bool) {n : Nat} (hn : n ≠ 0) :
    ∃ exponent : Int,
      (n.log2 < 1023 ∧ exponent < maxExponent ∨ 1023 ≤ n.log2 ∧ exponent = n.log2 - 52) ∧
      ((ofRatio negative n 1).isFinite = true ↔ exponent < maxExponent ∨ exponent = maxExponent ∧
        roundHalfEven (shifted n 1 exponent).1 (shifted n 1 exponent).2 ≠ twoTo 53) := by
  -- the kernel would compare the parts of the number by computing them, so they are given names
  rw [ofRatio, if_neg hn]
  dsimp -iota -proj only
  generalize hexponent : max minExponent _ = exponent
  refine ⟨exponent, exponent_cases hn (Int.sub_zero _ ▸ rfl) hexponent, ?_⟩
  generalize roundHalfEven _ _ = significand
  clear hexponent
  split
  rename_i rounded final hrounded
  split at hrounded
  · obtain ⟨-, rfl⟩ := Prod.mk.inj hrounded
    split
    · simp [isFinite]
      omega
    · simp [isFinite]
      omega
  · obtain ⟨-, rfl⟩ := Prod.mk.inj hrounded
    split
    · simp [isFinite]
      omega
    · simp [isFinite]
      omega

/-- A whole number is near a finite one unless it is as near to the next power of two as to the greatest
finite number, or nearer. -/
theorem isFinite_ofInt_iff {n : Int} :
    (ofInt n).isFinite = true ↔ n.natAbs + twoTo 970 < twoTo 1024 := by
  rw [ofInt]
  by_cases hn : n.natAbs = 0
  · rw [hn, Nat.zero_add]
    exact iff_of_true rfl (twoTo_lt (by decide))
  obtain ⟨exponent, ⟨hlog, hsmall⟩ | ⟨hlog, hlarge⟩, hfinite⟩ := isFinite_ofRatio_iff (decide (n < 0)) hn
  · refine iff_of_true (hfinite.2 (.inl hsmall)) ?_
    rw [twoTo_succ 1023, Nat.mul_two]
    exact Nat.add_lt_add ((log2_lt_iff hn).1 hlog) (twoTo_lt (by decide))
  · obtain hbeyond | hexact := Nat.lt_or_eq_of_le hlog
    · have hle : twoTo 1024 ≤ n.natAbs := Nat.not_lt.1 fun h =>
        Nat.not_lt.2 hbeyond ((log2_lt_iff hn).2 h)
      refine iff_of_false (fun h => ?_) (Nat.not_lt.2 (Nat.le_trans hle (Nat.le_add_right _ _)))
      have hexponent := hfinite.1 h
      rw [maxExponent] at hexponent
      omega
    · -- the significand has all its digits before the point, and rounding decides
      have hexponent : exponent = 971 := by omega
      have htop : 2 * twoTo 970 * (9007199254740991 + 1) = twoTo 1024 := by
        rw [Nat.mul_comm 2, ← twoTo_succ, show 9007199254740991 + 1 = twoTo 53 from rfl, ← twoTo_add]
      have hlt : n.natAbs < 2 * twoTo 970 * (9007199254740991 + 1) := by
        rw [htop, ← log2_lt_iff hn]
        omega
      have hround := roundHalfEven_eq_succ_iff (by decide) hlt
      rw [htop, ← Nat.not_lt, show 9007199254740991 + 1 = twoTo 53 from rfl] at hround
      rw [hfinite, hexponent, shifted_one _ (by decide), show (971 : Int).toNat = 970 + 1 from rfl,
        twoTo_succ, Nat.mul_comm _ 2, maxExponent, Ne, hround, Decidable.not_not]
      constructor
      · intro h
        exact (h.resolve_left (Int.lt_irrefl 971)).2
      · intro h
        exact .inr ⟨rfl, h⟩

theorem ofInt?_eq_none_iff {n : Int} : ofInt? n = none ↔ twoTo 1024 ≤ n.natAbs + twoTo 970 := by
  rw [← Nat.not_lt, ← isFinite_ofInt_iff, ofInt?]
  cases ofInt n with
  | finite negative significand exponent => simp [isFinite]
  | infinity negative => simp [isFinite]
  | nan => simp [isFinite]

end Binary64

end DocSchema
