/-!
# Powers of two and of ten

The powers that scale the two kinds of floating-point numbers.
-/

namespace DocSchema.Number

/-- A power of two. -/
def twoTo (n : Nat) : Nat := Nat.pow 2 n

/-- A power of ten. -/
def tenTo (n : Nat) : Nat := Nat.pow 10 n

end DocSchema.Number
