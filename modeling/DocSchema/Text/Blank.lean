import DocSchema.Text.CharSet

/-!
# Blank characters

White space as readers of numbers and lines strip it: the Unicode spaces, the line and paragraph
separators, and the control characters that move or separate.

- `blank_of_isWhitespace`: every ASCII blank is one.
-/

namespace DocSchema.Text

/-- The blank characters. -/
def blanks : CharSet where
  toggles :=
   [9, 14, 28, 33, 133, 134, 160, 161, 5760, 5761, 8192, 8203, 8232, 8234, 8239, 8240, 8287,
    8288, 12288, 12289]

/-- Whether a character is blank. -/
def isBlank (c : Char) : Bool :=
  blanks.contains c

/-- Text without the blanks at its two ends, as characters. -/
def stripBlanks (cs : List Char) : List Char :=
  ((cs.dropWhile isBlank).reverse.dropWhile isBlank).reverse

/-- Text without the blanks at its two ends. -/
def strip (s : String) : String :=
  String.ofList (stripBlanks s.toList)

theorem blank_of_isWhitespace {c : Char} (h : c.isWhitespace = true) : isBlank c = true := by
  simp only [Char.isWhitespace, Bool.or_eq_true, decide_eq_true_eq] at h
  rcases h with ((rfl | rfl) | rfl) | rfl <;> decide

end DocSchema.Text
