/-!
# Lines

A line ends at a line feed, at a carriage return, or at the two together.

- `linesFrom_single`: a text without a line end is one line.
-/

namespace DocSchema.Text

/-- A text with all line ends as line feeds. -/
def plainLines : List Char → List Char
  | [] => []
  | '\r' :: '\n' :: rest => '\n' :: plainLines rest
  | '\r' :: rest => '\n' :: plainLines rest
  | c :: rest => c :: plainLines rest

/-- The lines of a text whose lines end at line feeds; `current` holds the line so far, last
character first. -/
def linesFrom (current : List Char) : List Char → List (List Char)
  | [] => if current.isEmpty then [] else [current.reverse]
  | c :: rest =>
    if c = '\n' then current.reverse :: linesFrom [] rest else linesFrom (c :: current) rest

/-- The lines of a text. -/
def splitLines (text : List Char) : List (List Char) :=
  linesFrom [] (plainLines text)

theorem linesFrom_single {current text : List Char} (h : '\n' ∉ text) (ht : current ++ text ≠ []) :
    linesFrom current text = [current.reverse ++ text] := by
  induction text generalizing current with
  | nil => simp_all [linesFrom]
  | cons c text ih =>
    simp only [List.mem_cons, not_or] at h
    rw [linesFrom, if_neg fun e => h.1 e.symm, ih h.2 (by simp)]
    simp

end DocSchema.Text
