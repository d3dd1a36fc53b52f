/-!
# Searching in text

Text as a list of characters, searched for an occurrence of a pattern from the left. Occurrences do
not overlap: the search goes on after the one that was found.

- `replaceAll_nil`, `splitOn_ne_nil`: an empty text has no occurrence, and a split has a first part.
- `replaceAll_start`, `replaceAll_append_of_absent`: a text is gone through from one occurrence to the next.
-/

namespace DocSchema.Text

/-- The text behind a pattern that it begins with. -/
def afterStart? : (pattern text : List Char) → Option (List Char)
  | [], text => some text
  | _ :: _, [] => none
  | p :: pattern, c :: text => if p = c then afterStart? pattern text else none

theorem afterStart?_length {pattern text rest : List Char}
    (h : afterStart? pattern text = some rest) : pattern.length + rest.length = text.length := by
  induction pattern generalizing text with
  | nil => simp_all [afterStart?]
  | cons p pattern ih =>
    cases text with
    | nil => simp [afterStart?] at h
    | cons c text =>
      simp only [afterStart?] at h
      split at h
      · simpa [Nat.add_right_comm] using ih h
      · simp at h

/-- Replaces every occurrence of a non-empty pattern, from left to right. -/
def replaceAll (pattern replacement : List Char) : List Char → List Char
  | [] => []
  | c :: text =>
    match pattern with
    | [] => c :: text
    | p :: ps =>
      if p = c then
        match _h : afterStart? ps text with
        | some rest => replacement ++ replaceAll (p :: ps) replacement rest
        | none => c :: replaceAll (p :: ps) replacement text
      else c :: replaceAll (p :: ps) replacement text
termination_by text => text.length
decreasing_by
  all_goals simp_wf
  have := afterStart?_length _h
  omega

/-- Replaces every occurrence of a non-empty pattern in a text. -/
def replace (pattern replacement text : String) : String :=
  String.ofList (replaceAll pattern.toList replacement.toList text.toList)

/-- The parts of a text between the occurrences of one character. -/
def splitOn (mark : Char) : List Char → List (List Char)
  | [] => [[]]
  | c :: text =>
    if c = mark then [] :: splitOn mark text
    else
      match splitOn mark text with
      | [] => [[c]]
      | part :: parts => (c :: part) :: parts

theorem replaceAll_nil (pattern replacement : List Char) :
    replaceAll pattern replacement [] = [] := by
  rw [replaceAll]

theorem afterStart?_eq_some_iff {pattern text rest : List Char} :
    afterStart? pattern text = some rest ↔ text = pattern ++ rest := by
  induction pattern generalizing text with
  | nil => simp [afterStart?]
  | cons p pattern ih =>
    cases text with
    | nil => simp [afterStart?]
    | cons c text =>
      by_cases h : p = c
      · simp [afterStart?, h, ih]
      · simp [afterStart?, h, Ne.symm h]

theorem replaceAll_start {pattern : List Char} (h : pattern ≠ []) (replacement rest : List Char) :
    replaceAll pattern replacement (pattern ++ rest) = replacement ++ replaceAll pattern replacement rest := by
  cases pattern with
  | nil => exact absurd rfl h
  | cons p ps =>
    have hafter : afterStart? ps (ps ++ rest) = some rest := afterStart?_eq_some_iff.2 rfl
    rw [List.cons_append, replaceAll]
    simp only [if_true]
    split
    · rename_i rest' hrest
      rw [hafter, Option.some.injEq] at hrest
      rw [hrest]
    · rename_i hnone
      rw [hafter] at hnone
      cases hnone

theorem replaceAll_cons_of_not_prefix {pattern text : List Char} {c : Char} (h : ¬ pattern <+: c :: text)
    (replacement : List Char) :
    replaceAll pattern replacement (c :: text) = c :: replaceAll pattern replacement text := by
  cases pattern with
  | nil => exact absurd List.nil_prefix h
  | cons p ps =>
    rw [replaceAll]
    split
    · rename_i hp
      split
      · rename_i rest hrest
        refine absurd ?_ h
        rw [hp, afterStart?_eq_some_iff.1 hrest, ← List.cons_append]
        exact List.prefix_append _ _
      · rfl
    · rfl

/-- A text in which no occurrence begins is kept, whatever follows. -/
theorem replaceAll_append_of_absent {pattern text rest : List Char}
    (h : ∀ c start, c :: start <:+ text → ¬ pattern <+: c :: start ++ rest) (replacement : List Char) :
    replaceAll pattern replacement (text ++ rest) = text ++ replaceAll pattern replacement rest := by
  induction text with
  | nil => rfl
  | cons c text ih =>
    have hfirst : ¬ pattern <+: c :: (text ++ rest) := h c text List.suffix_rfl
    rw [List.cons_append, replaceAll_cons_of_not_prefix hfirst,
      ih fun d start hstart => h d start (hstart.trans (List.suffix_cons c text)), List.cons_append]

theorem splitOn_ne_nil (mark : Char) (text : List Char) : splitOn mark text ≠ [] := by
  cases text with
  | nil => simp [splitOn]
  | cons c text =>
    rw [splitOn]
    split
    · simp
    · split <;> simp

/-- Whether a text ends in a pattern. -/
def endsWith (pattern text : List Char) : Bool :=
  (afterStart? pattern.reverse text.reverse).isSome

/-- The part of a text after the last occurrence of a character, or all of it. -/
def afterLast (mark : Char) (text : List Char) : List Char :=
  (splitOn mark text).getLast (splitOn_ne_nil mark text)

/-- Puts a mark between texts. -/
def joinWith (mark : String) (texts : List String) : String :=
  mark.intercalate texts

end DocSchema.Text
