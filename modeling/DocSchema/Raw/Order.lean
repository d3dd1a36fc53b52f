import DocSchema.Raw.Equality

/-!
# Order of raw values

Values of one family can be put in order: numbers by their size, texts and bytes by their parts, days
and moments by time, and sequences by the first items that differ.

- `isBefore?_text`: texts can always be put in order.
-/

namespace DocSchema.Raw

/-- Whether one text comes before another, if both values are texts, or identifiers of one kind. -/
def isTextBefore? : Raw → Raw → Option Bool
  | .text s, .text t | .identifier s, .identifier t | .uuid s, .uuid t => some (decide (s < t))
  | _, _ => none

/-- Whether one value comes earlier than another, if both are days, or both moments with an offset, or
both without. -/
def isEarlier? : Raw → Raw → Option Bool
  | .date d, .date e => some (decide (d.dayNumber < e.dayNumber))
  | .moment m, .moment n =>
    if m.offset?.isSome = n.offset?.isSome then some (decide (m.universalMicros < n.universalMicros))
    else none
  | _, _ => none

/-- Whether one byte string comes before another. -/
def areBytesBefore : List UInt8 → List UInt8 → Bool
  | _, [] => false
  | [], _ :: _ => true
  | a :: as, b :: bs => decide (a < b) || a == b && areBytesBefore as bs

mutual
/-- Whether a value comes before another, if the two can be put in order. -/
def isBefore? (a b : Raw) : Option Bool :=
  match a.number?, b.number? with
  | some p, some q => some (!q.le p)
  | _, _ =>
    match a, b with
    | .bytes _ s, .bytes _ t => some (areBytesBefore s t)
    | .list xs, .list ys | .tuple xs, .tuple ys => areItemsBefore? xs ys
    | a, b => (isTextBefore? a b).or (isEarlier? a b)
/-- Whether some items come before others, if the first that differ can be put in order. -/
def areItemsBefore? : List Raw → List Raw → Option Bool
  | _, [] => some false
  | [], _ :: _ => some true
  | x :: xs, y :: ys => if same x y then areItemsBefore? xs ys else isBefore? x y
end

/-- Values in order, if every two of them can be put in order. -/
def inOrder? (values : List Raw) : Option (List Raw) :=
  let comparable (a b : Raw) : Bool := (isBefore? a b).isSome
  if values.length < 2 ∨ values.all fun a => values.all (comparable a) then
    some (values.mergeSort fun a b => !(isBefore? b a).getD false)
  else none

theorem isBefore?_text (s t : String) :
    isBefore? (.text s) (.text t) = some (decide (s < t)) := by
  simp [isBefore?, number?, isTextBefore?]

end DocSchema.Raw
