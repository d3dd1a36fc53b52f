import DocSchema.Raw.Basic

/-!
# Equality of raw values

Numbers are equal when they have the same value, whatever their kind; mappings when they hold equal
values under equal keys, and sets when they hold equal items, in any order. A value that is found again is not
compared with itself: the NaN of a file is one value wherever it stands, and so it counts as equal to itself. A
mapping has no two equal keys: an entry with a key that is already there takes the place of the former entry.
-/

namespace DocSchema.Raw

/-- The place of a value on the line of numbers, if it is a number. -/
def number? : Raw → Option Binary64.Extended
  | .bool b => some (.at (if b then 1 else 0))
  | .int n | .long n => some (.at n)
  | .float x => x.extended?
  | .decimal d =>
    match d with
    | .infinity negative => some (if negative then .low else .high)
    | d => d.toRat?.map .at
  | _ => none

/-- Whether two places on the line of numbers are one. -/
def samePlace (p q : Binary64.Extended) : Bool :=
  p.le q && q.le p

/-- Whether two moments are one; a moment with an offset is none without. -/
def sameMoment (a b : Moment) : Bool :=
  a.offset?.isSome == b.offset?.isSome && a.universalMicros == b.universalMicros

mutual
/-- Whether two raw values are equal. -/
def same (a b : Raw) : Bool :=
  match a.number?, b.number? with
  | some p, some q => samePlace p q
  | _, _ =>
    match a, b with
    | .null, .null | .float .nan, .float .nan => true
    | .text s, .text t | .code s, .code t => s == t
    | .wideDecimal d, .wideDecimal e => d == e
    | .identifier s, .identifier t => s == t
    | .bytes (.tagged m) s, .bytes (.tagged n) t => m == n && s == t
    | .bytes (.tagged _) _, .bytes _ _ | .bytes _ _, .bytes (.tagged _) _ => false
    | .bytes _ s, .bytes _ t => s == t
    | .moment m, .moment n => sameMoment m n
    | .date d, .date e => d == e
    | .uuid s, .uuid t => s == t
    | .list xs, .list ys | .tuple xs, .tuple ys => sameList xs ys
    | .map xs, .map ys => xs.length == ys.length && sameEntries xs ys
    | .set xs, .set ys => xs.length == ys.length && sameMembers xs ys
    | .foreign f, .foreign g => f == g && f != .unknown
    | .built k x, .built l y => k == l && same x y
    | _, _ => false
termination_by structural a
/-- Whether two lists are equal, item by item. -/
def sameList : List Raw → List Raw → Bool
  | [], [] => true
  | x :: xs, y :: ys => same x y && sameList xs ys
  | _, _ => false
/-- Whether every entry has an equal one among others. -/
def sameEntries : List (Raw × Raw) → List (Raw × Raw) → Bool
  | [], _ => true
  | (key, value) :: entries, others =>
    others.any (fun (other, held) => same key other && same value held) &&
      sameEntries entries others
/-- Whether every item has an equal one among others. -/
def sameMembers : List Raw → List Raw → Bool
  | [], _ => true
  | item :: items, others => others.any (fun other => same item other) && sameMembers items others
end

mutual
/-- Whether two values are nested too deeply to be compared, where so many containers may still be gone into. Items
and entries are compared only as far as they are equal. -/
def exhausts (room : Nat) (a b : Raw) : Bool :=
  match a, b with
  | .list xs, .list ys =>
    xs.length == ys.length && match room with
      | 0 => true
      | room + 1 => exhaustsList room xs ys
  | .tuple xs, .tuple ys =>
    match room with
    | 0 => true
    | room + 1 => exhaustsList room xs ys
  | .map xs, .map ys =>
    xs.length == ys.length && match room with
      | 0 => true
      | room + 1 => exhaustsEntries room xs ys
  | .built k x, .built l y =>
    match room with
    | 0 => true
    | room + 1 => k == l && exhausts room x y
  | _, _ => false
termination_by structural a
/-- Whether two lists hold items nested too deeply to be compared. -/
def exhaustsList (room : Nat) : List Raw → List Raw → Bool
  | x :: xs, y :: ys => exhausts room x y || same x y && exhaustsList room xs ys
  | _, _ => false
/-- Whether two mappings hold values under equal keys nested too deeply to be compared. -/
def exhaustsEntries (room : Nat) : List (Raw × Raw) → List (Raw × Raw) → Bool
  | (key, value) :: entries, others =>
    others.any (fun (other, held) => same key other && exhausts room value held) ||
      others.any (fun (other, held) => same key other && same value held) && exhaustsEntries room entries others
  | [], _ => false
end

mutual
/-- Whether a value can be looked up among the keys of a mapping. -/
def isKey : Raw → Bool
  | .list _ | .map _ | .set _ | .bytes .mutable _ | .code _ | .wideDecimal _
  | .foreign (.pattern _ _) => false
  | .decimal (.nan _ signal _) => !signal
  | .tuple items => areKeys items
  | .built _ payload => isKey payload
  | _ => true
/-- Whether values can be looked up among the keys of a mapping. -/
def areKeys : List Raw → Bool
  | [] => true
  | item :: items => isKey item && areKeys items
end

/-- Entries with one more; an entry under an equal key keeps its place and key and takes the value. -/
def insertEntry {α : Type} (key : Raw) (value : α) : List (Raw × α) → List (Raw × α)
  | [] => [(key, value)]
  | (other, held) :: entries =>
    if same other key then (other, value) :: entries
    else (other, held) :: insertEntry key value entries

/-- The mapping of some entries, the last of those under equal keys. -/
def ofEntries (entries : List (Raw × Raw)) : Raw :=
  .map (entries.foldl (fun held (key, value) => insertEntry key value held) [])

/-- Keys without those that are equal to one before them. -/
def distinct (keys : List Raw) : List Raw :=
  (keys.foldl (fun held key => insertEntry key () held) []).map Prod.fst

/-- The set of some keys. -/
def ofKeys (keys : List Raw) : Raw :=
  .set (distinct keys)

/-- What is held under a key. -/
def lookup? {α : Type} (key : Raw) (entries : List (Raw × α)) : Option α :=
  (entries.find? fun (other, _) => same other key).map Prod.snd

/-- The value under a text key. -/
def field? (key : String) : List (Raw × Raw) → Option Raw
  | [] => none
  | (other, value) :: entries => if other.text? = some key then some value else field? key entries

/-- The value under a text key of a mapping. -/
def get? (key : String) : Raw → Option Raw
  | .map entries => field? key entries
  | _ => none

end DocSchema.Raw
