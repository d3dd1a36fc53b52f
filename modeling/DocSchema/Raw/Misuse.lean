import DocSchema.Raw.Order
import DocSchema.Text.Quoted

/-!
# Misuses of raw values

A value may stand where one of another kind is needed: a number among texts, a list as a key. A misuse
tells what is wrong, and which message is given about it.

- `texts_ok_iff`: values are joined as texts exactly when each of them is one.
-/

namespace DocSchema

open Number (natText)
open Text (quoted)

/-- What is wrong with a value that stands where one of another kind is needed. -/
inductive Misuse
  /-- A value among texts, at a place, is none. -/
  | notText (place : Nat) (typeName : String)
  | unordered (typeName other : String)
  | notKey (typeName : String)
  /-- A number that signals cannot be a key. -/
  | signalAsKey
  | notIterable (typeName : String)
  | noPart (typeName part : String)
  /-- Text is looked for in bytes. -/
  | textInBytes
  | notSeed
  | notPath (typeName : String)
  | bytesAsPath (typeName : String)
  deriving DecidableEq, Repr

namespace Misuse

/-- The message about a misuse. -/
def message : Misuse → String
  | .notText place typeName =>
    "sequence item " ++ natText place ++ ": expected str instance, " ++ typeName ++ " found"
  | .unordered typeName other =>
    "'<' not supported between instances of " ++ quoted typeName ++ " and " ++ quoted other
  | .notKey typeName => "unhashable type: " ++ quoted typeName
  | .signalAsKey => "Cannot hash a signaling NaN value"
  | .notIterable typeName => quoted typeName ++ " object is not iterable"
  | .noPart typeName part => quoted typeName ++ " object has no attribute " ++ quoted part
  | .textInBytes => "a bytes-like object is required, not 'str'"
  | .notSeed =>
    "The only supported seed types are: None,\nint, float, str, bytes, and bytearray."
  | .notPath typeName => "expected str, bytes or os.PathLike object, not " ++ typeName
  | .bytesAsPath typeName =>
    "argument should be a str object or an os.PathLike object returning str, not <class " ++
      quoted typeName ++ ">"

/-- Whether a part is wanted that the value does not have. -/
def isPart : Misuse → Bool
  | .noPart .. => true
  | _ => false

end Misuse

namespace Raw

mutual
/-- Why a value cannot be a key; in a sequence, the first item that cannot decides. -/
def keyMisuse : Raw → Misuse
  | .decimal _ => .signalAsKey
  | .tuple items => itemMisuse items
  | .built _ payload => keyMisuse payload
  | r => .notKey r.typeName
/-- Why the first item that cannot be a key cannot. -/
def itemMisuse : List Raw → Misuse
  | [] => .notKey "tuple"
  | item :: items => if isKey item then itemMisuse items else keyMisuse item
end

/-- Values as texts, of which the first has a place. -/
def textsFrom (place : Nat) : List Raw → Except Misuse (List String)
  | [] => .ok []
  | value :: values =>
    match value.text? with
    | none => .error (.notText place value.typeName)
    | some s => (textsFrom (place + 1) values).map (s :: ·)

/-- Values as texts. -/
def texts (values : List Raw) : Except Misuse (List String) :=
  textsFrom 0 values

/-- Why values cannot be put in order, told of the first two neighbours that do not compare, or of the
last two. -/
def orderMisuse : List Raw → Misuse
  | [] => .unordered "object" "object"
  | [a] => .unordered a.typeName a.typeName
  | a :: b :: values =>
    if (isBefore? b a).isSome && !values.isEmpty then orderMisuse (b :: values)
    else .unordered b.typeName a.typeName

/-- Values in order, as texts. -/
def orderedTexts (values : List Raw) : Except Misuse (List String) :=
  match inOrder? values with
  | some ordered => texts ordered
  | none => .error (orderMisuse values)

theorem textsFrom_ok_iff {place : Nat} {values : List Raw} {ss : List String} :
    textsFrom place values = .ok ss ↔ values.map text? = ss.map some := by
  induction values generalizing place ss with
  | nil => cases ss <;> simp [textsFrom]
  | cons value values ih =>
    rw [textsFrom]
    cases h : value.text? with
    | none => cases ss <;> simp [h]
    | some s =>
      cases hrest : textsFrom (place + 1) values with
      | error e =>
        cases ss with
        | nil => simp [Except.map]
        | cons t ss =>
          simp only [Except.map, reduceCtorEq, List.map_cons, h, List.cons.injEq, false_iff]
          rintro ⟨-, hmap⟩
          simp [ih.2 hmap] at hrest
      | ok found =>
        have hfound := ih.1 hrest
        cases ss with
        | nil => simp [Except.map]
        | cons t ss =>
          simp only [Except.map, Except.ok.injEq, List.cons.injEq, List.map_cons, h, hfound,
            Option.some.injEq]
          refine and_congr_right fun _ => ⟨fun h => h ▸ rfl, fun hmap => ?_⟩
          exact (List.map_inj_right fun _ _ => Option.some.inj).1 hmap

theorem texts_ok_iff {values : List Raw} {ss : List String} :
    texts values = .ok ss ↔ values.map text? = ss.map some :=
  textsFrom_ok_iff

end Raw

end DocSchema
