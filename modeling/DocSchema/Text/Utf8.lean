import DocSchema.Number.Integer
import DocSchema.Text.Half

/-!
# Reading and writing UTF-8

Bytes are read as characters of one to four bytes, each in its shortest form and none of them half of
a surrogate pair. The first byte that breaks the rule is told with its place. Where a text is written for the
system, a half may stand for a byte above 127 that was no character; any other half cannot be written.

- `decode_ascii`: bytes below 128 are characters of their own.
- `encodeError?_eq_none_iff`: the texts that can be written for the system.
-/

namespace DocSchema.Text

open Number (natText padded)

/-- What is wrong with some bytes. -/
inductive Utf8Reason
  | start
  | continuation
  | ending
  deriving DecidableEq, Repr

/-- Bytes that are no UTF-8: where they stand, how many they are, and the first of them. -/
structure Utf8Error where
  position : Nat
  count : Nat
  first : UInt8
  reason : Utf8Reason
  deriving DecidableEq, Repr

/-- The message about bytes that are no UTF-8. -/
def Utf8Error.message (e : Utf8Error) : String :=
  let which :=
    if e.count = 1 then "byte 0x" ++ padded 16 2 e.first.toNat ++ " in position " ++ natText e.position
    else "bytes in position " ++ natText e.position ++ "-" ++ natText (e.position + e.count - 1)
  let reason := match e.reason with
    | .start => "invalid start byte"
    | .continuation => "invalid continuation byte"
    | .ending => "unexpected end of data"
  "'utf-8' codec can't decode " ++ which ++ ": " ++ reason

/-- How a first byte goes on: the bits it brings, how many bytes follow, and the range of the next. -/
def lead? (b : UInt8) : Option (Nat × Nat × Nat × Nat) :=
  let n := b.toNat
  if n < 0x80 then some (n, 0, 0, 0)
  else if n < 0xc2 then none
  else if n < 0xe0 then some (n - 0xc0, 1, 0x80, 0xbf)
  else if n = 0xe0 then some (0, 2, 0xa0, 0xbf)
  else if n = 0xed then some (0xd, 2, 0x80, 0x9f)
  else if n < 0xf0 then some (n - 0xe0, 2, 0x80, 0xbf)
  else if n = 0xf0 then some (0, 3, 0x90, 0xbf)
  else if n < 0xf4 then some (n - 0xf0, 3, 0x80, 0xbf)
  else if n = 0xf4 then some (4, 3, 0x80, 0x8f)
  else none

/-- Reads the bytes that follow a first byte: the code point, or how many bytes were right. -/
def follow (count low high value right : Nat) : List UInt8 → Except (Nat × Utf8Reason) Nat
  | [] => if count = 0 then .ok value else .error (right, .ending)
  | b :: rest =>
    match count with
    | 0 => .ok value
    | count + 1 =>
      if low ≤ b.toNat ∧ b.toNat ≤ high then
        follow count 0x80 0xbf (value * 64 + (b.toNat - 0x80)) (right + 1) rest
      else .error (right, .continuation)

/-- Reads bytes as characters; the first `pending` bytes belong to a character that has been read. -/
def decodeFrom (position pending : Nat) : List UInt8 → Except Utf8Error (List Char)
  | [] => .ok []
  | b :: rest =>
    match pending with
    | pending + 1 => decodeFrom (position + 1) pending rest
    | 0 =>
      match lead? b with
      | none => .error ⟨position, 1, b, .start⟩
      | some (value, count, low, high) =>
        match follow count low high value 1 rest with
        | .error (right, reason) => .error ⟨position, right, b, reason⟩
        | .ok point => (decodeFrom (position + 1) count rest).map (Char.ofNat point :: ·)

/-- Reads bytes as characters. -/
def decode (bytes : List UInt8) : Except Utf8Error (List Char) :=
  decodeFrom 0 0 bytes

/-- The bytes of a text. -/
def encode (s : String) : List UInt8 :=
  s.toUTF8.toList

/-- Halves that cannot be written: where they stand, how many halves stand there, and the first of them. -/
structure EncodeError where
  position : Nat
  count : Nat
  first : Nat
  deriving DecidableEq, Repr

/-- The message about halves that cannot be written. -/
def EncodeError.message (e : EncodeError) : String :=
  let which :=
    if e.count = 1 then
      "character '\\u" ++ padded 16 4 e.first ++ "' in position " ++ natText e.position
    else "characters in position " ++ natText e.position ++ "-" ++ natText (e.position + e.count - 1)
  "'utf-8' codec can't encode " ++ which ++ ": surrogates not allowed"

/-- Whether a character keeps a half that stands for a byte. -/
def keepsByte (c : Char) : Bool :=
  decide (0xdc80 ≤ pointOf c ∧ pointOf c < 0xdd00)

/-- The first halves of a text that cannot be written for the system, where its first character has a position. -/
def encodeErrorFrom? (position : Nat) : List Char → Option EncodeError
  | [] => none
  | c :: cs =>
    if keepsHalf c && !keepsByte c then
      some { position, count := ((c :: cs).takeWhile keepsHalf).length, first := pointOf c }
    else encodeErrorFrom? (position + 1) cs

/-- The first halves of a text that cannot be written for the system. -/
def encodeError? (s : String) : Option EncodeError :=
  encodeErrorFrom? 0 s.toList

theorem decode_ascii {bytes : List UInt8} (position : Nat) (h : ∀ b ∈ bytes, b.toNat < 128) :
    decodeFrom position 0 bytes = .ok (bytes.map fun b => Char.ofNat b.toNat) := by
  induction bytes generalizing position with
  | nil => rfl
  | cons b rest ih =>
    have hb : b.toNat < 0x80 := h b (by simp)
    have hf : follow 0 0 0 b.toNat 1 rest = .ok b.toNat := by cases rest <;> rfl
    simp only [decodeFrom, lead?, hb, if_true, hf, ih _ fun x hx => h x (by simp [hx])]
    rfl

/-- A text can be written for the system: each of its halves stands for a byte. -/
def IsEncodable (s : String) : Prop :=
  ∀ c ∈ s.toList, keepsHalf c = true → keepsByte c = true

theorem encodeErrorFrom?_eq_none_iff {position : Nat} {cs : List Char} :
    encodeErrorFrom? position cs = none ↔ ∀ c ∈ cs, keepsHalf c = true → keepsByte c = true := by
  induction cs generalizing position with
  | nil => simp [encodeErrorFrom?]
  | cons c cs ih =>
    rw [encodeErrorFrom?, List.forall_mem_cons]
    cases keepsHalf c <;> cases keepsByte c <;> simp [ih]

theorem encodeError?_eq_none_iff {s : String} : encodeError? s = none ↔ IsEncodable s :=
  encodeErrorFrom?_eq_none_iff

/-- The first half is told that stands for no byte, with those that follow it. -/
example : (encodeError? (String.ofList [charOf 0xdc80, charOf 0xd800, charOf 0xdc81])).map EncodeError.message =
    some "'utf-8' codec can't encode characters in position 1-2: surrogates not allowed" := by
  decide +kernel

end DocSchema.Text
