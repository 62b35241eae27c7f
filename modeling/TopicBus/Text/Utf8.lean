/-!
Byte strings as text. `decode` accepts exactly the UTF-8 byte strings and says of any other where it
stops being one; `decodeLossy` puts U+FFFD for every maximal piece that is no character.
-/

namespace TopicBus.Utf8

/-- Where a byte string stops being UTF-8: `size` bytes from `offset` on are no beginning of a
character, or the string ends inside a character that starts at `offset`. -/
inductive Defect where
  | invalid (size offset : Nat)
  | incomplete (offset : Nat)
  deriving DecidableEq, Repr

/-- What a lead byte asks of the bytes behind it: how many, and the range of the first of them. -/
structure Lead where
  tail : Nat
  low : UInt8
  high : UInt8
  deriving DecidableEq, Repr

/-- The lead bytes of UTF-8; the narrow ranges keep out overlong forms, surrogates and values
past U+10FFFF. -/
def lead? (b : UInt8) : Option Lead :=
  if b ≤ 0x7F then some ⟨0, 0x80, 0xBF⟩
  else if b < 0xC2 then none
  else if b ≤ 0xDF then some ⟨1, 0x80, 0xBF⟩
  else if b = 0xE0 then some ⟨2, 0xA0, 0xBF⟩
  else if b = 0xED then some ⟨2, 0x80, 0x9F⟩
  else if b ≤ 0xEF then some ⟨2, 0x80, 0xBF⟩
  else if b = 0xF0 then some ⟨3, 0x90, 0xBF⟩
  else if b ≤ 0xF3 then some ⟨3, 0x80, 0xBF⟩
  else if b = 0xF4 then some ⟨3, 0x80, 0x8F⟩
  else none

/-- How far the bytes behind a lead byte follow it. -/
inductive Tail where
  /-- All the bytes that the lead byte asks for are there. -/
  | whole (size : Nat)
  /-- The byte after the first `size` ones does not belong to the character. -/
  | broken (size : Nat)
  /-- The text ends after `size` fitting bytes. -/
  | cut (size : Nat)
  deriving DecidableEq, Repr

def follow : Nat → UInt8 → UInt8 → Nat → List UInt8 → Tail
  | 0, _, _, taken, _ => .whole taken
  | _ + 1, _, _, taken, [] => .cut taken
  | n + 1, low, high, taken, b :: rest =>
    if low ≤ b ∧ b ≤ high then follow n 0x80 0xBF (taken + 1) rest else .broken taken

/-- The bytes that continue the character started by `b`. -/
def tail (b : UInt8) (rest : List UInt8) : Tail :=
  match lead? b with
  | some l => follow l.tail l.low l.high 0 rest
  | none => .broken 0

/-- The first defect at or after `offset`, the position of the given bytes. -/
def defect? (offset : Nat) : List UInt8 → Option Defect
  | [] => none
  | b :: rest =>
    match tail b rest with
    | .whole n => defect? (offset + n + 1) (rest.drop n)
    | .broken n => some (.invalid (n + 1) offset)
    | .cut _ => some (.incomplete offset)
termination_by bytes => bytes.length
decreasing_by simp only [List.length_cons, List.length_drop]; omega

def encode (s : String) : List UInt8 := s.toUTF8.data.toList

def decode (bytes : List UInt8) : Except Defect String :=
  match String.fromUTF8? ⟨bytes.toArray⟩ with
  | some s => .ok s
  | none => .error ((defect? 0 bytes).getD (.incomplete bytes.length))

/-- The code point spelled by a lead byte and `n` bytes behind it. -/
def codePoint (b : UInt8) (n : Nat) (rest : List UInt8) : Nat :=
  let start := match n with
    | 0 => b.toNat
    | 1 => b.toNat % 32
    | 2 => b.toNat % 16
    | _ => b.toNat % 8
  (rest.take n).foldl (fun value c => value * 64 + c.toNat % 64) start

def replacement : Char := Char.ofNat 0xFFFD

def lossyChars : List UInt8 → List Char
  | [] => []
  | b :: rest =>
    match tail b rest with
    | .whole n => Char.ofNat (codePoint b n rest) :: lossyChars (rest.drop n)
    | .broken n => replacement :: lossyChars (rest.drop n)
    | .cut _ => [replacement]
termination_by bytes => bytes.length
decreasing_by all_goals (simp only [List.length_cons, List.length_drop]; omega)

def decodeLossy (bytes : List UInt8) : String := String.ofList (lossyChars bytes)

def Defect.message : Defect → String
  | .invalid size offset => s!"invalid utf-8 sequence of {size} bytes from index {offset}"
  | .incomplete offset => s!"incomplete utf-8 byte sequence from index {offset}"

end TopicBus.Utf8
