import TopicBus.Json.Value
import TopicBus.Decimal.Notation

/-!
Compact JSON text. `write` puts the text of a value in front of what follows it.
-/

namespace TopicBus.Json

def hexDigit (n : Nat) : Char :=
  if n < 10 then Char.ofNat ('0'.toNat + n) else Char.ofNat ('a'.toNat + (n - 10))

/-- A character inside quotes. Only the quote, the backslash and the controls below U+0020 are
escaped. -/
def escape (c : Char) (rest : List Char) : List Char :=
  if c = '"' then '\\' :: '"' :: rest
  else if c = '\\' then '\\' :: '\\' :: rest
  else if c = Char.ofNat 8 then '\\' :: 'b' :: rest
  else if c = Char.ofNat 9 then '\\' :: 't' :: rest
  else if c = Char.ofNat 10 then '\\' :: 'n' :: rest
  else if c = Char.ofNat 12 then '\\' :: 'f' :: rest
  else if c = Char.ofNat 13 then '\\' :: 'r' :: rest
  else if c.toNat < 0x20 then
    '\\' :: 'u' :: '0' :: '0' :: hexDigit (c.toNat / 16) :: hexDigit (c.toNat % 16) :: rest
  else c :: rest

def writeText (s : String) (rest : List Char) : List Char :=
  '"' :: s.toList.foldr escape ('"' :: rest)

def writeInteger (n : Int) (rest : List Char) : List Char :=
  if n < 0 then '-' :: (Decimal.digitChars n.natAbs ++ rest)
  else Decimal.digitChars n.natAbs ++ rest

mutual

def write : Json → List Char → List Char
  | .null, rest => 'n' :: 'u' :: 'l' :: 'l' :: rest
  | .bool true, rest => 't' :: 'r' :: 'u' :: 'e' :: rest
  | .bool false, rest => 'f' :: 'a' :: 'l' :: 's' :: 'e' :: rest
  | .integer n, rest => writeInteger n rest
  | .double x, rest => x.chars ++ rest
  | .text s, rest => writeText s rest
  | .array [], rest => '[' :: ']' :: rest
  | .array (v :: vs), rest => '[' :: write v (writeItems vs (']' :: rest))
  | .object [], rest => '\x7b' :: '\x7d' :: rest
  | .object ((n, v) :: fs), rest =>
    '\x7b' :: writeText n (':' :: write v (writeFields fs ('\x7d' :: rest)))

/-- The items after the first, each behind its comma. -/
def writeItems : List Json → List Char → List Char
  | [], rest => rest
  | v :: vs, rest => ',' :: write v (writeItems vs rest)

/-- The fields after the first, each behind its comma. -/
def writeFields : List (String × Json) → List Char → List Char
  | [], rest => rest
  | (n, v) :: fs, rest => ',' :: writeText n (':' :: write v (writeFields fs rest))

end

def print (v : Json) : String := String.ofList (v.write [])

end TopicBus.Json
