import TopicBus.Json.Value
import TopicBus.Decimal.Nearest
import TopicBus.Text.Utf8

/-!
Strict JSON. A text is one value with white space around it, at most `maxNesting` arrays and objects
deep. An integer literal of the 64-bit ranges is an integer; any other number is the nearest double,
and one that rounds to infinity is refused.
-/

namespace TopicBus.Json

def maxNesting : Nat := 127

def isBlank (c : Char) : Bool :=
  c = ' ' || c = Char.ofNat 9 || c = Char.ofNat 10 || c = Char.ofNat 13

def skipBlanks (cs : List Char) : List Char := cs.dropWhile isBlank

def hexValue? (c : Char) : Option Nat :=
  if '0' ≤ c ∧ c ≤ '9' then some (c.toNat - '0'.toNat)
  else if 'a' ≤ c ∧ c ≤ 'f' then some (c.toNat - 'a'.toNat + 10)
  else if 'A' ≤ c ∧ c ≤ 'F' then some (c.toNat - 'A'.toNat + 10)
  else none

/-- The number spelled by four hexadecimal digits. -/
def fourHex? (a b c d : Char) : Option Nat := do
  let a ← hexValue? a
  let b ← hexValue? b
  let c ← hexValue? c
  let d ← hexValue? d
  return ((a * 16 + b) * 16 + c) * 16 + d

def isHighSurrogate (n : Nat) : Bool := 0xD800 ≤ n && n < 0xDC00

def isLowSurrogate (n : Nat) : Bool := 0xDC00 ≤ n && n < 0xE000

/-- The character behind a backslash, and what follows it. -/
def unescape : List Char → Option (Char × List Char)
  | '"' :: rest => some ('"', rest)
  | '\\' :: rest => some ('\\', rest)
  | '/' :: rest => some ('/', rest)
  | 'b' :: rest => some (Char.ofNat 8, rest)
  | 'f' :: rest => some (Char.ofNat 12, rest)
  | 'n' :: rest => some (Char.ofNat 10, rest)
  | 'r' :: rest => some (Char.ofNat 13, rest)
  | 't' :: rest => some (Char.ofNat 9, rest)
  | 'u' :: a :: b :: c :: d :: rest =>
    match fourHex? a b c d with
    | none => none
    | some n =>
      if isLowSurrogate n then none
      else if isHighSurrogate n then
        match rest with
        | '\\' :: 'u' :: a :: b :: c :: d :: rest =>
          match fourHex? a b c d with
          | none => none
          | some m =>
            if isLowSurrogate m then
              some (Char.ofNat (0x10000 + (n - 0xD800) * 0x400 + (m - 0xDC00)), rest)
            else none
        | _ => none
      else some (Char.ofNat n, rest)
  | _ => none

theorem unescape_length {cs rest : List Char} {c : Char} (h : unescape cs = some (c, rest)) :
    rest.length < cs.length := by
  unfold unescape at h
  repeat' split at h
  all_goals
    first
      | contradiction
      | (simp only [Option.some.injEq, Prod.mk.injEq] at h
         obtain ⟨_, rfl⟩ := h
         simp only [List.length_cons]
         omega)

/-- The text up to its closing quote, the characters read so far given in reverse. -/
def textBody (seen : List Char) : List Char → Option (String × List Char)
  | [] => none
  | c :: rest =>
    if c = '"' then some (String.ofList seen.reverse, rest)
    else if c = '\\' then
      match h : unescape rest with
      | none => none
      | some (d, after) =>
        have := unescape_length h
        textBody (d :: seen) after
    else if c.toNat < 0x20 then none
    else textBody (c :: seen) rest
termination_by cs => cs.length
decreasing_by
  all_goals simp only [List.length_cons]
  all_goals omega

def isDigit (c : Char) : Bool := '0' ≤ c && c ≤ '9'

/-- The number spelled by decimal digits. -/
def ofDigits (ds : List Char) : Nat :=
  ds.foldl (fun n c => n * 10 + (c.toNat - '0'.toNat)) 0

/-- The part of a number before its point: a single zero, or digits that start with another one. -/
def integerPart (cs : List Char) : Option (List Char × List Char) :=
  match cs with
  | '0' :: rest => some (['0'], rest)
  | _ =>
    match cs.takeWhile isDigit with
    | [] => none
    | ds => some (ds, cs.dropWhile isDigit)

/-- The digits after a point, if there is one. -/
def fractionPart (cs : List Char) : Option (Option (List Char) × List Char) :=
  match cs with
  | '.' :: rest =>
    match rest.takeWhile isDigit with
    | [] => none
    | ds => some (some ds, rest.dropWhile isDigit)
  | _ => some (none, cs)

def exponentDigits (negative : Bool) (cs : List Char) : Option (Option Int × List Char) :=
  match cs.takeWhile isDigit with
  | [] => none
  | ds =>
    let n : Int := ofDigits ds
    some (some (if negative then -n else n), cs.dropWhile isDigit)

/-- The power of ten behind an `e`, if there is one. -/
def exponentPart (cs : List Char) : Option (Option Int × List Char) :=
  match cs with
  | 'e' :: rest | 'E' :: rest =>
    match rest with
    | '+' :: rest => exponentDigits false rest
    | '-' :: rest => exponentDigits true rest
    | _ => exponentDigits false rest
  | _ => some (none, cs)

/-- The value of a number from its parts. -/
def numberValue (negative : Bool) (whole : List Char) (fraction : Option (List Char))
    (exponent : Option Int) : Option Json :=
  let asDouble :=
    let ds := whole ++ fraction.getD []
    let scale : Int := exponent.getD 0 - (fraction.getD []).length
    (Decimal.toDouble? negative ⟨ofDigits ds, scale⟩).map Json.double
  match fraction, exponent with
  | none, none =>
    let n := ofDigits whole
    if negative then
      if n = 0 then some (.double .negativeZero)
      else if n ≤ 0x8000000000000000 then some (.integer (-n))
      else asDouble
    else if n < 0x10000000000000000 then some (.integer n)
    else asDouble
  | _, _ => asDouble

def unsigned (negative : Bool) (cs : List Char) : Option (Json × List Char) := do
  let (whole, cs) ← integerPart cs
  let (fraction, cs) ← fractionPart cs
  let (exponent, cs) ← exponentPart cs
  let v ← numberValue negative whole fraction exponent
  return (v, cs)

def number : List Char → Option (Json × List Char)
  | '-' :: rest => unsigned true rest
  | cs => unsigned false cs

mutual

/-- A value at the front of the text. `depth` more arrays and objects may be opened. -/
def value : Nat → Nat → List Char → Option (Json × List Char)
  | 0, _, _ => none
  | fuel + 1, depth, cs =>
    match cs with
    | 'n' :: 'u' :: 'l' :: 'l' :: rest => some (.null, rest)
    | 't' :: 'r' :: 'u' :: 'e' :: rest => some (.bool true, rest)
    | 'f' :: 'a' :: 'l' :: 's' :: 'e' :: rest => some (.bool false, rest)
    | '"' :: rest => (textBody [] rest).map fun (s, rest) => (.text s, rest)
    | '[' :: rest =>
      match depth with
      | 0 => none
      | depth + 1 =>
        match skipBlanks rest with
        | ']' :: rest => some (.array [], rest)
        | rest => items fuel depth [] rest
    | '\x7b' :: rest =>
      match depth with
      | 0 => none
      | depth + 1 =>
        match skipBlanks rest with
        | '\x7d' :: rest => some (.object [], rest)
        | rest => members fuel depth [] rest
    | _ => number cs

/-- The items of an array up to its bracket, those read so far given in reverse. -/
def items : Nat → Nat → List Json → List Char → Option (Json × List Char)
  | 0, _, _, _ => none
  | fuel + 1, depth, seen, cs =>
    match value fuel depth cs with
    | none => none
    | some (v, rest) =>
      match skipBlanks rest with
      | ',' :: rest => items fuel depth (v :: seen) (skipBlanks rest)
      | ']' :: rest => some (.array (v :: seen).reverse, rest)
      | _ => none

/-- The members of an object up to its brace, inserted one after the other. -/
def members : Nat → Nat → List (String × Json) → List Char → Option (Json × List Char)
  | 0, _, _, _ => none
  | fuel + 1, depth, seen, cs =>
    match cs with
    | '"' :: rest =>
      match textBody [] rest with
      | none => none
      | some (name, rest) =>
        match skipBlanks rest with
        | ':' :: rest =>
          match value fuel depth (skipBlanks rest) with
          | none => none
          | some (v, rest) =>
            match skipBlanks rest with
            | ',' :: rest => members fuel depth (Fields.insert name v seen) (skipBlanks rest)
            | '\x7d' :: rest => some (.object (Fields.insert name v seen), rest)
            | _ => none
        | _ => none
    | _ => none

end

/-- The value of a whole text. Every other call reads a character, which pays the fuel. -/
def parse (cs : List Char) : Option Json :=
  match value (2 * cs.length + 2) maxNesting (skipBlanks cs) with
  | some (v, rest) => if (skipBlanks rest).isEmpty then some v else none
  | none => none

def decode (bytes : List UInt8) : Option Json :=
  match Utf8.decode bytes with
  | .ok s => parse s.toList
  | .error _ => none

end TopicBus.Json
