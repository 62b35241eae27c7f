import TopicBus.Decimal.Nearest
import TopicBus.Decimal.Notation
import TopicBus.Json.Value

/-!
Settings before they have types, as files and environment give them. A number or a truth value may
be spelled as a text and the other way round; what cannot be converted is refused.
-/

namespace TopicBus

inductive Setting where
  | absent
  | bool (value : Bool)
  | integer (value : Int)
  | double (value : Double)
  | text (value : String)
  | list (items : List Setting)
  | table (fields : List (String × Setting))
  deriving Repr, Inhabited

namespace Setting

mutual

/-- Integers beyond the signed 64-bit ones become doubles. -/
def ofJson : Json → Setting
  | .null => .absent
  | .bool b => .bool b
  | .integer n => if n < 0x8000000000000000 then .integer n else .double (.ofInt n)
  | .double x => .double x
  | .text s => .text s
  | .array vs => .list (ofItems vs)
  | .object fs => .table (ofFields fs)

def ofItems : List Json → List Setting
  | [] => []
  | v :: vs => ofJson v :: ofItems vs

def ofFields : List (String × Json) → List (String × Setting)
  | [] => []
  | (n, v) :: fs => (n, ofJson v) :: ofFields fs

end

/-! ## Conversions -/

def lower (s : String) : String := s.map Char.toLower

def truth? (s : String) : Option Bool :=
  let word := lower s
  if word ∈ ["true", "on", "yes"] then some true
  else if word ∈ ["false", "off", "no"] then some false
  else none

def toBool? : Setting → Option Bool
  | .bool b => some b
  | .integer n => some (n != 0)
  | .double x => some (x.rank != 0)
  | .text s => if s = "1" then some true else if s = "0" then some false else truth? s
  | _ => none

/-- The number spelled by decimal digits, behind a plus sign or not. -/
def natural? (s : String) : Option Nat :=
  let digits := match s.toList with
    | '+' :: rest => rest
    | cs => cs
  if !digits.isEmpty && digits.all Char.isDigit then
    some (digits.foldl (fun n c => n * 10 + (c.toNat - '0'.toNat)) 0)
  else none

/-- The largest count that a setting can hold. -/
def maxCount : Nat := 0xFFFFFFFFFFFFFFFF

/-- A count up to `limit`. A fraction is rounded, and kept within the counts. -/
def toCount? (limit : Nat) (s : Setting) : Option Nat :=
  let within (n : Nat) : Option Nat := if n ≤ limit then some n else none
  match s with
  | .bool b => within b.toNat
  | .integer n => if n < 0 then none else within n.toNat
  | .double x => within (min x.round.toNat maxCount)
  | .text s =>
    match truth? s with
    | some b => within b.toNat
    | none => (natural? s).bind within
  | _ => none

def toText? : Setting → Option String
  | .text s => some s
  | .bool b => some (if b then "true" else "false")
  | .integer n =>
    some (String.ofList (if n < 0 then '-' :: Decimal.digitChars n.natAbs
      else Decimal.digitChars n.natAbs))
  | .double x => some x.plainText
  | _ => none

def toTexts? : Setting → Option (List String)
  | .list items => items.mapM toText?
  | _ => none

/-! ## Tables -/

def fields : Setting → List (String × Setting)
  | .table fs => fs
  | _ => []

/-- Puts a value into a list of fields, in the place of another of its name. -/
def putField (name : String) (value : Setting) : List (String × Setting) → List (String × Setting)
  | [] => [(name, value)]
  | (n, v) :: rest => if n = name then (n, value) :: rest else (n, v) :: putField name value rest

mutual

/-- Puts a value under a name. A table goes into the one that is there, field by field; what is no
table gives way. -/
def merge (target : Setting) (name : String) : Setting → Setting
  | .table incoming =>
    let child := (target.fields.lookup name).getD (.table [])
    .table (putField name (mergeFields (.table child.fields) incoming) target.fields)
  | value => .table (putField name value target.fields)

def mergeFields (target : Setting) : List (String × Setting) → Setting
  | [] => target
  | (name, value) :: rest => mergeFields (target.merge name value) rest

end

/-- Puts a value where a path of names leads. -/
def mergeAt (target : Setting) (value : Setting) : List String → Setting
  | [] => target
  | [name] => target.merge name value
  | name :: rest =>
    let child := (target.fields.lookup name).getD (.table [])
    .table (putField name (child.mergeAt value rest) target.fields)

def isNameChar (c : Char) : Bool := c.isAlphanum || c = '_' || c = '-'

def splitAtDots : List Char → List (List Char)
  | [] => [[]]
  | '.' :: rest => [] :: splitAtDots rest
  | c :: rest =>
    match splitAtDots rest with
    | [] => [[c]]
    | part :: parts => (c :: part) :: parts

/-- The path that a key spells: names with dots between them, or else the key itself. -/
def pathOf (key : String) : List String :=
  let parts := splitAtDots key.toList
  if parts.all fun part => !part.isEmpty && part.all isNameChar then parts.map String.ofList
  else [key]

/-- Lays the fields of a table over another, each at the path that its name spells. -/
def overlay (target : Setting) (entries : List (String × Setting)) : Setting :=
  entries.foldl (fun t entry => t.mergeAt entry.2 (pathOf entry.1)) target

end Setting

end TopicBus
