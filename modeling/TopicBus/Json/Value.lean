import TopicBus.Decimal.Double

/-!
JSON values. The fields of an object are a list of names and values; `Fields` keeps such a list in
the order of its names, one entry per name.
-/

namespace TopicBus

inductive Json where
  | null
  | bool (value : Bool)
  | integer (value : Int)
  | double (value : Double)
  | text (value : String)
  | array (items : List Json)
  | object (fields : List (String × Json))
  deriving Repr, Inhabited

namespace Json

inductive Kind where
  | null
  | boolean
  | number
  | string
  | array
  | document
  deriving DecidableEq, Repr

def Kind.describe : Kind → String
  | .null => "null"
  | .boolean => "a boolean"
  | .number => "a number"
  | .string => "a string"
  | .array => "an array"
  | .document => "a document"

def kind : Json → Kind
  | .null => .null
  | .bool _ => .boolean
  | .integer _ | .double _ => .number
  | .text _ => .string
  | .array _ => .array
  | .object _ => .document

/-- A double as a value; JSON has no infinities and no NaN, so they become null. -/
def ofDouble (x : Double) : Json := if x.isFinite then .double x else .null

mutual

/-- Equality of values. An integer equals no double, and the two zeros are equal. -/
def equal : Json → Json → Bool
  | .null, .null => true
  | .bool a, .bool b => a == b
  | .integer a, .integer b => a == b
  | .double a, .double b => a.equal b
  | .text a, .text b => a == b
  | .array as, .array bs => equalItems as bs
  | .object as, .object bs => equalFields as bs
  | _, _ => false

def equalItems : List Json → List Json → Bool
  | [], [] => true
  | a :: as, b :: bs => equal a b && equalItems as bs
  | _, _ => false

def equalFields : List (String × Json) → List (String × Json) → Bool
  | [], [] => true
  | (n, a) :: as, (m, b) :: bs => n == m && equal a b && equalFields as bs
  | _, _ => false

end

end Json

namespace Fields

variable {α : Type}

def find? (name : String) : List (String × α) → Option α
  | [] => none
  | (n, v) :: rest => if n = name then some v else find? name rest

/-- Puts `value` under `name`: in the place of the name's entry, or before the first larger name. -/
def insert (name : String) (value : α) : List (String × α) → List (String × α)
  | [] => [(name, value)]
  | (n, v) :: rest =>
    if name < n then (name, value) :: (n, v) :: rest
    else if n = name then (name, value) :: rest
    else (n, v) :: insert name value rest

def erase (name : String) (fields : List (String × α)) : List (String × α) :=
  fields.filter fun field => field.1 ≠ name

/-- The entries from left to right, a later one replacing an earlier one of its name. -/
def ofList (entries : List (String × α)) : List (String × α) :=
  entries.foldl (fun fields entry => insert entry.1 entry.2 fields) []

end Fields

end TopicBus
