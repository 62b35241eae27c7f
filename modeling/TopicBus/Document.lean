import TopicBus.Fault
import TopicBus.Json.Parser
import TopicBus.Json.Printer

/-!
Documents: the structured payload of a message, a map from names to JSON values in the order of the
names. Every operation touches one name; readers answer only for a value of their own type.
-/

namespace TopicBus

structure Document where
  fields : List (String × Json)
  deriving Repr, Inhabited

namespace Document

def empty : Document := ⟨[]⟩

def find? (d : Document) (name : String) : Option Json := Fields.find? name d.fields

def set (d : Document) (name : String) (value : Json) : Document :=
  ⟨Fields.insert name value d.fields⟩

def contains (d : Document) (name : String) : Bool := (d.find? name).isSome

def size (d : Document) : Nat := d.fields.length

def isEmpty (d : Document) : Bool := d.fields.isEmpty

def names (d : Document) : List String := d.fields.map Prod.fst

def remove (d : Document) (name : String) : Document := ⟨Fields.erase name d.fields⟩

/-! ## Typed fields -/

def setString (d : Document) (name value : String) : Document := d.set name (.text value)

def setInt32 (d : Document) (name : String) (value : Int32) : Document :=
  d.set name (.integer value.toInt)

def setDouble (d : Document) (name : String) (value : Double) : Document :=
  d.set name (.ofDouble value)

def setDocument (d : Document) (name : String) (value : Document) : Document :=
  d.set name (.object value.fields)

def getString? (d : Document) (name : String) : Option String :=
  match d.find? name with
  | some (.text s) => some s
  | _ => none

/-- The 32-bit integers are those from -2^31 to 2^31 - 1. -/
def int32? (n : Int) : Option Int32 :=
  if -0x80000000 ≤ n ∧ n < 0x80000000 then some (Int32.ofInt n) else none

def getInt32? (d : Document) (name : String) : Option Int32 :=
  match d.find? name with
  | some (.integer n) => int32? n
  | _ => none

/-- The number under `name`; an integer is converted to the nearest double. -/
def getDouble? (d : Document) (name : String) : Option Double :=
  match d.find? name with
  | some (.double x) => some x
  | some (.integer n) => some (.ofInt n)
  | _ => none

def getDocument? (d : Document) (name : String) : Option Document :=
  match d.find? name with
  | some (.object fields) => some ⟨fields⟩
  | _ => none

/-! ## Arrays -/

/-- Adds a value at the end of the array under `name`, which is created where nothing is there. -/
def append (d : Document) (name : String) (value : Json) : Except Fault Document :=
  match d.find? name with
  | none => .ok (d.set name (.array [value]))
  | some (.array items) => .ok (d.set name (.array (items ++ [value])))
  | some other => .error (.invalidArgument (.notAnArray name other.kind))

def appendString (d : Document) (name value : String) : Except Fault Document :=
  d.append name (.text value)

def appendDocument (d : Document) (name : String) (value : Document) : Except Fault Document :=
  d.append name (.object value.fields)

def getArray? (d : Document) (name : String) : Option (List Json) :=
  match d.find? name with
  | some (.array items) => some items
  | _ => none

def arrayLength? (d : Document) (name : String) : Option Nat := (d.getArray? name).map List.length

def item? (d : Document) (name : String) (index : Nat) : Option Json :=
  (d.getArray? name).bind fun items => items[index]?

def stringItem? (d : Document) (name : String) (index : Nat) : Option String :=
  match d.item? name index with
  | some (.text s) => some s
  | _ => none

def documentItem? (d : Document) (name : String) (index : Nat) : Option Document :=
  match d.item? name index with
  | some (.object fields) => some ⟨fields⟩
  | _ => none

/-! ## The send topic -/

/-- The field that says where a document is to be sent. -/
def sendTopicField : String := "_topic"

def setSendTopic (d : Document) (topic : String) : Document := d.setString sendTopicField topic

def sendTopic? (d : Document) : Option String := d.getString? sendTopicField

/-! ## Text and bytes -/

def toJson (d : Document) : Json := .object d.fields

def text (d : Document) : String := d.toJson.print

def encode (d : Document) : List UInt8 := Utf8.encode d.text

def decode (bytes : List UInt8) : Except Fault Document :=
  match Json.decode bytes with
  | none => .error (.decode .json)
  | some (.object fields) => .ok ⟨fields⟩
  | some other => .error (.decode (.notADocument other.kind))

/-- The document that a value stands for; only objects do. -/
def ofJson : Json → Except Fault Document
  | .object fields => .ok ⟨fields⟩
  | other => .error (.invalidArgument (.notAMap other.kind))

def equal (d e : Document) : Bool := Json.equalFields d.fields e.fields

end Document

end TopicBus
