import TopicBus.Document

/-!
Typed values in and out of documents. A schema says what a value must look like to be read as a
typed one; reading a record leaves out what the record does not name and puts its fields in the
record's own order. In the other direction a map may only have names that are texts or integers.
-/

namespace TopicBus

inductive Schema where
  | string
  | int32
  | anything
  | list (item : Schema)
  | map (value : Schema)
  | record (fields : List (String × Schema))
  deriving Repr

namespace Schema

mutual

/-- The typed value that a JSON value stands for. A record may also be given as the array of its
fields in order. -/
def read : Schema → Json → Option Json
  | .string, .text s => some (.text s)
  | .int32, .integer n => (Document.int32? n).map fun _ => .integer n
  | .anything, v => some v
  | .list item, .array vs => (vs.mapM (read item)).map .array
  | .map value, .object fs =>
    (fs.mapM fun field => (read value field.2).map (field.1, ·)).map .object
  | .record fields, .object fs => (readFields fields fs).map .object
  | .record fields, .array vs => (readItems fields vs).map .object
  | _, _ => none

def readFields : List (String × Schema) → List (String × Json) → Option (List (String × Json))
  | [], _ => some []
  | (n, s) :: rest, fs =>
    match Fields.find? n fs with
    | none => none
    | some v =>
      match read s v, readFields rest fs with
      | some v, some more => some ((n, v) :: more)
      | _, _ => none

def readItems : List (String × Schema) → List Json → Option (List (String × Json))
  | [], [] => some []
  | (n, s) :: rest, v :: vs =>
    match read s v, readItems rest vs with
    | some v, some more => some ((n, v) :: more)
    | _, _ => none
  | _, _ => none

end

end Schema

/-- Reads a document as a value of a schema. -/
def Document.readAs (d : Document) (s : Schema) : Except Fault Json :=
  match s.read d.toJson with
  | some v => .ok v
  | none => .error (.decode .shape)

/-- The name of a map entry, as a typed map has it. -/
inductive MapKey where
  | text (name : String)
  | integer (value : Int)
  | compound
  deriving DecidableEq, Repr

def MapKey.name? : MapKey → Option String
  | .text name => some name
  | .integer value => some (String.ofList (Json.writeInteger value []))
  | .compound => none

/-- The value of a typed map. -/
def Json.ofMap (entries : List (MapKey × Json)) : Except Fault Json :=
  match entries.mapM fun entry => entry.1.name?.map (·, entry.2) with
  | some fields => .ok (.object (Fields.ofList fields))
  | none => .error (.invalidArgument .compoundName)

end TopicBus
