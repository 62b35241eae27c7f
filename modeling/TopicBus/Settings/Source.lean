import TopicBus.Disk
import TopicBus.Fault
import TopicBus.Settings
import TopicBus.Settings.Toml

/-!
Where settings come from. The environment goes before the file, and the file before the defaults. A
file that is not there is no fault, one that cannot be read as what its name says is; so is a value
that cannot be converted, while names that mean nothing are passed over.
-/

namespace TopicBus

/-! ## The environment -/

namespace Setting

/-- A whole number of 64 bits with or without a sign. -/
def wholeNumber? (s : String) : Option Int :=
  let (negative, ds) := Toml.signed s.toList
  if !ds.isEmpty && ds.all Char.isDigit then
    let n : Int := Json.ofDigits ds
    let n := if negative then -n else n
    if -0x8000000000000000 ≤ n ∧ n < 0x8000000000000000 then some n else none
  else none

/-- A decimal number with a fraction, an exponent, both or none, or one of the words for what is not
finite. -/
def decimalNumber? (s : String) : Option Double :=
  let (negative, cs) := Toml.signed s.toList
  let word := cs.map Char.toLower
  if word = "inf".toList ∨ word = "infinity".toList then some (.infinity negative)
  else if word = "nan".toList then some .nan
  else
    let mantissa := cs.takeWhile fun c => c != 'e' && c != 'E'
    let (powerNegative, power) := Toml.signed (cs.drop (mantissa.length + 1))
    let left := mantissa.takeWhile (· != '.')
    let right := mantissa.drop (left.length + 1)
    let isNumber := left.all Char.isDigit && right.all Char.isDigit &&
      !(left.isEmpty && right.isEmpty) &&
      (mantissa.length = cs.length || (!power.isEmpty && power.all Char.isDigit))
    if isNumber then
      let n : Int := Json.ofDigits power
      let exponent : Int := if powerNegative then -n else n
      let d : Decimal := ⟨Json.ofDigits (left ++ right), exponent - right.length⟩
      some ((d.toDouble? negative).getD (.infinity negative))
    else none

def splitAtCommas : List Char → List (List Char)
  | [] => [[]]
  | ',' :: rest => [] :: splitAtCommas rest
  | c :: rest =>
    match splitAtCommas rest with
    | [] => [[c]]
    | part :: parts => (c :: part) :: parts

/-- The one key whose value is a list with commas. -/
def listKey : String := "server.listen"

/-- The value of an environment variable, as what it looks like. -/
def ofVariable (key value : String) : Setting :=
  let word := lower value
  if word = "true" then .bool true
  else if word = "false" then .bool false
  else match wholeNumber? value with
    | some n => .integer n
    | none =>
      match decimalNumber? value with
      | some x => .double x
      | none =>
        if key = listKey then
          .list ((splitAtCommas value.toList).map fun part => .text (String.ofList part))
        else .text value

/-- What the names of all variables start with, in any case. -/
def variablePrefix : List Char := "popbus__".toList

/-- Two underscores stand for a dot. -/
def dotted : List Char → List Char
  | '_' :: '_' :: rest => '.' :: dotted rest
  | c :: rest => c :: dotted rest
  | [] => []

/-- The key that the name of a variable stands for. -/
def keyOfVariable? (name : String) : Option String :=
  let name := (lower name).toList
  if name.take variablePrefix.length = variablePrefix then
    some (String.ofList (dotted (name.drop variablePrefix.length)))
  else none

def ofEnvironment (environment : List (String × String)) : List (String × Setting) :=
  environment.filterMap fun v => (keyOfVariable? v.1).map fun key => (key, ofVariable key v.2)

end Setting

/-! ## The file -/

inductive FileFormat where
  | toml
  | json
  deriving DecidableEq, Repr

namespace FileFormat

def extension : FileFormat → String
  | .toml => ".toml"
  | .json => ".json"

def all : List FileFormat := [.toml, .json]

/-- The format that the name of a file tells. A name that is nothing but an extension has none. -/
def ofPath? (path : String) : Option FileFormat :=
  let name := path.toList.reverse.takeWhile (· != '/')
  all.find? fun f =>
    let ext := f.extension.toList.reverse
    name.take ext.length = ext && ext.length < name.length

def parse (f : FileFormat) (text : String) : Option (List (String × Setting)) :=
  match f with
  | .toml => Toml.parse text
  | .json =>
    match Json.parse text.toList with
    | some (.object fields) => some (Setting.ofFields fields)
    | _ => none

end FileFormat

namespace Settings

/-- The files that a path may mean. -/
def candidates (path : String) : List String :=
  path :: FileFormat.all.map fun f => path ++ f.extension

/-- The file meant by a path, which may leave out the extension. -/
def findFile (disk : Disk) (path : String) : Option (FileFormat × List UInt8) :=
  match disk.file? path with
  | some bytes => (FileFormat.ofPath? path).map (·, bytes)
  | none =>
    FileFormat.all.findSome? fun f => (disk.file? (path ++ f.extension)).map (f, ·)

/-- A mark that says how the bytes are to be read is no part of the text. -/
def dropMark : List UInt8 → List UInt8
  | 0xEF :: 0xBB :: 0xBF :: rest => rest
  | bytes => bytes

def readFile (disk : Disk) (path : String) : Except Fault (List (String × Setting)) :=
  match findFile disk path with
  | none => .ok []
  | some (f, bytes) =>
    match f.parse (Utf8.decodeLossy (dropMark bytes)) with
    | some fields => .ok fields
    | none => .error .settings

/-! ## Typed settings -/

/-- The fields of a section; one may also be given as the list of its values in order. -/
def section? (root : Setting) (name : String) (keys : List String) :
    Option (List (String × Setting)) :=
  match root.fields.lookup name with
  | none | some .absent => some []
  | some (.table fields) => some fields
  | some (.list values) => if values.length < keys.length then none else some (keys.zip values)
  | some _ => none

/-- A field, or its default where it is not given. -/
def field? {α : Type} (fields : List (String × Setting)) (name : String)
    (convert : Setting → Option α) (default : α) : Option α :=
  match fields.lookup name with
  | none | some .absent => some default
  | some v => convert v

def serverOf? (root : Setting) (base : ServerSettings) : Option ServerSettings := do
  let fields ← section? root "server" ["listen", "no_delay", "pid_file"]
  let listen ← field? fields "listen" Setting.toTexts? []
  let noDelay ← field? fields "no_delay" Setting.toBool? base.noDelay
  let lockFile ← field? fields "pid_file" Setting.toText? base.lockFile
  return ⟨if listen.isEmpty then base.listen else listen, noDelay, lockFile⟩

def brokerOf? (root : Setting) (base : BrokerSettings) : Option BrokerSettings := do
  let count := Setting.toCount? Setting.maxCount
  let fields ← section? root "broker"
    ["max_connections", "max_routes", "max_payload_length", "outbound_queue_length", "debug_route"]
  let maxClients ← field? fields "max_connections" count base.maxClients
  let maxRoutes ← field? fields "max_routes" count base.maxRoutes
  let maxPayload ← field? fields "max_payload_length" count base.maxPayload
  let outboxCapacity ← field? fields "outbound_queue_length" count base.outboxCapacity
  let logsMessages ← field? fields "debug_route" Setting.toBool? base.logsMessages
  return ⟨maxClients, maxRoutes, maxPayload, outboxCapacity, logsMessages⟩

def clientOf? (root : Setting) (base : ClientSettings) : Option ClientSettings := do
  let count := Setting.toCount? Setting.maxCount
  let small := Setting.toCount? 0xFFFFFFFF
  let fields ← section? root "client"
    ["address", "connect_attempts", "retry_delay_ms", "send_attempts", "max_subscriptions",
      "max_payload_length", "no_delay"]
  let address ← field? fields "address" Setting.toText? base.address
  let connectAttempts ← field? fields "connect_attempts" small base.connectAttempts
  let retryDelay ← field? fields "retry_delay_ms" count base.retryDelay
  let sendAttempts ← field? fields "send_attempts" small base.sendAttempts
  let maxSubscriptions ← field? fields "max_subscriptions" count base.maxSubscriptions
  let maxPayload ← field? fields "max_payload_length" count base.maxPayload
  let noDelay ← field? fields "no_delay" Setting.toBool? base.noDelay
  return ⟨address, connectAttempts, retryDelay, sendAttempts, maxSubscriptions, maxPayload, noDelay⟩

def ofSetting? (root : Setting) (base : Settings) : Option Settings := do
  let server ← serverOf? root base.server
  let broker ← brokerOf? root base.broker
  let client ← clientOf? root base.client
  return ⟨server, broker, client⟩

/-- The settings of a file and an environment. -/
def load (disk : Disk) (path : String) (environment : List (String × String)) :
    Except Fault Settings := do
  let fields ← readFile disk path
  let root := ((Setting.table []).overlay fields).overlay (Setting.ofEnvironment environment)
  match ofSetting? root {} with
  | some settings => .ok settings
  | none => .error .settings

end Settings

end TopicBus
