import TopicBus.Json.Value
import TopicBus.Text.Utf8
import TopicBus.Wire.Limits

/-!
What can go wrong, by how the caller is expected to react: a lost connection is worth a reconnect, a
frame that cannot be decoded is dropped alone, a violation of the protocol drops the stream, and the
rest is handed on. Every cause is a constructor; `message` holds all the wording.
-/

namespace TopicBus

/-- The kinds of failure that an operating system reports. -/
inductive IoKind where
  | notFound | permissionDenied | connectionRefused | connectionReset | hostUnreachable
  | networkUnreachable | connectionAborted | notConnected | addrInUse | addrNotAvailable
  | networkDown | brokenPipe | alreadyExists | wouldBlock | notADirectory | isADirectory
  | directoryNotEmpty | readOnlyFilesystem | staleNetworkFileHandle | invalidInput | invalidData
  | timedOut | writeZero | storageFull | notSeekable | quotaExceeded | fileTooLarge | resourceBusy
  | executableFileBusy | deadlock | crossesDevices | tooManyLinks | invalidFilename
  | argumentListTooLong | interrupted | unsupported | unexpectedEof | outOfMemory | other
  deriving DecidableEq, Repr

/-- Whether a failure of this kind means that the stream is gone. -/
def IoKind.losesConnection : IoKind → Bool
  | .brokenPipe | .notConnected | .connectionReset | .connectionAborted | .connectionRefused
  | .unexpectedEof => true
  | _ => false

/-- A failure of a stream or a file. `text` is absent where the system words it. -/
structure IoFault where
  kind : IoKind
  text : Option String
  deriving DecidableEq, Repr

/-- A failure in the system's own words. -/
def IoFault.system (kind : IoKind) : IoFault := ⟨kind, none⟩

def IoFault.message (why : IoFault) : String := why.text.getD "system failure"

/-- Why an argument is refused. -/
inductive Misuse where
  | emptyTopic (what : String)
  | longTopic (what : String) (size : Nat)
  | requestWithoutReplyTopic
  | payloadLengthMismatch (announced size : Nat)
  | payloadOverLimit (size limit : Nat)
  | notAnArray (field : String) (found : Json.Kind)
  | notAMap (found : Json.Kind)
  | compoundName
  | missingPort (address : String)
  | missingHost (address : String)
  | invalidPort (address : String)
  | relativePath (address : String)
  | unknownScheme (address : String)
  | noListenAddress
  | invalidAppName (name : String)
  | noSendTopic
  | noReplyTopic (topic : String)
  | negativeRouteId (id : Int)
  | unknownClient (id : Nat)
  deriving DecidableEq, Repr

/-- Why bytes are no frame, no document or no control message. -/
inductive Malformed where
  | json
  | shape
  | notADocument (found : Json.Kind)
  | shortHeader (size : Nat)
  | unsupportedVersion (version : Nat)
  | headerLengthMismatch (announced size : Nat)
  | truncatedLength (what : String)
  | lengthOverLimit (what : String) (size : Nat)
  | truncated (what : String)
  | notUtf8 (what : String) (defect : Utf8.Defect)
  | trailingBytes (size : Nat)
  | requestWithoutReplyTopic
  | controlWithout (field : String)
  | subscribeWithoutRouteId
  deriving DecidableEq, Repr

/-- Why a stream of frames cannot be followed any further. -/
inductive Violation where
  | headerLength (announced : Nat)
  | payloadLength (announced limit : Nat)
  | payloadWithoutHeader
  deriving DecidableEq, Repr

/-- Which supply is used up. -/
inductive Shortage where
  | routes (capacity : Nat)
  | clientSlots (connected : Nat)
  | subscriptions (capacity : Nat)
  | subscriptionIds
  deriving DecidableEq, Repr

inductive Fault where
  | invalidArgument (why : Misuse)
  | connectionLost (why : IoFault)
  | timeout
  | decode (why : Malformed)
  | protocol (why : Violation)
  | exhausted (why : Shortage)
  | alreadyRunning (path : String)
  | settings
  | io (why : IoFault)
  deriving DecidableEq, Repr

def Misuse.message : Misuse → String
  | .emptyTopic what => s!"{what} must not be empty"
  | .longTopic what size => s!"{what} is {size} bytes, limit is {Wire.maxTopicSize}"
  | .requestWithoutReplyTopic => "request frame without a reply topic"
  | .payloadLengthMismatch announced size =>
    s!"payload_length {announced} does not match {size} payload bytes"
  | .payloadOverLimit size limit => s!"payload of {size} bytes exceeds {limit}"
  | .notAnArray field found => s!"field '{field}' holds {found.describe}, not an array"
  | .notAMap found => s!"expected a struct or map, found {found.describe}"
  | .compoundName => "a name must be a string"
  | .missingPort address => s!"address '{address}' is missing a port"
  | .missingHost address => s!"address '{address}' is missing a host"
  | .invalidPort address => s!"address '{address}' has an invalid port"
  | .relativePath address => s!"address '{address}' needs an absolute socket path"
  | .unknownScheme address => s!"address '{address}' must start with tcp:// or unix://"
  | .noListenAddress => "no listen address given"
  | .invalidAppName name => s!"invalid application name '{name}'"
  | .noSendTopic => "document has no send topic"
  | .noReplyTopic topic => s!"message on '{topic}' has no reply topic"
  | .negativeRouteId id => s!"negative route_id {id}"
  | .unknownClient id => s!"unknown client {id}"

def Malformed.message : Malformed → String
  | .json => "malformed JSON"
  | .shape => "unexpected shape"
  | .notADocument found => s!"expected a document, found {found.describe}"
  | .shortHeader size =>
    s!"header of {size} bytes is shorter than the minimum {Wire.minHeaderSize}"
  | .unsupportedVersion version => s!"unsupported protocol version {version}"
  | .headerLengthMismatch announced size =>
    s!"header_length {announced} does not match {size} header bytes"
  | .truncatedLength what => s!"truncated {what} length"
  | .lengthOverLimit what size => s!"{what} length {size} exceeds {Wire.maxTopicSize}"
  | .truncated what => s!"truncated {what}"
  | .notUtf8 what defect => s!"{what} is not UTF-8: {defect.message}"
  | .trailingBytes size => s!"{size} trailing bytes after reply topic"
  | .requestWithoutReplyTopic => "request frame without a reply topic"
  | .controlWithout field => s!"control message without '{field}'"
  | .subscribeWithoutRouteId => "SUBSCRIBE without route_id"

def Violation.message : Violation → String
  | .headerLength announced =>
    s!"header_length {announced} outside {Wire.minHeaderSize}..={Wire.maxHeaderSize}"
  | .payloadLength announced limit => s!"payload_length {announced} exceeds {limit}"
  | .payloadWithoutHeader => "payload without a header"

def Shortage.message : Shortage → String
  | .routes capacity => s!"route table full ({capacity} routes)"
  | .clientSlots connected => s!"no free client slots ({connected} connected)"
  | .subscriptions capacity => s!"subscription table full ({capacity} entries)"
  | .subscriptionIds => "subscription ids exhausted"

namespace Fault

/-- A failure of the system, sorted by whether it loses the connection. -/
def ofIo (why : IoFault) : Fault :=
  if why.kind.losesConnection then .connectionLost why else .io why

def isReconnectable : Fault → Bool
  | .connectionLost _ => true
  | _ => false

/-- The words of a stream that is not there. -/
def notConnected (text : String) : Fault := .connectionLost ⟨.notConnected, some text⟩

/-- A stream that ended `missing` bytes before the end of a frame. -/
def endedInFrame (missing : Nat) : Fault :=
  .connectionLost ⟨.unexpectedEof, some s!"stream closed with {missing} bytes of a frame missing"⟩

/-- How the message of a fault begins. -/
def heading : Fault → String
  | .invalidArgument _ => "invalid argument: "
  | .connectionLost _ => "connection lost: "
  | .decode _ => "decode failure: "
  | .protocol _ => "protocol violation: "
  | .exhausted _ => "resource exhausted: "
  | .timeout | .alreadyRunning _ | .settings | .io _ => ""

def detail : Fault → String
  | .invalidArgument why => why.message
  | .connectionLost why => why.message
  | .timeout => "operation timed out"
  | .decode why => why.message
  | .protocol why => why.message
  | .exhausted why => why.message
  | .alreadyRunning path => s!"another instance is already running (lock held on {path})"
  | .settings => "configuration error"
  | .io why => why.message

def message (why : Fault) : String := why.heading ++ why.detail

/-- Whether the message is worded here, and not by the system or by a reader of foreign text. -/
def hasOwnWording : Fault → Bool
  | .decode .json | .decode .shape | .settings | .invalidArgument .compoundName => false
  | .connectionLost why | .io why => why.text.isSome
  | _ => true

end Fault

end TopicBus
