import TopicBus.Address
import TopicBus.Control
import TopicBus.Settings
import TopicBus.Subscription
import TopicBus.Wire.Reader

/-!
The state of an application's connection to a bus, and its reading side. Frames that arrive answer
the waiting request or are put aside for `dispatch`; what comes from a stream that has been replaced
meanwhile is told apart by its generation. What a connection does is in `Connection.Operation`.
-/

namespace TopicBus

abbrev StreamId := Nat

/-- What the reading side has put aside. -/
inductive Inbound where
  | frame (f : Frame)
  /-- The stream of a generation ended, cleanly if no fault is named. -/
  | closed (generation : Nat) (why : Option Fault)
  deriving Repr

/-- The place where the response to a request is left. -/
inductive ResponseSlot where
  | empty
  | waiting
  | answered (f : Frame)
  deriving DecidableEq, Repr

/-- The stream that a connection uses. -/
structure Attachment where
  stream : StreamId
  reader : Reader
  /-- Whether the end of the stream is still to come. -/
  isReading : Bool
  deriving Repr

structure Connection where
  appName : String
  address : Address
  settings : ClientSettings
  /-- The private topic of this connection. -/
  inbox : String
  attached : Option Attachment
  localEndpoint : String
  remoteEndpoint : String
  nextSequence : UInt32
  subscriptions : SubscriptionTable
  slot : ResponseSlot
  inbound : List Inbound
  /-- How many streams have been attached. The count has no bound: connections that get 2^64 streams
  are outside of the model. -/
  generation : Nat
  isClosed : Bool
  deriving Repr

namespace Connection

/-- Application names are single segments of a topic. -/
def isAppName (name : String) : Bool :=
  !name.isEmpty && name.toList.all fun c => c != '.' && c != '*' && c != '>'

def inboxOf (appName inboxId : String) : String := s!"{appName}.INBOX.{inboxId}"

/-- A connection that has no stream yet. `inboxId` tells its inbox from all others. -/
def create (appName : String) (settings : ClientSettings) (inboxId : String) :
    Except Fault Connection := do
  if !isAppName appName then .error (.invalidArgument (.invalidAppName appName))
  let address ← Address.parse settings.address
  let inbox := inboxOf appName inboxId
  Topic.validate "inbox" inbox
  return {
    appName := appName
    address := address
    settings := settings
    inbox := inbox
    attached := none
    localEndpoint := ""
    remoteEndpoint := ""
    nextSequence := 1
    subscriptions := .ofCapacity settings.maxSubscriptions
    slot := .empty
    inbound := []
    generation := 0
    isClosed := false }

/-- Lets go of the stream. -/
def detach (c : Connection) : Connection := { c with attached := none }

/-! ## The reading side -/

/-- Whether a frame is the response to a request of this connection. -/
def isAnswer (f : Frame) : Bool :=
  f.header.isResponse && f.header.control == Control.inboxSubscription

/-- A response goes to the waiting request, and is dropped if there is none; other frames are put
aside in order. -/
def accept (c : Connection) (f : Frame) : Connection :=
  if isAnswer f then
    match c.slot with
    | .waiting => { c with slot := .answered f }
    | _ => c
  else { c with inbound := c.inbound ++ [.frame f] }

def endReading (c : Connection) (why : Option Fault) : Connection :=
  { c with
    attached := c.attached.map fun a => { a with isReading := false }
    inbound := c.inbound ++ [.closed c.generation why] }

/-- Takes in one result of the decoder. A frame that cannot be decoded is dropped. -/
def acceptResult (c : Connection) : Decoded → Connection
  | .more | .fault (.decode _) => c
  | .frame f => c.accept f
  | .fault why => c.endReading (some why)

/-- Takes in what a read of the attached stream gave. -/
def receive (c : Connection) (chunk : Chunk) : Connection :=
  match c.attached with
  | none => c
  | some a =>
    if !a.isReading then c
    else match chunk with
      | .failure why => c.endReading (some (.ofIo why))
      | .bytes [] =>
        match a.reader.finish with
        | .fault why => c.endReading (some why)
        | _ => c.endReading none
      | .bytes bytes =>
        let (reader, results) := a.reader.feed bytes
        results.foldl acceptResult { c with attached := some { a with reader := reader } }

end Connection

end TopicBus
