import TopicBus.Connection

/-!
An operation of a connection in progress. It says what it waits for, and until when; whoever runs it
answers with a reply.
-/

namespace TopicBus

/-- A frame on its way out. -/
structure Sending where
  bytes : List UInt8
  /-- Which attempt this is, from 1. -/
  attempt : Nat
  deriving Repr

/-- Why a frame is sent. -/
inductive Cause where
  | publish
  | subscribe (id : UInt32)
  | request (deadline : Nat)
  deriving DecidableEq, Repr

/-- What is to be done with a stream once it is there. -/
inductive Goal where
  | opening
  | resend (sending : Sending) (cause : Cause)
  | dispatch (deadline : Option Nat)
  deriving Repr

/-- A stream on which the connection introduces itself. -/
structure Greeting where
  stream : StreamId
  localEndpoint : String
  remoteEndpoint : String
  /-- The message being written. -/
  bytes : List UInt8
  /-- The subscriptions that are still to be replayed. -/
  rest : List (UInt32 × String)
  deriving Repr

/-- How far a connection is on the way to a stream. -/
inductive Stage where
  | connecting (attempt : Nat)
  | pausing (wake attempt : Nat)
  | greeting (g : Greeting)
  deriving Repr

inductive Activity where
  | establishing (stage : Stage) (goal : Goal)
  | writing (stream : StreamId) (sending : Sending) (cause : Cause)
  | awaitingResponse (deadline : Nat)
  | awaitingEvent (deadline : Option Nat)
  | shuttingDown (stream : StreamId)
  deriving Repr

/-- What an activity waits for. -/
inductive Demand where
  | connect
  | pause (wake : Nat)
  | write (stream : StreamId) (bytes : List UInt8)
  | response
  | event
  | shutdown (stream : StreamId)
  deriving Repr

inductive Reply where
  | connected (stream : StreamId) (localEndpoint remoteEndpoint : String)
  | refused (why : IoFault)
  /-- The pause is over. -/
  | rested
  /-- A write or a shutdown is done. -/
  | written
  | writeFailed (why : IoFault)
  /-- There is a response, or an event. -/
  | woken
  deriving Repr

/-- What an operation gives in the end. -/
inductive Outcome where
  | done
  | subscribed (id : UInt32)
  | responded (d : Document)
  /-- A frame was taken; it may have been for nobody. -/
  | dispatched (delivery : Option Delivery)
  | failed (why : Fault)
  deriving Repr

inductive Progress where
  | waiting (a : Activity)
  | finished (o : Outcome)
  deriving Repr

namespace Activity

def demand : Activity → Demand
  | .establishing (.connecting _) _ => .connect
  | .establishing (.pausing wake _) _ => .pause wake
  | .establishing (.greeting g) _ => .write g.stream g.bytes
  | .writing stream sending _ => .write stream sending.bytes
  | .awaitingResponse _ => .response
  | .awaitingEvent _ => .event
  | .shuttingDown stream => .shutdown stream

/-- When the operation gives up. -/
def deadline? : Activity → Option Nat
  | .establishing _ (.resend _ (.request deadline)) | .writing _ _ (.request deadline)
  | .awaitingResponse deadline => some deadline
  | .establishing _ (.dispatch deadline) | .awaitingEvent deadline => deadline
  | _ => none

/-- The stream that only the activity holds. -/
def held? : Activity → Option StreamId
  | .establishing (.greeting g) _ => some g.stream
  | .shuttingDown stream => some stream
  | _ => none

/-- When time alone lets the activity go on. -/
def timer? (a : Activity) : Option Nat :=
  match a.demand, a.deadline? with
  | .pause wake, some deadline => some (min wake deadline)
  | .pause wake, none => some wake
  | _, deadline => deadline

end Activity

/-- The streams held by a connection and what it is doing; any other may be closed. -/
def Connection.held (c : Connection) (a : Option Activity) : List StreamId :=
  (c.attached.map Attachment.stream).toList ++ (a.bind Activity.held?).toList

end TopicBus
