import TopicBus.Connection.Activity
import TopicBus.Control

/-!
What a connection can be asked to do. An operation begins, and goes on with every reply, until it is
finished; `expire` ends one whose deadline has passed. A send whose stream is gone reconnects: the
inbox is announced and every subscription replayed on the new stream before the send is tried again.
-/

namespace TopicBus

/-- An operation with what it is given. A timeout is in milliseconds, and so are the moments that
deadlines are reckoned from. None of these numbers has a bound: timeouts whose deadline no clock can
represent are outside of the model. -/
inductive Operation where
  | publish (topic : String) (d : Document)
  | publishBytes (topic : String) (payload : List UInt8)
  | send (d : Document)
  | respond (request : Header) (d : Document)
  | subscribe (expression : String)
  | request (topic : String) (d : Document) (timeout : Nat)
  | dispatch (timeout : Option Nat)
  | close
  deriving Repr

namespace Connection

/-- A frame under the next sequence number, as bytes. -/
def compose (c : Connection) (header : Header) (payload : List UInt8) :
    Connection × Except Fault (List UInt8) :=
  ({ c with nextSequence := c.nextSequence + 1 },
    (Frame.ofPayload { header with sequence := c.nextSequence } payload).encode)

/-! ## Sending -/

/-- Starts over with a new stream. -/
def establish (c : Connection) (goal : Goal) : Connection × Progress :=
  (c.detach, .waiting (.establishing (.connecting 1) goal))

/-- The end of a send that failed: a subscription that nobody heard of is dropped, and a request no
longer waits. -/
def sendFailed (c : Connection) (cause : Cause) (why : Fault) : Connection × Progress :=
  let c := match cause with
    | .publish => c
    | .subscribe id => { c with subscriptions := (c.subscriptions.remove id).1 }
    | .request _ => { c with slot := .empty }
  (c, .finished (.failed why))

def sendAttempts (c : Connection) : Nat := max c.settings.sendAttempts 1

/-- A write failed. A lost stream is worth another attempt, as long as there are some left. -/
def writeFailed (c : Connection) (s : Sending) (cause : Cause) (why : Fault) :
    Connection × Progress :=
  if why.isReconnectable && s.attempt < c.sendAttempts then
    c.establish (.resend { s with attempt := s.attempt + 1 } cause)
  else c.sendFailed cause why

def write (c : Connection) (s : Sending) (cause : Cause) : Connection × Progress :=
  match c.attached with
  | some a => (c, .waiting (.writing a.stream s cause))
  | none => c.writeFailed s cause (.notConnected "not connected")

def sendDone (c : Connection) : Cause → Connection × Progress
  | .publish => (c, .finished .done)
  | .subscribe id => (c, .finished (.subscribed id))
  | .request deadline => (c, .waiting (.awaitingResponse deadline))

def sendFrame (c : Connection) (header : Header) (payload : List UInt8) (cause : Cause) :
    Connection × Progress :=
  if c.isClosed then c.sendFailed cause (.notConnected "connection is closed")
  else if c.settings.maxPayload < payload.length then
    c.sendFailed cause (.invalidArgument (.payloadOverLimit payload.length c.settings.maxPayload))
  else
    match c.compose header payload with
    | (c, .ok bytes) => c.write ⟨bytes, 1⟩ cause
    | (c, .error why) => c.sendFailed cause why

/-! ## Dispatching -/

/-- Takes the next event. The end of a stream that is no longer attached is skipped; the end of the
attached one asks for another. -/
def dispatchFrom (c : Connection) (deadline : Option Nat) : List Inbound → Connection × Progress
  | [] => ({ c with inbound := [] }, .waiting (.awaitingEvent deadline))
  | .frame f :: rest =>
    let (subscriptions, delivery) := c.subscriptions.dispatch f
    ({ c with subscriptions := subscriptions, inbound := rest }, .finished (.dispatched delivery))
  | .closed generation _ :: rest =>
    if generation = c.generation then { c with inbound := rest }.establish (.dispatch deadline)
    else c.dispatchFrom deadline rest

/-- Takes the next event, from a new stream if there is none. The deadline is any moment: a timeout
that leads to one which no clock can represent is outside of the model. -/
def dispatchNext (c : Connection) (deadline : Option Nat) : Connection × Progress :=
  if c.isClosed then (c, .finished (.failed (.notConnected "connection is closed")))
  else if c.attached.isNone then c.establish (.dispatch deadline)
  else c.dispatchFrom deadline c.inbound

/-! ## Establishing a stream -/

def connectAttempts (c : Connection) : Nat := max c.settings.connectAttempts 1

def established (c : Connection) : Goal → Connection × Progress
  | .opening => (c, .finished .done)
  | .resend s cause => c.write s cause
  | .dispatch deadline => c.dispatchNext deadline

/-- No stream could be had. A resend counts this as one more failed write. -/
def establishFailed (c : Connection) (why : Fault) : Goal → Connection × Progress
  | .opening | .dispatch _ => (c, .finished (.failed why))
  | .resend s cause => c.write s cause

/-- A greeting is over: the stream is attached, and its reading begins. -/
def attach (c : Connection) (g : Greeting) : Connection :=
  { c with
    attached := some ⟨g.stream, .ofLimit c.settings.maxPayload, true⟩
    localEndpoint := g.localEndpoint
    remoteEndpoint := g.remoteEndpoint
    generation := c.generation + 1 }

/-- The next message of a greeting, or its end. -/
def greet (c : Connection) (g : Greeting) (goal : Goal) : Connection × Progress :=
  match g.rest with
  | [] => (c.attach g).established goal
  | (id, expression) :: rest =>
    match Control.subscribe expression id with
    | .error why => c.establishFailed why goal
    | .ok d =>
      match c.compose (.forTopic Control.subscribeTopic) d.encode with
      | (c, .ok bytes) =>
        (c, .waiting (.establishing (.greeting { g with bytes := bytes, rest := rest }) goal))
      | (c, .error why) => c.establishFailed why goal

/-- Begins to greet on a new stream: the inbox first, then the subscriptions in order. -/
def introduce (c : Connection) (stream : StreamId) (localEndpoint remoteEndpoint : String)
    (goal : Goal) : Connection × Progress :=
  let rest := c.subscriptions.entries.map fun s => (s.id, s.expression)
  match c.compose (.forTopic Control.helloTopic) (Control.hello c.inbox).encode with
  | (c, .ok bytes) =>
    (c, .waiting (.establishing
      (.greeting ⟨stream, localEndpoint, remoteEndpoint, bytes, rest⟩) goal))
  | (c, .error why) => c.establishFailed why goal

/-- A connect failed for the last time: the bus cannot be reached. -/
def unreachable (why : IoFault) : Fault := .connectionLost why

/-- A connect failed; the next attempt comes after a pause. -/
def connectFailed (c : Connection) (now attempt : Nat) (why : IoFault) (goal : Goal) :
    Connection × Progress :=
  if attempt < c.connectAttempts then
    (c, .waiting (.establishing (.pausing (now + c.settings.retryDelay) (attempt + 1)) goal))
  else c.establishFailed (unreachable why) goal

/-! ## Operations -/

def publishBytes (c : Connection) (topic : String) (payload : List UInt8) : Connection × Progress :=
  c.sendFrame (.forTopic topic) payload .publish

def publish (c : Connection) (topic : String) (d : Document) : Connection × Progress :=
  c.publishBytes topic d.encode

/-- Publishes a document on its own send topic. -/
def send (c : Connection) (d : Document) : Connection × Progress :=
  match d.sendTopic? with
  | some topic => c.publish topic d
  | none => (c, .finished (.failed (.invalidArgument .noSendTopic)))

/-- Answers a request, given its header. -/
def respond (c : Connection) (request : Header) (d : Document) : Connection × Progress :=
  match request.replyTopic with
  | some topic => c.sendFrame { Header.forTopic topic with flags := .response } d.encode .publish
  | none => (c, .finished (.failed (.invalidArgument (.noReplyTopic request.topic))))

def subscribe (c : Connection) (expression : String) : Connection × Progress :=
  match Topic.validate "expression" expression with
  | .error why => (c, .finished (.failed why))
  | .ok () =>
    match c.subscriptions.insert expression with
    | .error why => (c, .finished (.failed why))
    | .ok (subscriptions, id) =>
      let c := { c with subscriptions := subscriptions }
      match Control.subscribe expression id with
      | .error why => (c, .finished (.failed why))
      | .ok d => c.sendFrame (.forTopic Control.subscribeTopic) d.encode (.subscribe id)

/-- Sends a request and waits for its response, all before the deadline. A timeout that leads to a
deadline which no clock can represent is outside of the model. -/
def request (c : Connection) (now : Nat) (topic : String) (d : Document) (timeout : Nat) :
    Connection × Progress :=
  let header := { Header.forTopic topic with flags := .request }.withReplyTopic c.inbox
  { c with slot := .waiting }.sendFrame header d.encode (.request (now + timeout))

/-- Closes the connection for good. -/
def close (c : Connection) : Connection × Progress :=
  let closed := { c.detach with isClosed := true, slot := .empty }
  match c.attached with
  | some a => (closed, .waiting (.shuttingDown a.stream))
  | none => (closed, .finished .done)

def begin (c : Connection) (now : Nat) : Operation → Connection × Progress
  | .publish topic d => c.publish topic d
  | .publishBytes topic payload => c.publishBytes topic payload
  | .send d => c.send d
  | .respond request d => c.respond request d
  | .subscribe expression => c.subscribe expression
  | .request topic d timeout => c.request now topic d timeout
  | .dispatch timeout => c.dispatchNext (timeout.map (now + ·))
  | .close => c.close

/-- The response to a request, if it has come. -/
def takeResponse (c : Connection) (deadline : Nat) : Connection × Progress :=
  match c.slot with
  | .waiting => (c, .waiting (.awaitingResponse deadline))
  | .empty => (c, .finished (.failed (.notConnected "response slot dropped")))
  | .answered f =>
    let outcome := match f.document with
      | .ok d => .responded d
      | .error why => .failed why
    ({ c with slot := .empty }, .finished outcome)

/-- Goes on with an activity. A reply to something that it does not wait for changes nothing. -/
def resume (c : Connection) (now : Nat) : Activity → Reply → Connection × Progress
  | .establishing (.connecting _) goal, .connected stream localEndpoint remoteEndpoint =>
    c.introduce stream localEndpoint remoteEndpoint goal
  | .establishing (.connecting attempt) goal, .refused why => c.connectFailed now attempt why goal
  | .establishing (.pausing _ attempt) goal, .rested =>
    (c, .waiting (.establishing (.connecting attempt) goal))
  | .establishing (.greeting g) goal, .written => c.greet g goal
  | .establishing (.greeting _) goal, .writeFailed why => c.establishFailed (.ofIo why) goal
  | .writing _ _ cause, .written => c.sendDone cause
  | .writing _ s cause, .writeFailed why => c.writeFailed s cause (.ofIo why)
  | .awaitingResponse deadline, .woken => c.takeResponse deadline
  | .awaitingEvent deadline, .woken => c.dispatchNext deadline
  | .shuttingDown _, .written => (c, .finished .done)
  | .shuttingDown _, .writeFailed why =>
    if why.kind = .notConnected then (c, .finished .done) else (c, .finished (.failed (.ofIo why)))
  | a, _ => (c, .waiting a)

/-- Ends an activity at its deadline. A write given up may have left half a frame behind, so its
stream is not used again. -/
def expire (c : Connection) : Activity → Connection × Progress
  | .establishing _ (.resend _ (.request _)) | .writing _ _ (.request _) =>
    ({ c.detach with slot := .empty }, .finished (.failed .timeout))
  | .awaitingResponse _ => ({ c with slot := .empty }, .finished (.failed .timeout))
  | .establishing _ (.dispatch _) | .awaitingEvent _ => (c, .finished (.failed .timeout))
  | a => (c, .waiting a)

end Connection

end TopicBus
