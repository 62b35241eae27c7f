import TopicBus.Broker
import TopicBus.Connection

/-!
The broker behind its streams. Every stream that is accepted becomes a session with a reader of its
own; frames that arrive are routed, and what stands in a client's outbox is written to its stream. A
frame that cannot be decoded is skipped; the end of a stream, or a violation of the protocol, ends
the session and takes the client away.
-/

namespace TopicBus

structure Session where
  client : ClientId
  stream : StreamId
  reader : Reader
  /-- Whether the client may still be heard. -/
  isReading : Bool
  /-- Whether the reading or the writing side has seen to it that the client goes. -/
  isLeaving : Bool
  deriving Repr

structure Server where
  broker : Broker
  sessions : List Session
  deriving Repr

namespace Server

def ofSettings (settings : BrokerSettings) : Server := ⟨.ofSettings settings, []⟩

/-- Registers a stream as a client. One that is refused is to be closed. -/
def accept (s : Server) (peer : String) (stream : StreamId) :
    Except Fault (Server × List Event) := do
  let settings := s.broker.settings
  let (broker, client, log) ← s.broker.register peer (max settings.outboxCapacity 1)
  let session : Session := ⟨client, stream, .ofLimit settings.maxPayload, true, false⟩
  return (⟨broker, s.sessions ++ [session]⟩, log)

def session? (s : Server) (stream : StreamId) : Option Session :=
  s.sessions.find? fun x => x.stream = stream

def modifySession (s : Server) (stream : StreamId) (f : Session → Session) : Server :=
  { s with sessions := s.sessions.map fun x => if x.stream = stream then f x else x }

/-- Takes the client of a session away, unless one of its sides has done so before. -/
def dismiss (s : Server) (x : Session) : Broker × List Event :=
  if x.isLeaving then (s.broker, []) else s.broker.cleanup x.client

/-- The end of what a client has to say. -/
def endSession (s : Server) (x : Session) : Server × List Event :=
  let (broker, log) := s.dismiss x
  ({ s with broker := broker }.modifySession x.stream fun x =>
    { x with isReading := false, isLeaving := true }, log)

/-- Acts on one result of a session's decoder. -/
def handle (x : Session) (acc : Server × List Event) (result : Decoded) : Server × List Event :=
  let (s, log) := acc
  match result with
  | .more | .fault (.decode _) => (s, log)
  | .frame f =>
    let (broker, events) := s.broker.route x.client f
    ({ s with broker := broker }, log ++ events)
  | .fault _ =>
    let (s, events) := s.endSession x
    (s, log ++ events)

/-- Acts on what a read of a stream gave: all its frames, one after the other. -/
def receive (s : Server) (stream : StreamId) (chunk : Chunk) : Server × List Event :=
  match s.session? stream with
  | none => (s, [])
  | some x =>
    if !x.isReading then (s, [])
    else match chunk with
      | .failure _ | .bytes [] => s.endSession x
      | .bytes bytes =>
        let (reader, results) := x.reader.feed bytes
        let s := s.modifySession stream fun x => { x with reader := reader }
        results.foldl (handle x) (s, [])

/-- Empties the outbox of a session. A frame that cannot be encoded is dropped. -/
def takeOutput (s : Server) (x : Session) : Server × List UInt8 :=
  let queued := ((s.broker.outbox? x.client).map fun o => o.frames.length).getD 0
  let (broker, frames) := s.broker.drain x.client queued
  ({ s with broker := broker },
    (frames.getD []).flatMap fun f => (f.encode.toOption).getD [])

/-- A write to a client failed: nobody reads its outbox any more. -/
def loseWriter (s : Server) (x : Session) : Server × List Event :=
  let (broker, log) := s.dismiss x
  ({ s with broker := broker.hangUp x.client }.modifySession x.stream fun x =>
    { x with isLeaving := true }, log)

/-- Drops the sessions that have ended, and names their streams, to be closed. Their outboxes have
been written. -/
def reap (s : Server) : Server × List StreamId :=
  ({ s with sessions := s.sessions.filter Session.isReading },
    (s.sessions.filter fun x => !x.isReading).map Session.stream)

end Server

end TopicBus
