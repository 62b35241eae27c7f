import TopicBus.Connection
import TopicBus.Disk

/-!
Sockets in memory. A listener is reached by the path at which it is bound; what one side of a stream
writes waits until the other side reads it.
-/

namespace TopicBus

/-- One direction of a stream. -/
structure Flow where
  /-- What has been written and not yet read. -/
  bytes : List UInt8
  hasWriter : Bool
  hasReader : Bool
  deriving Repr

def Flow.fresh : Flow := ⟨[], true, true⟩

/-- The two sides of a stream: the one that connected and the one that accepted. -/
inductive Side where
  | caller
  | listener
  deriving DecidableEq, Repr

structure Duplex where
  id : StreamId
  /-- From the caller to the listener. -/
  up : Flow
  /-- From the listener to the caller. -/
  down : Flow
  deriving Repr

/-- A listener, by the canonical path of its socket. -/
structure Listener where
  path : String
  /-- The streams that nobody has accepted yet, oldest first. -/
  backlog : List StreamId
  deriving Repr

def Listener.isAt (l : Listener) (path : String) : Bool := l.path == Disk.canonical path

structure Network where
  disk : Disk
  listeners : List Listener
  streams : List Duplex
  nextStream : StreamId
  deriving Repr

/-- What a read finds. -/
inductive Available where
  | nothing
  | bytes (bytes : List UInt8)
  | ended
  deriving Repr

namespace Duplex

/-- What a side writes to. -/
def outgoing (s : Duplex) : Side → Flow
  | .caller => s.up
  | .listener => s.down

/-- What a side reads from. -/
def incoming (s : Duplex) : Side → Flow
  | .caller => s.down
  | .listener => s.up

def setOutgoing (s : Duplex) (side : Side) (f : Flow) : Duplex :=
  match side with
  | .caller => { s with up := f }
  | .listener => { s with down := f }

def setIncoming (s : Duplex) (side : Side) (f : Flow) : Duplex :=
  match side with
  | .caller => { s with down := f }
  | .listener => { s with up := f }

end Duplex

namespace Network

def ofDisk (disk : Disk) : Network := ⟨disk, [], [], 0⟩

def stream? (n : Network) (id : StreamId) : Option Duplex := n.streams.find? fun s => s.id = id

def setStream (n : Network) (s : Duplex) : Network :=
  { n with streams := n.streams.map fun t => if t.id = s.id then s else t }

/-! ## Listening and connecting -/

/-- The longest path of a socket, in bytes. -/
def maxPathSize : Nat := 107

/-- Why no socket can have a path, whatever the disk holds. -/
def refusal? (path : String) : Option IoFault :=
  if path.contains (Char.ofNat 0) then
    some ⟨.invalidInput, some "paths must not contain interior null bytes"⟩
  else if maxPathSize < path.utf8ByteSize then
    some ⟨.invalidInput, some "path must be shorter than SUN_LEN"⟩
  else none

/-- Why a path leads to no entry: there is none, or what should be a directory is something else. -/
def missing (n : Network) (path : String) : IoFault :=
  match n.disk.node? (Disk.parent path) with
  | some .directory | none => .system .notFound
  | some _ => .system .notADirectory

/-- Binds a listener. A file that stands in its place is removed. -/
def bind (n : Network) (path : String) : Except IoFault Network :=
  match refusal? path with
  | some why => .error why
  | none =>
    if !n.disk.isDirectory (Disk.parent path) then .error (n.missing path)
    else if n.disk.isDirectory path then .error (.system .isADirectory)
    else
      let listeners := n.listeners.filter fun l => !l.isAt path
      .ok { n with
        disk := n.disk.put path .socket
        listeners := listeners ++ [⟨Disk.canonical path, []⟩] }

def listening (n : Network) (path : String) : Option Listener :=
  n.listeners.find? fun l => l.isAt path

/-- Stops listening. The socket stays behind, unless it is removed, and leads nowhere. -/
def unbind (n : Network) (path : String) (keepsFile : Bool) : Network :=
  { n with
    disk := if keepsFile then n.disk else n.disk.remove path
    listeners := n.listeners.filter fun l => !l.isAt path }

/-- Opens a stream to a listener, which has not to accept it for that. -/
def connect (n : Network) (path : String) : Except IoFault (Network × StreamId) :=
  match refusal? path with
  | some why => .error why
  | none =>
    if (n.disk.node? path).isNone then .error (n.missing path)
    else if (n.listening path).isNone then .error (.system .connectionRefused)
    else
      let id := n.nextStream
      let listeners := n.listeners.map fun l =>
        if l.isAt path then { l with backlog := l.backlog ++ [id] } else l
      .ok ({ n with
              listeners := listeners
              streams := n.streams ++ [⟨id, .fresh, .fresh⟩]
              nextStream := id + 1 }, id)

/-- Accepts all streams that wait at a path. -/
def acceptAll (n : Network) (path : String) : Network × List StreamId :=
  let waiting := ((n.listening path).map Listener.backlog).getD []
  ({ n with
      listeners := n.listeners.map fun l => if l.isAt path then { l with backlog := [] } else l },
    waiting)

/-! ## Streams -/

/-- Writes all bytes, unless nobody will read them. -/
def write (n : Network) (id : StreamId) (side : Side) (bytes : List UInt8) :
    Except IoFault Network :=
  match n.stream? id with
  | none => .error (.system .brokenPipe)
  | some s =>
    let out := s.outgoing side
    if out.hasWriter && out.hasReader then
      .ok (n.setStream (s.setOutgoing side { out with bytes := out.bytes ++ bytes }))
    else .error (.system .brokenPipe)

def read (n : Network) (id : StreamId) (side : Side) : Network × Available :=
  match n.stream? id with
  | none => (n, .ended)
  | some s =>
    let flow := s.incoming side
    if flow.bytes.isEmpty then (n, if flow.hasWriter then .nothing else .ended)
    else (n.setStream (s.setIncoming side { flow with bytes := [] }), .bytes flow.bytes)

/-- Ends the writing of a side. -/
def shutdown (n : Network) (id : StreamId) (side : Side) : Network :=
  match n.stream? id with
  | none => n
  | some s => n.setStream (s.setOutgoing side { s.outgoing side with hasWriter := false })

/-- Ends a side altogether; what it has not read is lost. -/
def close (n : Network) (id : StreamId) (side : Side) : Network :=
  match (n.shutdown id side).stream? id with
  | none => n
  | some s =>
    (n.shutdown id side).setStream (s.setIncoming side ⟨[], (s.incoming side).hasWriter, false⟩)

end Network

end TopicBus
