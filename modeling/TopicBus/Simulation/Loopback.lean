import TopicBus.Simulation.Link

/-!
Listeners tried out: bytes are sent to each and back again, and then the stream is shut down.
-/

namespace TopicBus

/-- What came back over a stream. -/
structure Echo where
  address : Address
  bytes : List UInt8
  /-- The bytes that came after the shutdown. -/
  trailing : List UInt8
  deriving Repr

namespace Network

def unbindAll (n : Network) (addresses : List Address) : Network :=
  addresses.foldl
    (fun n address => match address with
      | .unix path => n.unbind path false
      | .tcp _ => n)
    n

/-- Binds a listener. There is always a local port left. -/
def bindAt (n : Network) : Address → Except Fault Network
  | .tcp _ => .ok n
  | .unix path => (n.bind path).mapError Fault.ofIo

/-- Binds listeners behind those that are bound, in order. If one cannot be had, none is kept. -/
def bindAll (n : Network) (bound : List Address) :
    List String → Network × Except Fault (List Address)
  | [] => (n, .ok bound)
  | text :: rest =>
    match Address.parse text with
    | .error why => (n.unbindAll bound, .error why)
    | .ok address =>
      match n.bindAt address with
      | .error why => (n.unbindAll bound, .error why)
      | .ok n => n.bindAll (bound ++ [address]) rest

/-- Listens at all addresses; there has to be one. -/
def listenAt (n : Network) (texts : List String) : Network × Except Fault (List Address) :=
  if texts.isEmpty then (n, .error (.invalidArgument .noListenAddress)) else n.bindAll [] texts

def available (n : Network) (id : StreamId) (side : Side) : Network × List UInt8 :=
  match n.read id side with
  | (n, .bytes bytes) => (n, bytes)
  | (n, _) => (n, [])

/-- Sends bytes to a listener and back. -/
def echo (n : Network) (address : Address) (bytes : List UInt8) :
    Except IoFault (Network × Echo) := do
  let (n, id) ← Link.dial n address
  let (n, _) := n.acceptAll address.place
  let n ← n.write id .caller bytes
  let (n, heard) := n.available id .listener
  let n ← n.write id .listener heard
  let (n, back) := n.available id .caller
  let n := n.shutdown id .listener
  let (n, trailing) := n.available id .caller
  return ((n.close id .caller).close id .listener, ⟨address, back, trailing⟩)

def echoAll (n : Network) (bytes : List UInt8) : List Address → Except IoFault (Network × List Echo)
  | [] => .ok (n, [])
  | address :: rest => do
    let (n, echo) ← n.echo address bytes
    let (n, echoes) ← n.echoAll bytes rest
    return (n, echo :: echoes)

end Network

end TopicBus
