import TopicBus.Server
import TopicBus.Simulation.Link
import TopicBus.Simulation.Probe

/-!
Connections, servers and probes on one network under one clock. The clock stands still while
anything can be done, and then moves to the next moment at which something is due.
-/

namespace TopicBus

structure Simulation where
  network : Network
  /-- The time in milliseconds. -/
  now : Nat
  /-- Where the bus listens. -/
  paths : List String
  brokerSettings : BrokerSettings
  /-- Who accepts streams; without a server they become probes. -/
  server : Option Server
  /-- Servers that no longer listen, but still have sessions. -/
  retired : List Server
  links : List Link
  probes : List Probe
  nextKey : Nat
  /-- How many streams have become probes. -/
  accepted : Nat
  deriving Repr

namespace Simulation

/-- Bounds every loop below; a simulation that runs longer stands still. -/
def patience : Nat := 1000000

/-! ## Serving -/

/-- A server accepts what waits at a path; a stream that it refuses is closed. -/
def acceptAt (n : Network) (s : Server) (path : String) : Network × Server × Bool :=
  let (n, streams) := n.acceptAll path
  streams.foldl
    (fun (acc : Network × Server × Bool) id =>
      let (n, s, _) := acc
      match s.accept path id with
      | .ok (s, _) => (n, s, true)
      | .error _ => (n.close id .listener, s, true))
    (n, s, false)

/-- Reads what a session's client has sent. -/
def hear (acc : Network × Server × Bool) (x : Session) : Network × Server × Bool :=
  let (n, s, _) := acc
  if !x.isReading then acc
  else match n.read x.stream .listener with
    | (_, .nothing) => acc
    | (n, .bytes bytes) => (n, (s.receive x.stream (.bytes bytes)).1, true)
    | (n, .ended) => (n, (s.receive x.stream (.bytes [])).1, true)

/-- Writes what waits for a session's client. -/
def tell (acc : Network × Server × Bool) (x : Session) : Network × Server × Bool :=
  let (n, s, active) := acc
  let (s, bytes) := s.takeOutput x
  if bytes.isEmpty then (n, s, active)
  else match n.write x.stream .listener bytes with
    | .ok n => (n, s, true)
    | .error _ => (n, (s.loseWriter x).1, true)

/-- One round of a server: all clients are heard before any is told. -/
def serve (n : Network) (s : Server) : Network × Server × Bool :=
  let (n, s, active) := s.sessions.foldl hear (n, s, false)
  let (n, s, active) := s.sessions.foldl tell (n, s, active)
  let (s, ended) := s.reap
  (ended.foldl (fun n id => n.close id .listener) n, s, active || !ended.isEmpty)

def serveRetired (sim : Simulation) : Simulation × Bool :=
  let (n, servers, active) := sim.retired.foldl
    (fun (acc : Network × List Server × Bool) s =>
      let (n, servers, active) := acc
      let (n, s, more) := serve n s
      (n, servers ++ [s], active || more))
    (sim.network, [], false)
  ({ sim with network := n, retired := servers }, active)

def serveAll (sim : Simulation) : Simulation × Bool :=
  let (sim, active) := sim.serveRetired
  match sim.server with
  | none => (sim, active)
  | some s =>
    let (n, s, active) := sim.paths.foldl
      (fun (acc : Network × Server × Bool) path =>
        let (n, s, active) := acc
        let (n, s, more) := acceptAt n s path
        (n, s, active || more))
      (sim.network, s, active)
    let (n, s, more) := serve n s
    ({ sim with network := n, server := some s }, active || more)

/-! ## Running -/

/-- Does the same with every link, one after the other. -/
def overLinks (sim : Simulation) (f : Network → Link → Network × Link × Bool) : Simulation × Bool :=
  let (n, links, active) := sim.links.foldl
    (fun (acc : Network × List Link × Bool) l =>
      let (n, links, active) := acc
      let (n, l, more) := f n l
      (n, links ++ [l], active || more))
    (sim.network, [], false)
  ({ sim with network := n, links := links }, active)

/-- Lets everybody work once: the connections, the servers, the readers of the connections. -/
def round (sim : Simulation) : Simulation × Bool :=
  let (sim, ran) := sim.overLinks (Link.run patience sim.now)
  let (sim, served) := sim.serveAll
  let (sim, heard) := sim.overLinks fun n l => l.receive n
  (sim, ran || served || heard)

def settleFor : Nat → Simulation → Simulation
  | 0, sim => sim
  | fuel + 1, sim =>
    let (sim, active) := sim.round
    if active then settleFor fuel sim else sim

/-- Works until there is nothing left to do at this time. -/
def settle (sim : Simulation) : Simulation := settleFor patience sim

/-- The next moment at which an activity is due. -/
def nextTimer? (sim : Simulation) : Option Nat :=
  (sim.links.filterMap fun l => l.activity.bind Activity.timer?).min?

def link? (sim : Simulation) (key : Nat) : Option Link := sim.links.find? fun l => l.key = key

def isIdle (sim : Simulation) (key : Nat) : Bool :=
  match sim.link? key with
  | some l => l.activity.isNone
  | none => true

def awaitFor (key : Nat) : Nat → Simulation → Simulation
  | 0, sim => sim
  | fuel + 1, sim =>
    let sim := sim.settle
    if sim.isIdle key then sim
    else match sim.nextTimer? with
      | none => sim
      | some time => awaitFor key fuel { sim with now := max sim.now time }

/-- Lets time pass until an operation is finished. -/
def await (sim : Simulation) (key : Nat) : Simulation := awaitFor key patience sim

def sleepFor (wake : Nat) : Nat → Simulation → Simulation
  | 0, sim => sim
  | fuel + 1, sim =>
    let sim := sim.settle
    match sim.nextTimer? with
    | some time =>
      if time ≤ wake then sleepFor wake fuel { sim with now := max sim.now time }
      else { sim with now := max sim.now wake }
    | none => { sim with now := max sim.now wake }

def sleep (sim : Simulation) (ms : Nat) : Simulation :=
  (sleepFor (sim.now + ms) patience sim).settle

/-! ## Connections -/

/-- The connection of a name, unless somebody waits for it. -/
def find? (sim : Simulation) (name : String) : Option Link :=
  sim.links.find? fun l => l.name = name && !l.isBusy

def setLink (sim : Simulation) (l : Link) : Simulation :=
  { sim with links := sim.links.map fun x => if x.key = l.key then l else x }

/-- Drops connections, and with them their streams. -/
def dropLinks (sim : Simulation) (p : Link → Bool) : Simulation :=
  { sim with
    network := (sim.links.filter p).foldl (fun n l => l.drop n) sim.network
    links := sim.links.filter fun l => !p l }

/-- Thirty-two hexadecimal digits that no other connection has. -/
def inboxId (n : Nat) : String :=
  let digits := Nat.toDigits 16 n
  String.ofList (List.replicate (32 - digits.length) '0' ++ digits)

/-- Gives a connection its name back, which no other one may bear any longer. -/
def yieldLink (sim : Simulation) (l : Link) : Simulation :=
  (sim.dropLinks fun x => x.name == l.name && x.key != l.key && !x.isBusy).setLink
    { l with isBusy := false }

def outcomeOf (sim : Simulation) (key : Nat) : Outcome :=
  ((sim.link? key).bind Link.outcome).getD (.failed .timeout)

/-- Opens a connection. It replaces another of its name if it succeeds. -/
def connect (sim : Simulation) (name appName : String) (settings : ClientSettings) :
    Simulation × Except Fault Unit :=
  match Connection.create appName settings (inboxId sim.nextKey) with
  | .error why => (sim, .error why)
  | .ok c =>
    let key := sim.nextKey
    let (n, l) := (Link.ofConnection key name c).opening sim.network
    let sim :=
      { sim with network := n, links := sim.links ++ [l], nextKey := key + 1 }.await key
    match sim.outcomeOf key, sim.link? key with
    | .done, some l => ((sim.yieldLink l).settle, .ok ())
    | .failed why, _ => ((sim.dropLinks fun x => x.key == key).settle, .error why)
    | _, _ => (sim, .ok ())

/-- Begins an operation of a connection, which is busy from now on. -/
def start (sim : Simulation) (l : Link) (op : Operation) : Simulation :=
  let (n, l) := { l with isBusy := true }.begin sim.network sim.now op
  ({ sim with network := n }.setLink l).settle

/-- Waits for the operation that a connection is busy with. -/
def finish (sim : Simulation) (key : Nat) : Simulation × Outcome :=
  let sim := sim.await key
  match sim.link? key with
  | some l => (sim.yieldLink l, sim.outcomeOf key)
  | none => (sim, sim.outcomeOf key)

def perform (sim : Simulation) (l : Link) (op : Operation) : Simulation × Outcome :=
  (sim.start l op).finish l.key

def drop (sim : Simulation) (l : Link) : Simulation :=
  (sim.dropLinks fun x => x.key == l.key).settle

/-- The frames handed to subscriptions since they were last taken. -/
def takeCalls (sim : Simulation) : Simulation × List (String × List Delivery) :=
  ({ sim with links := sim.links.map fun l => { l with calls := [] } },
    sim.links.filterMap fun l => if l.calls.isEmpty then none else some (l.name, l.calls))

/-! ## Probes -/

def probe? (sim : Simulation) (name : String) : Option Probe :=
  sim.probes.find? fun p => p.name = name

/-- Without a server, streams that wait become probes named in order. -/
def acceptProbes (sim : Simulation) : Simulation :=
  if sim.server.isSome then sim
  else
    sim.paths.foldl
      (fun sim path =>
        let (n, streams) := sim.network.acceptAll path
        streams.foldl
          (fun sim id =>
            let p := Probe.ofStream s!"p{sim.accepted}" id .listener
            { sim with probes := sim.probes ++ [p], accepted := sim.accepted + 1 })
          { sim with network := n })
      sim

/-- The probes see what has been sent to them. -/
def observe (sim : Simulation) : Simulation :=
  let sim := sim.acceptProbes
  let (n, probes) := sim.probes.foldl
    (fun (acc : Network × List Probe) p =>
      let (n, p) := p.observe acc.1
      (n, acc.2 ++ [p]))
    (sim.network, [])
  { sim with network := n, probes := probes }

def takeSightings (sim : Simulation) : Simulation × List Sighting :=
  let sim := sim.observe
  ({ sim with probes := sim.probes.map Probe.shown }, sim.probes.filterMap Probe.sighting?)

/-- Closes the probe of a name, if there is one. What it has not shown is lost. -/
def closeProbe (sim : Simulation) (name : String) : Simulation × Bool :=
  let sim := sim.observe
  match sim.probe? name with
  | none => (sim, false)
  | some p =>
    ({ sim with
        network := sim.network.close p.stream p.side
        probes := sim.probes.filter fun x => x.name ≠ name }.settle, true)

/-- Connects a probe to the bus, in the place of another of its name. -/
def connectProbe (sim : Simulation) (name path : String) : Simulation × Except IoFault Unit :=
  match sim.network.connect path with
  | .error why => (sim, .error why)
  | .ok (n, id) =>
    let (sim, _) := { sim with network := n }.closeProbe name
    ({ sim with probes := sim.probes ++ [Probe.ofStream name id .caller] }.settle, .ok ())

/-- Sends bytes from a probe, and says whether somebody will read them. -/
def sendFrom (sim : Simulation) (name : String) (bytes : List UInt8) : Simulation × Bool :=
  let sim := sim.observe
  match sim.probe? name with
  | none => (sim, false)
  | some p =>
    match sim.network.write p.stream p.side bytes with
    | .ok n => ({ sim with network := n }.settle, true)
    | .error _ => (sim, false)

/-! ## Listening -/

def bindAll (sim : Simulation) : Simulation :=
  sim.paths.foldl
    (fun sim path =>
      match sim.network.bind path with
      | .ok n => { sim with network := n }
      | .error _ => sim)
    sim

/-- Stops accepting streams; those that there are live on. -/
def stopListening (sim : Simulation) (keepsFiles : Bool) : Simulation :=
  let sim := sim.observe
  { sim with
    network := sim.paths.foldl (fun n path => n.unbind path keepsFiles) sim.network }.settle

/-- Accepts streams again, as probes. -/
def listen (sim : Simulation) : Simulation := sim.bindAll.settle

/-- Starts a new server in the place of the last one. -/
def startServer (sim : Simulation) : Simulation :=
  { sim.bindAll with
    server := some (.ofSettings sim.brokerSettings)
    retired := sim.retired ++ sim.server.toList }.settle

/-- A bus that listens at the paths, with a server or without. -/
def ofPaths (directory : String) (paths : List String) (settings : BrokerSettings) (served : Bool) :
    Simulation :=
  let sim : Simulation :=
    { network := .ofDisk (.ofDirectory directory)
      now := 0
      paths := paths
      brokerSettings := settings
      server := none
      retired := []
      links := []
      probes := []
      nextKey := 0
      accepted := 0 }
  if served then sim.startServer else sim.listen

end Simulation

end TopicBus
