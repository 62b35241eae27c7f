import TopicBus.Broker.Event
import TopicBus.Control
import TopicBus.Outbox
import TopicBus.Route
import TopicBus.Settings

/-!
The broker: clients with their outboxes, and the routes that lead to them. A frame goes to every
route that selects its topic at the moment it arrives; messages to the broker itself add routes. A
client whose outbox refuses a frame loses its routes but stays connected.
-/

namespace TopicBus

structure Client where
  id : ClientId
  /-- Where the client is connected from. -/
  peer : String
  inbox : Option String
  outbox : Outbox
  deriving Repr

/-- The name of a client in reports. -/
def Client.name (c : Client) : String := s!"{c.peer}/{c.id}"

structure Broker where
  settings : BrokerSettings
  table : RouteTable
  /-- In the order of their ids. -/
  clients : List Client
  /-- The outboxes of clients that are gone, which their readers may still empty. -/
  departed : List (ClientId × Outbox)
  nextId : ClientId
  deriving Repr

namespace Broker

/-- The routes that a broker keeps for itself. -/
def builtinRoutes (settings : BrokerSettings) : List Route :=
  Route.builtin Control.expression .control ::
    (if settings.logsMessages then [Route.builtin ">" .print] else [])

/-- The broker's own routes count like any other, and there is room for them at least. -/
def ofSettings (settings : BrokerSettings) : Broker where
  settings := settings
  table := ⟨max settings.maxRoutes 2, builtinRoutes settings⟩
  clients := []
  departed := []
  nextId := 1

/-! ## Clients -/

def client? (b : Broker) (id : ClientId) : Option Client := b.clients.find? fun c => c.id = id

def clientName (b : Broker) (id : ClientId) : String :=
  match b.client? id with
  | some c => c.name
  | none => s!"?/{id}"

def modifyClient (b : Broker) (id : ClientId) (f : Client → Client) : Broker :=
  { b with clients := b.clients.map fun c => if c.id = id then f c else c }

def register (b : Broker) (peer : String) (capacity : Nat) :
    Except Fault (Broker × ClientId × List Event) :=
  if b.settings.maxClients ≤ b.clients.length then
    .error (.exhausted (.clientSlots b.clients.length))
  else
    let c : Client := ⟨b.nextId, peer, none, .ofCapacity capacity⟩
    .ok ({ b with clients := b.clients ++ [c], nextId := b.nextId + 1 }, b.nextId,
      [.connected c.name])

/-- Drops a client and its routes. Its outbox remains for its reader. -/
def cleanup (b : Broker) (id : ClientId) : Broker × List Event :=
  let (table, count) := b.table.removeClient id
  match b.client? id with
  | none => ({ b with table := table }, [])
  | some c =>
    ({ b with
        table := table
        clients := b.clients.filter fun c => c.id ≠ id
        departed := b.departed ++ [(id, c.outbox)] },
      [.cleanedUp c.name count])

/-! ## Outboxes -/

def outbox? (b : Broker) (id : ClientId) : Option Outbox :=
  match b.client? id with
  | some c => some c.outbox
  | none => (b.departed.find? fun entry => entry.1 = id).map Prod.snd

def setOutbox (b : Broker) (id : ClientId) (o : Outbox) : Broker :=
  { b.modifyClient id fun c => { c with outbox := o } with
    departed := b.departed.map fun entry => if entry.1 = id then (id, o) else entry }

/-- Takes at most `count` frames out of an outbox, for as long as it has a reader. -/
def drain (b : Broker) (id : ClientId) (count : Nat) : Broker × Option (List Frame) :=
  match b.outbox? id with
  | none => (b, none)
  | some o =>
    if o.isOpen then
      let (o, frames) := o.take count
      (b.setOutbox id o, some frames)
    else (b, none)

/-- The reader of an outbox goes away. -/
def hangUp (b : Broker) (id : ClientId) : Broker :=
  match b.outbox? id with
  | none => b
  | some o => b.setOutbox id o.close

/-- Pushes a copy of a frame, tagged with the subscription, and says whether it was taken. -/
def forward (b : Broker) (owner : ClientId) (subscription : UInt32) (f : Frame) :
    Broker × Bool × List Event :=
  match b.client? owner with
  | none => (b, false, [])
  | some c =>
    match c.outbox.push { f with header := { f.header with control := subscription } } with
    | .ok o => (b.modifyClient owner fun c => { c with outbox := o }, true, [])
    | .error .full => (b, false, [.outboxFull c.name])
    | .error .closed => (b, false, [])

/-! ## Messages to the broker -/

def addRoute (b : Broker) (owner : ClientId) (expression : String) (subscription : UInt32) :
    Except Fault (Broker × List Event) := do
  Topic.validate "expression" expression
  match b.client? owner with
  | none => .error (.invalidArgument (.unknownClient owner))
  | some c =>
    let (table, isNew) ← b.table.add (.forward expression subscription owner)
    return ({ b with table := table },
      if isNew then [.routeAdded c.name expression subscription] else [])

/-- A client asks for the frames that an expression selects. -/
def onSubscribe (b : Broker) (sender : ClientId) (f : Frame) :
    Except Fault (Broker × List Event) := do
  let (expression, subscription) ← Control.readSubscribe (← f.document)
  b.addRoute sender expression subscription

/-- A client names its inbox. -/
def onHello (b : Broker) (sender : ClientId) (f : Frame) : Except Fault (Broker × List Event) := do
  let inbox ← Control.readHello (← f.document)
  let (b, log) ← b.addRoute sender inbox Control.inboxSubscription
  return (b.modifyClient sender fun c => { c with inbox := some inbox }, log)

/-- What a message to the broker does, or why it is refused. -/
def answerControl (b : Broker) (sender : ClientId) (f : Frame) :
    Except Fault (Broker × List Event) :=
  if f.topic = Control.subscribeTopic then b.onSubscribe sender f
  else if f.topic = Control.helloTopic then b.onHello sender f
  else .ok (b, [.unhandledControl f.topic])

/-- Handles a message to the broker; one that is refused changes nothing. -/
def onControl (b : Broker) (sender : ClientId) (f : Frame) : Broker × List Event :=
  match b.answerControl sender f with
  | .ok (b, log) => (b, log)
  | .error why => (b, [.controlRejected (b.clientName sender) f.topic why])

/-! ## Routing -/

/-- A broker in the middle of routing a frame: who refused it so far, and the reports. -/
structure Routing where
  broker : Broker
  refused : List ClientId
  log : List Event
  deriving Repr

namespace Routing

/-- Does what one route asks. A client that refused a copy is offered no other. -/
def follow (sender : ClientId) (f : Frame) (s : Routing) (r : Route) : Routing :=
  match r.action, r.owner with
  | .control, _ =>
    let (b, log) := s.broker.onControl sender f
    { s with broker := b, log := s.log ++ log }
  | .print, _ =>
    { s with
      log := s.log ++ [.message (s.broker.clientName sender) f.topic f.header.flags f.payload] }
  | .forward, none => s
  | .forward, some owner =>
    if owner ∈ s.refused then s
    else
      let (b, taken, log) := s.broker.forward owner r.subscription f
      { broker := b
        refused := if taken then s.refused else s.refused ++ [owner]
        log := s.log ++ log }

/-- Drops the routes of a client that refused a copy. -/
def purge (s : Routing) (owner : ClientId) : Routing :=
  let (table, count) := s.broker.table.removeClient owner
  { s with
    broker := { s.broker with table := table }
    log := s.log ++ [.purged (s.broker.clientName owner) count] }

end Routing

/-- Follows the routes that select the topic of a frame now; those that it adds come too late. -/
def deliver (b : Broker) (sender : ClientId) (f : Frame) : Routing :=
  (b.table.selecting f.topic).foldl (Routing.follow sender f) ⟨b, [], []⟩

/-- Sends a frame along its routes, then drops the routes of the clients that refused it. -/
def route (b : Broker) (sender : ClientId) (f : Frame) : Broker × List Event :=
  let s := b.deliver sender f
  let s := s.refused.foldl Routing.purge s
  (s.broker, s.log)

end Broker

end TopicBus
