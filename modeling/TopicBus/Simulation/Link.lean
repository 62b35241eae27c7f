import TopicBus.Connection.Operation
import TopicBus.Simulation.Network

/-!
A connection run over sockets in memory. What the connection waits for is done at once where that is
possible; a deadline counts only while there is nothing to do. Streams that the connection lets go
of are closed.
-/

namespace TopicBus

structure Link where
  key : Nat
  name : String
  connection : Connection
  activity : Option Activity
  /-- What the last operation gave. -/
  outcome : Option Outcome
  /-- The frames handed to subscriptions since `takeCalls`. -/
  calls : List Delivery
  /-- The header of the last of all these frames. -/
  lastHeader : Option Header
  /-- Whether somebody waits for an operation of this connection, which keeps it from all others. -/
  isBusy : Bool
  deriving Repr

namespace Link

def ofConnection (key : Nat) (name : String) (c : Connection) : Link :=
  ⟨key, name, c, none, none, [], none, true⟩

def held (l : Link) : List StreamId := l.connection.held l.activity

/-- Closes the streams of a list that a link does not hold. -/
def release (l : Link) (n : Network) (streams : List StreamId) : Network :=
  (streams.filter fun id => id ∉ l.held).foldl (fun n id => n.close id .caller) n

/-- Notes how far an operation has come. `opened` is a stream made for it just now. -/
def note (l : Link) (n : Network) (opened : Option StreamId) (step : Connection × Progress) :
    Network × Link :=
  let (c, progress) := step
  let next := match progress with
    | .waiting a => { l with connection := c, activity := some a }
    | .finished o =>
      let done := { l with connection := c, activity := none, outcome := some o }
      match o with
      | .dispatched (some d) =>
        { done with calls := l.calls ++ [d], lastHeader := some d.frame.header }
      | _ => done
  (next.release n (l.held ++ opened.toList), next)

def begin (l : Link) (n : Network) (now : Nat) (op : Operation) : Network × Link :=
  { l with outcome := none }.note n none (l.connection.begin now op)

/-- Begins to open the connection. -/
def opening (l : Link) (n : Network) : Network × Link :=
  l.note n none (l.connection.establish .opening)

/-- Where a connect leads. There is no network to reach anything else than a socket. -/
def dial (n : Network) : Address → Except IoFault (Network × StreamId)
  | .unix path => n.connect path
  | .tcp _ => .error (.system .connectionRefused)

/-- Whether an activity gives up at this time, unless it can go on. -/
def isOverdue (now : Nat) (a : Activity) : Bool :=
  match a.deadline? with
  | some deadline => deadline ≤ now
  | none => false

/-- One step of an activity, or nothing if it has to wait. Opening a stream takes a moment, in which
a deadline that has come ends the operation; nothing else that can be done does. -/
def poll? (l : Link) (n : Network) (now : Nat) : Option (Network × Link) :=
  match l.activity with
  | none => none
  | some a =>
    let resume (n : Network) (opened : Option StreamId) (reply : Reply) :=
      some (l.note n opened (l.connection.resume now a reply))
    let wait := if isOverdue now a then some (l.note n none (l.connection.expire a)) else none
    match a.demand with
    | .connect =>
      match dial n l.connection.address with
      | .error why => resume n none (.refused why)
      | .ok (n, id) =>
        if isOverdue now a then some (l.note n (some id) (l.connection.expire a))
        else
          let path := l.connection.address.place
          resume n (some id) (.connected id path path)
    | .pause wake => if wake ≤ now then resume n none .rested else wait
    | .write id bytes =>
      match n.write id .caller bytes with
      | .ok n => resume n none .written
      | .error why => resume n none (.writeFailed why)
    | .shutdown id => resume (n.shutdown id .caller) none .written
    | .response => if l.connection.slot = .waiting then wait else resume n none .woken
    | .event => if l.connection.inbound.isEmpty then wait else resume n none .woken

/-- Steps until the activity has to wait, and says whether there was any. -/
def run : Nat → Nat → Network → Link → Network × Link × Bool
  | 0, _, n, l => (n, l, false)
  | fuel + 1, now, n, l =>
    match l.poll? n now with
    | none => (n, l, false)
    | some (n, l) =>
      let (n, l, _) := run fuel now n l
      (n, l, true)

/-- Takes in what has arrived on the attached stream. -/
def receive (l : Link) (n : Network) : Network × Link × Bool :=
  match l.connection.attached with
  | none => (n, l, false)
  | some a =>
    if !a.isReading then (n, l, false)
    else match n.read a.stream .caller with
      | (n, .nothing) => (n, l, false)
      | (n, .bytes bytes) => (n, { l with connection := l.connection.receive (.bytes bytes) }, true)
      | (n, .ended) => (n, { l with connection := l.connection.receive (.bytes []) }, true)

/-- Closes all streams of a connection that is dropped. -/
def drop (l : Link) (n : Network) : Network := l.held.foldl (fun n id => n.close id .caller) n

end Link

end TopicBus
