import TopicBus.Wire.Frame

/-!
The subscriptions of one connection, found by the id that the broker sends back with every frame.
A subscription counts its frames; what its holder does with them lies outside.
-/

namespace TopicBus

structure Subscription where
  id : UInt32
  expression : String
  /-- The frames delivered so far. -/
  calls : Nat
  deriving DecidableEq, Repr

/-- A frame handed to a subscription, the `nth` one that it gets. -/
structure Delivery where
  nth : Nat
  expression : String
  frame : Frame
  deriving DecidableEq, Repr

structure SubscriptionTable where
  capacity : Nat
  entries : List Subscription
  nextId : UInt32
  deriving Repr

namespace SubscriptionTable

/-- Ids start at 1, as 0 is the inbox. -/
def ofCapacity (capacity : Nat) : SubscriptionTable := ⟨capacity, [], 1⟩

/-- The id after `id`; it never is 0. -/
def idAfter (id : UInt32) : UInt32 := max (id + 1) 1

def insert (t : SubscriptionTable) (expression : String) :
    Except Fault (SubscriptionTable × UInt32) :=
  if t.capacity ≤ t.entries.length then .error (.exhausted (.subscriptions t.capacity))
  else
    let entry : Subscription := ⟨t.nextId, expression, 0⟩
    .ok ({ t with entries := t.entries ++ [entry], nextId := idAfter t.nextId }, t.nextId)

def remove (t : SubscriptionTable) (id : UInt32) : SubscriptionTable × Bool :=
  let kept := t.entries.filter fun s => s.id ≠ id
  ({ t with entries := kept }, kept.length ≠ t.entries.length)

def find? (t : SubscriptionTable) (id : UInt32) : Option Subscription :=
  t.entries.find? fun s => s.id = id

/-- Counts a call of the first entry with this id. -/
def countCall (id : UInt32) : List Subscription → List Subscription
  | [] => []
  | s :: rest =>
    if s.id = id then { s with calls := s.calls + 1 } :: rest else s :: countCall id rest

/-- Hands a frame to the subscription that its control field names, if there is one. -/
def dispatch (t : SubscriptionTable) (f : Frame) : SubscriptionTable × Option Delivery :=
  match t.find? f.header.control with
  | none => (t, none)
  | some s =>
    ({ t with entries := countCall f.header.control t.entries },
      some ⟨s.calls + 1, s.expression, f⟩)

def size (t : SubscriptionTable) : Nat := t.entries.length

end SubscriptionTable

end TopicBus
