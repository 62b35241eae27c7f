import TopicBus.Topic

/-!
Routes and the table that holds them: a set of bounded size in the order of insertion.
-/

namespace TopicBus

/-- Clients are numbered as they are registered, from 1. The numbers have no bound: runs of 2^64
registrations are outside of the model. -/
abbrev ClientId := Nat

/-- What happens to a frame that a route selects. -/
inductive RouteAction where
  /-- It goes to the owner, tagged with the subscription. -/
  | forward
  /-- It is a message to the broker itself. -/
  | control
  /-- It is logged. -/
  | print
  deriving DecidableEq, Repr

structure Route where
  expression : String
  subscription : UInt32
  owner : Option ClientId
  action : RouteAction
  deriving DecidableEq, Repr

namespace Route

def forward (expression : String) (subscription : UInt32) (owner : ClientId) : Route :=
  ⟨expression, subscription, some owner, .forward⟩

/-- A route that the broker keeps for itself. -/
def builtin (expression : String) (action : RouteAction) : Route := ⟨expression, 0, none, action⟩

def selects (r : Route) (topic : String) : Bool := Topic.selects r.expression topic

end Route

structure RouteTable where
  capacity : Nat
  routes : List Route
  deriving Repr

namespace RouteTable

def ofCapacity (capacity : Nat) : RouteTable := ⟨capacity, []⟩

/-- Adds a route at the end and says whether it is new. A route that is already there needs no room,
so replaying subscriptions is safe. -/
def add (t : RouteTable) (r : Route) : Except Fault (RouteTable × Bool) :=
  if r ∈ t.routes then .ok (t, false)
  else if t.capacity ≤ t.routes.length then .error (.exhausted (.routes t.capacity))
  else .ok ({ t with routes := t.routes ++ [r] }, true)

/-- Drops the routes of an owner and counts them. -/
def removeClient (t : RouteTable) (owner : ClientId) : RouteTable × Nat :=
  let kept := t.routes.filter fun r => r.owner ≠ some owner
  ({ t with routes := kept }, t.routes.length - kept.length)

def selecting (t : RouteTable) (topic : String) : List Route :=
  t.routes.filter fun r => r.selects topic

def size (t : RouteTable) : Nat := t.routes.length

end RouteTable

end TopicBus
