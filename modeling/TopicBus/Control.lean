import TopicBus.Document

/-!
The messages between a client and the broker itself: HELLO names the client's inbox, SUBSCRIBE asks
for the frames that an expression selects, under an id that is sent as a signed 32-bit integer.
-/

namespace TopicBus.Control

/-- What selects all topics of this kind. -/
def expression : String := "_ROUTER.>"

def helloTopic : String := "_ROUTER.INBOX.HELLO"

def subscribeTopic : String := "_ROUTER.INBOX.SUBSCRIBE"

/-- The subscription of a client's inbox. -/
def inboxSubscription : UInt32 := 0

def requiredString (d : Document) (field : String) : Except Fault String :=
  match d.getString? field with
  | some s => .ok s
  | none => .error (.decode (.controlWithout field))

def hello (inbox : String) : Document := Document.empty.setString "inbox" inbox

def readHello (d : Document) : Except Fault String := requiredString d "inbox"

def subscribe (expression : String) (id : UInt32) : Except Fault Document :=
  if id.toNat < 0x80000000 then
    .ok ((Document.empty.setString "topic" expression).setInt32 "route_id" (Int32.ofInt id.toNat))
  else .error (.exhausted .subscriptionIds)

def readSubscribe (d : Document) : Except Fault (String × UInt32) := do
  let expression ← requiredString d "topic"
  match d.getInt32? "route_id" with
  | none => .error (.decode .subscribeWithoutRouteId)
  | some id =>
    if id.toInt < 0 then .error (.invalidArgument (.negativeRouteId id.toInt))
    else return (expression, UInt32.ofNat id.toInt.toNat)

end TopicBus.Control
