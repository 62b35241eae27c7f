import TopicBus.Fault
import TopicBus.Wire.Flags

/-!
What a broker reports about its work, and the line that a report becomes.
-/

namespace TopicBus

inductive Event where
  | connected (client : String)
  | cleanedUp (client : String) (routes : Nat)
  /-- A message seen by the debug route. -/
  | message (sender topic : String) (flags : Flags) (payload : List UInt8)
  | unhandledControl (topic : String)
  | controlRejected (client topic : String) (why : Fault)
  | routeAdded (client expression : String) (subscription : UInt32)
  | outboxFull (client : String)
  | purged (client : String) (routes : Nat)
  deriving Repr

namespace Event

def text : Event → String
  | .connected client => s!"INFO client connected client={client}"
  | .cleanedUp client routes => s!"INFO cleaned up client client={client} routes={routes}"
  | .message sender topic flags payload =>
    let flags := flags.text
    let payload := Utf8.decodeLossy payload
    s!"INFO message debug from={sender} topic={topic} flags={flags} payload={payload}"
  | .unhandledControl topic => s!"INFO no handler for control message topic={topic}"
  | .controlRejected client topic why =>
    let error := why.message
    s!"WARN control message rejected client={client} topic={topic} error={error}"
  | .routeAdded client expression subscription =>
    s!"INFO added route client={client} expression={expression} subscription_id={subscription}"
  | .outboxFull client => s!"WARN outbound queue full client={client}"
  | .purged client routes =>
    s!"WARN subscriber gone, purged its routes client={client} routes={routes}"

end Event

end TopicBus
