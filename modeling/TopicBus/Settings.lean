/-!
The settings of server, broker and client, and what holds where nothing is said.
-/

namespace TopicBus

/-- The address of a bus for which none is named. -/
def defaultAddress : String := "tcp://127.0.0.1:10001"

def defaultMaxPayload : Nat := 4 * 1024 * 1024

/-- Where and how the server listens. -/
structure ServerSettings where
  listen : List String := [defaultAddress]
  noDelay : Bool := true
  lockFile : String := "/tmp/popbusd.pid"
  deriving DecidableEq, Repr

/-- The limits of the broker. -/
structure BrokerSettings where
  maxClients : Nat := 64
  maxRoutes : Nat := 512
  maxPayload : Nat := defaultMaxPayload
  /-- The frames that may wait for one client. -/
  outboxCapacity : Nat := 1024
  /-- Whether every message is logged. -/
  logsMessages : Bool := false
  deriving DecidableEq, Repr

/-- How a client reaches the bus, and how hard it tries. -/
structure ClientSettings where
  address : String := defaultAddress
  connectAttempts : Nat := 4
  /-- The milliseconds between two attempts to connect. -/
  retryDelay : Nat := 1000
  sendAttempts : Nat := 3
  maxSubscriptions : Nat := 64
  maxPayload : Nat := defaultMaxPayload
  noDelay : Bool := true
  deriving DecidableEq, Repr

structure Settings where
  server : ServerSettings := {}
  broker : BrokerSettings := {}
  client : ClientSettings := {}
  deriving DecidableEq, Repr

end TopicBus
