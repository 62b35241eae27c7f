import TopicBus.Simulation.Network

/-!
A raw socket in the hands of a tester, who sends any bytes and watches the frames that come back.
-/

namespace TopicBus

structure Probe where
  name : String
  stream : StreamId
  side : Side
  reader : Reader
  /-- What has come since it was last shown. -/
  results : List Decoded
  /-- Whether the other side has closed. -/
  hasEnded : Bool
  /-- Whether there is something to show. -/
  isNews : Bool
  deriving Repr

/-- What a probe has to show. -/
structure Sighting where
  name : String
  results : List Decoded
  hasEnded : Bool
  deriving Repr

namespace Probe

/-- No frame is too long for a probe. -/
def maxPayload : Nat := 0x100000000

def ofStream (name : String) (stream : StreamId) (side : Side) : Probe :=
  ⟨name, stream, side, .ofLimit maxPayload, [], false, true⟩

def isResult : Decoded → Bool
  | .more => false
  | _ => true

/-- Reads what is there. -/
def observe (p : Probe) (n : Network) : Network × Probe :=
  if p.hasEnded then (n, p)
  else match n.read p.stream p.side with
    | (n, .nothing) => (n, p)
    | (n, .ended) => (n, { p with hasEnded := true, isNews := true })
    | (n, .bytes bytes) =>
      let (reader, results) := p.reader.feed bytes
      let results := p.results ++ results.filter isResult
      (n, { p with reader := reader, results := results, isNews := p.isNews || !results.isEmpty })

def sighting? (p : Probe) : Option Sighting :=
  if p.isNews then some ⟨p.name, p.results, p.hasEnded⟩ else none

def shown (p : Probe) : Probe := { p with results := [], isNews := false }

end Probe

end TopicBus
