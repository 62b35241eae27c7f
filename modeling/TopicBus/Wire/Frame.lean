import TopicBus.Wire.Header
import TopicBus.Document

/-!
Frames: a header and its payload.
-/

namespace TopicBus

structure Frame where
  header : Header
  payload : List UInt8
  deriving DecidableEq, Repr

namespace Frame

/-- A frame whose payload length field is that of its payload, as far as 32 bits hold it. -/
def ofPayload (header : Header) (payload : List UInt8) : Frame :=
  ⟨{ header with payloadLength := UInt32.ofNat payload.length }, payload⟩

def ofDocument (header : Header) (d : Document) : Frame := ofPayload header d.encode

def topic (f : Frame) : String := f.header.topic

def document (f : Frame) : Except Fault Document := Document.decode f.payload

/-- Header and payload as one string of bytes. -/
def encode (f : Frame) : Except Fault (List UInt8) := do
  let announced := f.header.payloadLength.toNat
  if announced ≠ f.payload.length then
    .error (.invalidArgument (.payloadLengthMismatch announced f.payload.length))
  let header ← f.header.encode
  return header ++ f.payload

end Frame

end TopicBus
