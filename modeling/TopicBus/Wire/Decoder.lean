import TopicBus.Wire.Frame

/-!
Frames out of a growing buffer, in three steps: the preamble, the rest of the header, the payload.
A step waits until all its bytes are there. A header that cannot be read does not stop the decoder:
its payload is skipped and the fault stands in the place of the frame. Lengths out of bounds make
the stream impossible to follow.
-/

namespace TopicBus

/-- What the decoder waits for. -/
inductive Awaiting where
  | preamble
  | header (size : Nat)
  | payload (size : Nat)
  deriving DecidableEq, Repr

structure Decoder where
  maxPayload : Nat
  awaiting : Awaiting
  /-- The header, readable or not, that is held while its payload arrives. -/
  held : Option (Except Fault Header)
  deriving Repr

/-- One result of the decoder. -/
inductive Decoded where
  | more
  | frame (f : Frame)
  | fault (why : Fault)
  deriving Repr

/-- Whether a result ends the decoding of a buffer: more bytes are needed, or the stream is lost. -/
def Decoded.stops : Decoded → Bool
  | .more | .fault (.protocol _) => true
  | _ => false

namespace Decoder

def ofLimit (maxPayload : Nat) : Decoder := ⟨maxPayload, .preamble, none⟩

/-- Whether no part of a frame has been taken yet. -/
def isIdle (d : Decoder) : Bool :=
  match d.awaiting with
  | .preamble => true
  | _ => false

/-- The size that the current step waits for. -/
def wanted (d : Decoder) : Nat :=
  match d.awaiting with
  | .preamble => Wire.preambleSize
  | .header size => size
  | .payload size => size

/-- How many bytes are missing behind `buffered` ones. -/
def needed (d : Decoder) (buffered : Nat) : Nat := d.wanted - buffered

/-- Takes the payload, which ends the frame. -/
def takePayload (d : Decoder) (size : Nat) (buffer : List UInt8) :
    Decoder × List UInt8 × Decoded :=
  if buffer.length < size then ({ d with awaiting := .payload size }, buffer, .more)
  else
    let result := match d.held with
      | some (.ok h) => .frame ⟨h, buffer.take size⟩
      | some (.error why) => .fault why
      | none => .fault (.protocol .payloadWithoutHeader)
    ({ d with awaiting := .preamble, held := none }, buffer.drop size, result)

/-- Takes the header, then the payload as far as it is there. -/
def takeHeader (d : Decoder) (size : Nat) (buffer : List UInt8) :
    Decoder × List UInt8 × Decoded :=
  if buffer.length < size then ({ d with awaiting := .header size }, buffer, .more)
  else
    let bytes := buffer.take size
    let payload := (Header.peekPayloadLength? bytes).getD 0
    if d.maxPayload < payload then
      ({ d with awaiting := .preamble }, buffer.drop size,
        .fault (.protocol (.payloadLength payload d.maxPayload)))
    else { d with held := some (Header.decode bytes) }.takePayload payload (buffer.drop size)

/-- The next result from the front of the buffer. -/
def decode (d : Decoder) (buffer : List UInt8) : Decoder × List UInt8 × Decoded :=
  match d.awaiting with
  | .preamble =>
    match Header.peekLength? buffer with
    | none => (d, buffer, .more)
    | some size =>
      if size < Wire.minHeaderSize ∨ Wire.maxHeaderSize < size then
        (d, buffer, .fault (.protocol (.headerLength size)))
      else d.takeHeader size buffer
  | .header size => d.takeHeader size buffer
  | .payload size => d.takePayload size buffer

/-- Results until one of them stops, at most `fuel` of them. -/
def drainFor : Nat → Decoder → List UInt8 → Decoder × List UInt8 × List Decoded
  | 0, d, buffer => (d, buffer, [])
  | fuel + 1, d, buffer =>
    let (d, buffer, result) := d.decode buffer
    if result.stops then (d, buffer, [result])
    else
      let (d, buffer, results) := drainFor fuel d buffer
      (d, buffer, result :: results)

/-- All results that the buffer holds, the stopping one last. Every result that does not stop takes
bytes, except one for a payload that was empty all along, which comes first. -/
def drain (d : Decoder) (buffer : List UInt8) : Decoder × List UInt8 × List Decoded :=
  drainFor (buffer.length + 2) d buffer

end Decoder

end TopicBus
