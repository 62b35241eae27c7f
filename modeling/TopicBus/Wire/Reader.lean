import TopicBus.Wire.Decoder

/-!
A decoder fed by a stream. The stream is a list of what its reads give; past the last of them it is
at its end.
-/

namespace TopicBus

/-- What one read of a stream gives. No bytes mean that the stream is at its end. -/
inductive Chunk where
  | bytes (bytes : List UInt8)
  | failure (why : IoFault)
  deriving Repr

structure Reader where
  decoder : Decoder
  buffer : List UInt8
  deriving Repr

/-- What the reader has for its caller. -/
inductive Reading where
  | frame (f : Frame)
  | ended
  | fault (why : Fault)
  deriving Repr

namespace Reader

def ofLimit (maxPayload : Nat) : Reader := ⟨.ofLimit maxPayload, []⟩

/-- The end of the stream: clean between two frames, a lost connection inside one. -/
def finish (r : Reader) : Reading :=
  if r.buffer.isEmpty && r.decoder.isIdle then .ended
  else .fault (.endedInFrame (r.decoder.needed r.buffer.length))

/-- What the buffer alone has to give. -/
def advance (r : Reader) : Reader × Option Reading :=
  let (decoder, buffer, result) := r.decoder.decode r.buffer
  match result with
  | .frame f => (⟨decoder, buffer⟩, some (.frame f))
  | .fault why => (⟨decoder, buffer⟩, some (.fault why))
  | .more => (⟨decoder, buffer⟩, none)

/-- The next frame, or why there is none, and the reads that are left. -/
def next (r : Reader) : List Chunk → Reader × List Chunk × Reading
  | [] =>
    match r.advance with
    | (r, some reading) => (r, [], reading)
    | (r, none) => (r, [], r.finish)
  | chunk :: rest =>
    match r.advance with
    | (r, some reading) => (r, chunk :: rest, reading)
    | (r, none) =>
      match chunk with
      | .failure why => (r, rest, .fault (.ofIo why))
      | .bytes [] => (r, rest, r.finish)
      | .bytes bytes => next ⟨r.decoder, r.buffer ++ bytes⟩ rest

/-- Takes in bytes that have arrived and gives all results up to the one that stops. -/
def feed (r : Reader) (bytes : List UInt8) : Reader × List Decoded :=
  let (decoder, buffer, results) := r.decoder.drain (r.buffer ++ bytes)
  (⟨decoder, buffer⟩, results)

end Reader

end TopicBus
