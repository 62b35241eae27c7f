import TopicBus.Wire.Frame

/-!
The bounded queue of frames on their way to one client. Frames leave in the order in which they
came; a frame that finds the queue full, or its reader gone, is refused.
-/

namespace TopicBus

structure Outbox where
  capacity : Nat
  frames : List Frame
  /-- Whether the reader is still there. -/
  isOpen : Bool
  deriving Repr

/-- Why an outbox takes no frame. -/
inductive Refusal where
  | full
  | closed
  deriving DecidableEq, Repr

namespace Outbox

def ofCapacity (capacity : Nat) : Outbox := ⟨capacity, [], true⟩

/-- The frames that may still be pushed before one is refused. -/
def room (o : Outbox) : Nat := if o.isOpen then o.capacity - o.frames.length else 0

def push (o : Outbox) (f : Frame) : Except Refusal Outbox :=
  if !o.isOpen then .error .closed
  else if o.capacity ≤ o.frames.length then .error .full
  else .ok { o with frames := o.frames ++ [f] }

/-- Takes at most `count` frames from the front. -/
def take (o : Outbox) (count : Nat) : Outbox × List Frame :=
  ({ o with frames := o.frames.drop count }, o.frames.take count)

/-- The reader goes; what it has not read is lost. -/
def close (o : Outbox) : Outbox := { o with frames := [], isOpen := false }

end Outbox

end TopicBus
