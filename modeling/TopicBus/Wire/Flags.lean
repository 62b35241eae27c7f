/-!
The flag bits of a header. Bits without a meaning are carried along.
-/

namespace TopicBus

structure Flags where
  bits : UInt32
  deriving DecidableEq, Repr

namespace Flags

def none : Flags := ⟨0⟩

def request : Flags := ⟨1⟩

def response : Flags := ⟨2⟩

/-- Whether every bit of `other` is set. No flags contain the empty flags. -/
def contains (f other : Flags) : Bool := other.bits != 0 && f.bits &&& other.bits == other.bits

def union (f g : Flags) : Flags := ⟨f.bits ||| g.bits⟩

def text (f : Flags) : String :=
  if f = none then "none"
  else if f = request then "request"
  else if f = response then "response"
  else "0x" ++ String.ofList (Nat.toDigits 16 f.bits.toNat)

end Flags

end TopicBus
