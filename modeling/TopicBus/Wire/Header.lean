import TopicBus.Topic
import TopicBus.Wire.Flags

/-!
The header in front of every payload, with its byte layout: version and header length (16 bits
each), sequence number, flags, control and payload length (32 bits each), then the topic and, where
there is one, the reply topic, each behind its 32-bit length. Numbers are big-endian. What remains
after the topic is the reply topic.
-/

namespace TopicBus

structure Header where
  version : UInt16
  headerLength : UInt16
  sequence : UInt32
  flags : Flags
  control : UInt32
  payloadLength : UInt32
  topic : String
  replyTopic : Option String
  deriving DecidableEq, Repr

namespace Wire

/-! ## Numbers and texts -/

def putUInt16 (n : UInt16) : List UInt8 := [(n >>> 8).toUInt8, n.toUInt8]

def putUInt32 (n : UInt32) : List UInt8 :=
  [(n >>> 24).toUInt8, (n >>> 16).toUInt8, (n >>> 8).toUInt8, n.toUInt8]

def toUInt16 (a b : UInt8) : UInt16 := a.toUInt16 <<< 8 ||| b.toUInt16

def toUInt32 (a b c d : UInt8) : UInt32 :=
  a.toUInt32 <<< 24 ||| b.toUInt32 <<< 16 ||| c.toUInt32 <<< 8 ||| d.toUInt32

/-- A text behind its length. -/
def putText (s : String) : List UInt8 := putUInt32 (UInt32.ofNat s.utf8ByteSize) ++ Utf8.encode s

/-- A text behind its length at the front of the bytes, and what follows it. -/
def getText (what : String) : List UInt8 → Except Malformed (String × List UInt8)
  | a :: b :: c :: d :: rest =>
    let size := (toUInt32 a b c d).toNat
    if maxTopicSize < size then .error (.lengthOverLimit what size)
    else if rest.length < size then .error (.truncated what)
    else match Utf8.decode (rest.take size) with
      | .ok s => .ok (s, rest.drop size)
      | .error defect => .error (.notUtf8 what defect)
  | _ => .error (.truncatedLength what)

end Wire

namespace Header

open Wire

def isRequest (h : Header) : Bool := h.flags.contains .request

def isResponse (h : Header) : Bool := h.flags.contains .response

/-- The number of bytes that `encode` writes. -/
def encodedSize (h : Header) : Nat :=
  let reply := match h.replyTopic with
    | some r => lengthSize + r.utf8ByteSize
    | none => 0
  fixedSize + lengthSize + h.topic.utf8ByteSize + reply

/-- The header with its length field set to its size; 65535 stands for every size past it. -/
def measured (h : Header) : Header :=
  { h with headerLength := UInt16.ofNat (min h.encodedSize 65535) }

/-- A header for a message on `topic` with all else zero. -/
def forTopic (topic : String) : Header :=
  measured ⟨protocolVersion, 0, 0, .none, 0, 0, topic, none⟩

def withReplyTopic (h : Header) (topic : String) : Header :=
  measured { h with replyTopic := some topic }

/-- Whether the header may go on the wire. -/
def validate (h : Header) : Except Fault Unit := do
  Topic.validate "topic" h.topic
  match h.replyTopic with
  | some r => Topic.validate "reply topic" r
  | none => if h.isRequest then .error (.invalidArgument .requestWithoutReplyTopic) else .ok ()

/-- The layout of a header whose length field holds `size`. -/
def layout (h : Header) (size : UInt16) : List UInt8 :=
  putUInt16 h.version ++ putUInt16 size ++ putUInt32 h.sequence ++ putUInt32 h.flags.bits ++
    putUInt32 h.control ++ putUInt32 h.payloadLength ++ putText h.topic ++
    (match h.replyTopic with
      | some r => putText r
      | none => [])

/-- The bytes of a header. The length is that of the bytes, whatever the field said. -/
def encode (h : Header) : Except Fault (List UInt8) := do
  h.validate
  return h.layout (UInt16.ofNat h.encodedSize)

/-- Reads the reply topic from what follows the topic; nothing there means that there is none. -/
def getReplyTopic : List UInt8 → Except Malformed (Option String)
  | [] => .ok none
  | bytes => do
    let (r, rest) ← getText "reply topic" bytes
    if rest.isEmpty then return some r else .error (.trailingBytes rest.length)

/-- Reads a header from exactly its own bytes. -/
def read (bytes : List UInt8) : Except Malformed Header :=
  match bytes with
  | v₁ :: v₂ :: l₁ :: l₂ :: s₁ :: s₂ :: s₃ :: s₄ :: f₁ :: f₂ :: f₃ :: f₄ :: c₁ :: c₂ :: c₃ :: c₄ ::
      p₁ :: p₂ :: p₃ :: p₄ :: rest => do
    if bytes.length < minHeaderSize then .error (.shortHeader bytes.length)
    let version := toUInt16 v₁ v₂
    if version ≠ protocolVersion then .error (.unsupportedVersion version.toNat)
    let headerLength := toUInt16 l₁ l₂
    if headerLength.toNat ≠ bytes.length then
      .error (.headerLengthMismatch headerLength.toNat bytes.length)
    let (topic, rest) ← getText "topic" rest
    let replyTopic ← getReplyTopic rest
    let h : Header :=
      ⟨version, headerLength, toUInt32 s₁ s₂ s₃ s₄, ⟨toUInt32 f₁ f₂ f₃ f₄⟩, toUInt32 c₁ c₂ c₃ c₄,
        toUInt32 p₁ p₂ p₃ p₄, topic, replyTopic⟩
    if h.isRequest && replyTopic.isNone then .error .requestWithoutReplyTopic
    return h
  | _ => .error (.shortHeader bytes.length)

def decode (bytes : List UInt8) : Except Fault Header := (read bytes).mapError Fault.decode

/-- The header length announced by a preamble. -/
def peekLength? : List UInt8 → Option Nat
  | _ :: _ :: a :: b :: _ => some (toUInt16 a b).toNat
  | _ => none

/-- The payload length in the fixed part of a header, readable whatever the topics hold. -/
def peekPayloadLength? (bytes : List UInt8) : Option Nat :=
  match bytes.drop 16 with
  | a :: b :: c :: d :: _ => some (toUInt32 a b c d).toNat
  | _ => none

end Header

end TopicBus
