/-!
The sizes fixed by the wire format, in bytes.
-/

namespace TopicBus.Wire

def protocolVersion : UInt16 := 1

/-- Version and header length, all that is needed to tell where a header ends. -/
def preambleSize : Nat := 4

/-- The fields before the topic. -/
def fixedSize : Nat := 20

/-- The length in front of a topic. -/
def lengthSize : Nat := 4

def maxTopicSize : Nat := 128

def minHeaderSize : Nat := fixedSize + lengthSize

def maxHeaderSize : Nat := fixedSize + 2 * (lengthSize + maxTopicSize)

end TopicBus.Wire
