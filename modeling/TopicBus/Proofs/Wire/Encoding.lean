import Mathlib.Algebra.Ring.Nat
import TopicBus.Proofs.Wire.Cursor
import TopicBus.Wire.Frame

/-!
What the encoders write. A header that passes its check is written as its layout, whose size fits
the length field, and with the right version it is read back from there with that size in the field
(`spells_of_validate`). A frame is written exactly if its header passes and announces the size of
its payload (`Frame.encode_eq_ok_iff`).
-/

namespace TopicBus

open Wire

namespace Header

variable {h : Header}

/-- What the check of a header asks for. -/
structure Valid (h : Header) : Prop where
  topic_pos : 0 < h.topic.utf8ByteSize
  topic_le : h.topic.utf8ByteSize ≤ maxTopicSize
  reply_pos : ∀ r ∈ h.replyTopic, 0 < r.utf8ByteSize
  reply_le : ∀ r ∈ h.replyTopic, r.utf8ByteSize ≤ maxTopicSize
  request : h.isRequest = true → h.replyTopic.isSome = true

theorem validate_eq_ok_iff : h.validate = .ok () ↔ h.Valid := by
  simp only [validate, check_bind_eq_ok_iff, Topic.validate_eq_ok_iff]
  cases hr : h.replyTopic with
  | none =>
    dsimp only
    constructor
    · rintro ⟨⟨hpos, hle⟩, hrequest⟩
      split_ifs at hrequest with hreq
      exact ⟨hpos, hle, by simp [hr], by simp [hr], fun h => absurd h hreq⟩
    · intro hv
      refine ⟨⟨hv.topic_pos, hv.topic_le⟩, if_neg fun hreq => ?_⟩
      have hsome := hv.request hreq
      rw [hr] at hsome
      nomatch hsome
  | some r =>
    simp only [Topic.validate_eq_ok_iff]
    constructor
    · rintro ⟨⟨hpos, hle⟩, hrpos, hrle⟩
      exact ⟨hpos, hle, by simpa [hr] using hrpos, by simpa [hr] using hrle, by simp [hr]⟩
    · intro hv
      exact ⟨⟨hv.topic_pos, hv.topic_le⟩, hv.reply_pos r hr, hv.reply_le r hr⟩

theorem encode_eq_ok_iff {bytes : List UInt8} :
    h.encode = .ok bytes ↔ h.Valid ∧ bytes = h.layout (UInt16.ofNat h.encodedSize) := by
  simp only [encode, check_bind_eq_ok_iff, validate_eq_ok_iff, pure, Except.pure,
    Except.ok.injEq]
  exact and_congr_right fun _ => eq_comm

/-- A header that passes has a size within the limits of the format. -/
theorem Valid.encodedSize_mem (hv : h.Valid) :
    minHeaderSize ≤ h.encodedSize ∧ h.encodedSize ≤ maxHeaderSize := by
  have htopic := hv.topic_le
  have hreply := hv.reply_le
  rw [encodedSize, minHeaderSize, maxHeaderSize]
  cases hr : h.replyTopic with
  | none =>
    dsimp only
    omega
  | some r =>
    have hle := hreply r hr
    dsimp only
    omega

/-- The size in the length field of a header that is written. -/
def encodedLength (h : Header) : UInt16 := UInt16.ofNat h.encodedSize

theorem Valid.encodedLength_toNat (hv : h.Valid) : h.encodedLength.toNat = h.encodedSize := by
  have hle := hv.encodedSize_mem.2
  rw [encodedLength, UInt16.toNat_ofNat', Nat.mod_eq_of_lt]
  rw [maxHeaderSize, fixedSize, lengthSize, maxTopicSize] at hle
  omega

theorem spells_of_validate (hv : h.Valid) (hversion : h.version = protocolVersion) :
    Spells (h.layout h.encodedLength) { h with headerLength := h.encodedLength } where
  layout := rfl
  version := hversion
  headerLength := by rw [length_layout, hv.encodedLength_toNat]
  topic := hv.topic_le
  replyTopic := hv.reply_le
  request := hv.request

/-- Where the two lengths stand in a header. -/
theorem numberAt_layout (h : Header) (size : UInt16) (rest : List UInt8) :
    numberAt 2 2 (h.layout size ++ rest) = size.toNat ∧
      numberAt 16 4 (h.layout size ++ rest) = h.payloadLength.toNat := by
  rw [layout_eq, ← bigEndian_putUInt16 size, ← bigEndian_putUInt32 h.payloadLength]
  exact ⟨rfl, rfl⟩

end Header

namespace Frame

variable {f : Frame}

theorem encode_eq (f : Frame) :
    f.encode = if f.header.payloadLength.toNat ≠ f.payload.length then
        .error (.invalidArgument
          (.payloadLengthMismatch f.header.payloadLength.toNat f.payload.length))
      else f.header.encode >>= fun header => .ok (header ++ f.payload) := by
  rw [encode]
  split_ifs <;> rfl

theorem encode_eq_ok_iff {bytes : List UInt8} :
    f.encode = .ok bytes ↔ f.header.payloadLength.toNat = f.payload.length ∧ f.header.Valid ∧
      bytes = f.header.layout f.header.encodedLength ++ f.payload := by
  rw [encode_eq]
  split_ifs with hlength
  · simp [hlength]
  · rw [bind_eq_ok_iff]
    constructor
    · rintro ⟨header, hheader, hbytes⟩
      obtain ⟨hv, rfl⟩ := Header.encode_eq_ok_iff.mp hheader
      rw [Except.ok.injEq] at hbytes
      exact ⟨not_not.mp hlength, hv, hbytes.symm⟩
    · rintro ⟨-, hv, rfl⟩
      exact ⟨_, Header.encode_eq_ok_iff.mpr ⟨hv, rfl⟩, rfl⟩

/-- A payload whose size does not fit 32 bits is refused. -/
theorem encode_ne_ok_of_le (h : 2 ^ 32 ≤ f.payload.length) (bytes : List UInt8) :
    f.encode ≠ .ok bytes := by
  intro hbytes
  have hlength := (encode_eq_ok_iff.mp hbytes).1
  have hlt := f.header.payloadLength.toNat_lt
  omega

end Frame

end TopicBus
