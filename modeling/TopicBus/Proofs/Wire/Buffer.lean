import TopicBus.Proofs.Wire.Encoding

/-!
Headers written into a buffer. `Header.write` puts one field after the other behind what the buffer
holds. It checks the header before the first of them, so it leaves a buffer alone or adds exactly
what `Header.encode` gives (`write_run`), and what it has added is read back (`write_read`).
-/

namespace TopicBus

namespace Wire

/-- What writes into a buffer. If it fails, what it has written by then stays there. -/
abbrev Writing := ExceptT Fault (StateM (List UInt8))

def put (bytes : List UInt8) : Writing Unit := modify (· ++ bytes)

end Wire

namespace Header

open Wire

/-- Writes a header field by field behind what a buffer holds. -/
def write (h : Header) : Writing Unit := do
  h.validate
  put (putUInt16 h.version)
  put (putUInt16 (UInt16.ofNat h.encodedSize))
  put (putUInt32 h.sequence)
  put (putUInt32 h.flags.bits)
  put (putUInt32 h.control)
  put (putUInt32 h.payloadLength)
  put (putText h.topic)
  match h.replyTopic with
  | some r => put (putText r)
  | none => return ()

theorem write_of_error {h : Header} {why : Fault} (hv : h.validate = .error why)
    (buffer : List UInt8) : h.write.run.run buffer = (.error why, buffer) := by
  rw [write, hv]
  rfl

theorem write_of_ok {h : Header} (hv : h.validate = .ok ()) (buffer : List UInt8) :
    h.write.run.run buffer = (.ok (), buffer ++ h.layout h.encodedLength) := by
  have hrun : h.write.run.run buffer = (.ok (), buffer ++ putUInt16 h.version ++
      putUInt16 h.encodedLength ++ putUInt32 h.sequence ++ putUInt32 h.flags.bits ++
      putUInt32 h.control ++ putUInt32 h.payloadLength ++ putText h.topic ++
      putReplyTopic h.replyTopic) := by
    rw [write, hv]
    cases h.replyTopic with
    | some r => rfl
    | none => exact congrArg (Prod.mk _) (List.append_nil _).symm
  rw [hrun, layout_eq, fixed]
  simp only [List.append_assoc]

/-- Writing into a buffer adds the bytes of the header, or nothing. -/
theorem write_run (h : Header) (buffer : List UInt8) :
    h.write.run.run buffer = match h.encode with
      | .ok bytes => (.ok (), buffer ++ bytes)
      | .error why => (.error why, buffer) := by
  rw [encode]
  cases hv : h.validate with
  | error why => exact write_of_error hv buffer
  | ok => exact write_of_ok hv buffer

theorem isRequest_iff (h : Header) : h.isRequest = true ↔ h.flags.bits &&& 1 = 1 := by
  simp [isRequest, Flags.contains, Flags.request]

/-- The check of a header in the words of the format. -/
theorem valid_iff (h : Header) : h.Valid ↔
    (1 ≤ h.topic.utf8ByteSize ∧ h.topic.utf8ByteSize ≤ 128) ∧
    (∀ r ∈ h.replyTopic, 1 ≤ r.utf8ByteSize ∧ r.utf8ByteSize ≤ 128) ∧
    (h.flags.bits &&& 1 = 1 → h.replyTopic.isSome = true) := by
  rw [← isRequest_iff]
  constructor
  · intro hv
    exact ⟨⟨hv.topic_pos, hv.topic_le⟩, fun r hr => ⟨hv.reply_pos r hr, hv.reply_le r hr⟩,
      hv.request⟩
  · rintro ⟨⟨hpos, hle⟩, hreply, hrequest⟩
    exact ⟨hpos, hle, fun r hr => (hreply r hr).1, fun r hr => (hreply r hr).2, hrequest⟩

/-- A header can be written exactly if its topic, and the reply topic where there is one, have 1 to
128 bytes, and no request is without a reply topic; otherwise the buffer is left as it was. What is
added are as many bytes as the header says that it takes, between 24 and 284, so that their number
fits the length field; what the field held before makes no difference. And under the version of this
format the header is read back from exactly these bytes, with their number in the field. -/
theorem write_read (h : Header) (buffer : List UInt8) :
    let written : Except Fault Unit × List UInt8 := h.write.run.run buffer
    (written.1 = .ok () ↔
      (1 ≤ h.topic.utf8ByteSize ∧ h.topic.utf8ByteSize ≤ 128) ∧
      (∀ r ∈ h.replyTopic, 1 ≤ r.utf8ByteSize ∧ r.utf8ByteSize ≤ 128) ∧
      (h.flags.bits &&& 1 = 1 → h.replyTopic.isSome = true)) ∧
    (written.1 ≠ .ok () → written.2 = buffer) ∧
    (written.1 = .ok () → ∃ bytes, written.2 = buffer ++ bytes ∧ h.encode = .ok bytes ∧
      bytes.length = h.encodedSize ∧ 24 ≤ h.encodedSize ∧ h.encodedSize ≤ 284 ∧
      (UInt16.ofNat h.encodedSize).toNat = h.encodedSize ∧
      (h.version = 1 →
        decode bytes = .ok { h with headerLength := UInt16.ofNat h.encodedSize })) ∧
    ∀ stale, { h with headerLength := stale }.write.run.run buffer = written := by
  intro written
  have hwritten := write_run h buffer
  cases hencode : h.encode with
  | error why =>
    have hinvalid : ¬h.Valid := fun hv =>
      nomatch hencode.symm.trans (encode_eq_ok_iff.mpr ⟨hv, rfl⟩)
    have hfailed : written = (.error why, buffer) := by
      rw [hencode] at hwritten
      exact hwritten
    rw [hfailed, ← valid_iff]
    exact ⟨iff_of_false nofun hinvalid, fun _ => rfl, nofun, fun _ => hfailed⟩
  | ok bytes =>
    obtain ⟨hv, hbytes⟩ : h.Valid ∧ bytes = h.layout h.encodedLength :=
      encode_eq_ok_iff.mp hencode
    obtain ⟨hmin, hmax⟩ := hv.encodedSize_mem
    have hdone : written = (.ok (), buffer ++ bytes) := by
      rw [hencode] at hwritten
      exact hwritten
    have hread (hversion : h.version = 1) :
        decode bytes = .ok { h with headerLength := h.encodedLength } := by
      rw [hbytes, decode, read_eq_ok_iff.mpr (spells_of_validate hv hversion)]
      rfl
    rw [hdone, ← valid_iff]
    refine ⟨iff_of_true rfl hv, fun hfailed => absurd rfl hfailed, fun _ => ?_, fun _ => hdone⟩
    exact ⟨bytes, rfl, rfl, by rw [hbytes, length_layout], hmin, hmax, hv.encodedLength_toNat,
      hread⟩

end Header

end TopicBus
