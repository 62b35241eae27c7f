import TopicBus.Proofs.Broker.Effect
import TopicBus.Proofs.Wire.Chunks
import TopicBus.Proofs.Wire.Encoding

/-!
Frames on their way through the broker, byte by byte. A frame off the wire keeps all its fields but
the control field, so a copy is written as the bytes that came in under another number
(`copies_encode`), unless its topic or reply topic is present and empty: such a frame is read but
cannot be written, and its copies are lost (`emptyReply_is_lost`).
-/

namespace TopicBus

open Wire

namespace Wire

/-- The bytes of a frame with another control field. -/
def retag (control : UInt32) (bytes : List UInt8) : List UInt8 :=
  bytes.take 12 ++ putUInt32 control ++ bytes.drop 16

end Wire

namespace Header

variable {h : Header} {bytes : List UInt8}

theorem layout_control (h : Header) (size : UInt16) (control : UInt32) (rest : List UInt8) :
    ({ h with control := control } : Header).layout size ++ rest =
      retag control (h.layout size ++ rest) := by
  rw [layout_eq, layout_eq]
  rfl

/-- The length field of a header that was read is the size that would be written. -/
theorem Spells.encodedLength_eq (hs : Spells bytes h) : h.encodedLength = h.headerLength := by
  have hsize := hs.headerLength
  rw [hs.layout, length_layout] at hsize
  rw [encodedLength, ← hsize, UInt16.ofNat_toNat]

/-- A header that was read fails the check for an empty topic only. -/
theorem Spells.validate_eq (hs : Spells bytes h) :
    h.validate = if h.topic = "" then .error (.invalidArgument (.emptyTopic "topic"))
      else if h.replyTopic = some "" then .error (.invalidArgument (.emptyTopic "reply topic"))
      else .ok () := by
  have hpos {s : String} (hne : s ≠ "") : 0 < s.utf8ByteSize :=
    Nat.pos_of_ne_zero fun hzero => hne (String.utf8ByteSize_eq_zero_iff.mp hzero)
  by_cases htopic : h.topic = ""
  · rw [if_pos htopic, validate, htopic]
    rfl
  have hok : Topic.validate "topic" h.topic = .ok () :=
    Topic.validate_eq_ok_iff.mpr ⟨hpos htopic, hs.topic⟩
  rw [if_neg htopic]
  by_cases hreply : h.replyTopic = some ""
  · rw [if_pos hreply, validate, hok, hreply]
    rfl
  · rw [if_neg hreply, validate_eq_ok_iff]
    refine ⟨hpos htopic, hs.topic, fun r hr => hpos ?_, hs.replyTopic, hs.request⟩
    rintro rfl
    exact hreply hr

end Header

/-- The bytes of a frame that a stream begins with. -/
theorem front_frame {maxPayload size : Nat} {s : List UInt8} {f : Frame}
    (h : front maxPayload s = .whole size (.frame f)) :
    ∃ header, s = header ++ f.payload ++ s.drop size ∧ Header.Spells header f.header ∧
      f.header.payloadLength.toNat = f.payload.length := by
  simp only [front] at h
  split_ifs at h with hpre hbound hfull hmax hall
  injection h with hsize hresult
  cases hread : Header.read (s.take (numberAt 2 2 s)) with
  | error why =>
    rw [Decoded.ofParts, hread] at hresult
    cases hresult
  | ok header =>
    rw [Decoded.ofParts, hread] at hresult
    injection hresult with hf
    subst hf
    have hspells := Header.read_eq_ok_iff.mp hread
    refine ⟨_, ?_, hspells, ?_⟩
    · dsimp only
      rw [← hsize, List.append_assoc, ← List.drop_drop, List.take_append_drop,
        List.take_append_drop]
    · have hat := (Header.numberAt_layout header header.headerLength []).2
      rw [List.append_nil, ← hspells.layout, numberAt_take s (by omega)] at hat
      rw [← hat, List.length_take, List.length_drop]
      omega

namespace Decoder

theorem decode_frame {maxPayload : Nat} {d : Decoder} {s rest : List UInt8} {f : Frame}
    (h : (ofLimit maxPayload).decode s = (d, rest, .frame f)) :
    ∃ header, s = header ++ f.payload ++ rest ∧ Header.Spells header f.header ∧
      f.header.payloadLength.toNat = f.payload.length := by
  cases hfront : front maxPayload s with
  | unfinished =>
    rw [decode_unfinished hfront] at h
    nomatch h
  | lost why =>
    obtain ⟨d', buffer, hlost⟩ := decode_lost hfront
    rw [hlost] at h
    nomatch h
  | whole size result =>
    rw [decode_whole hfront, Prod.mk.injEq, Prod.mk.injEq] at h
    obtain ⟨-, rfl, rfl⟩ := h
    exact front_frame hfront

end Decoder

namespace Frame

/-- What is written for a copy of a frame that came in as `header` and its payload. -/
theorem tagged_encode {header : List UInt8} {f : Frame} (hs : Header.Spells header f.header)
    (hlength : f.header.payloadLength.toNat = f.payload.length) (control : UInt32) :
    (f.tagged control).encode =
      if f.topic = "" then .error (.invalidArgument (.emptyTopic "topic"))
      else if f.header.replyTopic = some "" then
        .error (.invalidArgument (.emptyTopic "reply topic"))
      else .ok (retag control (header ++ f.payload)) := by
  have hbytes : (f.tagged control).header.layout (f.tagged control).header.encodedLength ++
      f.payload = retag control (header ++ f.payload) := by
    rw [hs.layout, ← Header.layout_control, ← hs.encodedLength_eq]
    rfl
  have hencode : (f.tagged control).encode =
      f.header.validate >>= fun _ => .ok (retag control (header ++ f.payload)) := by
    have hfits : ¬(f.tagged control).header.payloadLength.toNat ≠
        (f.tagged control).payload.length := not_not.mpr hlength
    rw [encode_eq, if_neg hfits, ← hbytes]
    change (f.header.validate >>= _) >>= _ = f.header.validate >>= _
    cases f.header.validate <;> rfl
  rw [hencode, hs.validate_eq, Frame.topic]
  split_ifs <;> rfl

end Frame

namespace Broker

/-- A frame that the broker has read off a stream goes to each client once for each of its routes
that select the topic, as long as there is room. Every copy is written as the bytes of the frame but
for the control field, which holds the subscription, unless the topic or the reply topic is there
and empty. Then no copy can be written. -/
theorem copies_encode (settings : BrokerSettings) (ops : List Operation) (sender : ClientId)
    (maxPayload : Nat) (stream rest : List UInt8) (d : Decoder) (f : Frame)
    (h : (Decoder.ofLimit maxPayload).decode stream = (d, rest, .frame f)) :
    let b := (ofSettings settings).run ops
    ∃ bytes, stream = bytes ++ rest ∧
      (∀ o c, b.client? o = some c → ∃ c', (b.route sender f).1.client? o = some c' ∧
        c'.outbox.frames = c.outbox.frames ++
          ((b.subscriptionsFor o f.topic).take c.outbox.room).map f.tagged) ∧
      ∀ subscription, (f.tagged subscription).encode =
        if f.topic = "" then .error (.invalidArgument (.emptyTopic "topic"))
        else if f.header.replyTopic = some "" then
          .error (.invalidArgument (.emptyTopic "reply topic"))
        else .ok (bytes.take 12 ++ putUInt32 subscription ++ bytes.drop 16) := by
  intro b
  obtain ⟨header, hstream, hspells, hlength⟩ := Decoder.decode_frame h
  refine ⟨header ++ f.payload, hstream, ?_, Frame.tagged_encode hspells hlength⟩
  intro o c hc
  have hb : b.WellFormed := (wellFormed_ofSettings settings).run ops
  obtain ⟨c', hc', houtbox⟩ := hb.route_outbox sender f hc
  refine ⟨c', hc', ?_⟩
  rw [houtbox, List.map_take]
  rfl

/-- Someone listens to `T`. -/
def besideSender : List Operation :=
  [.register "a" 4, .register "b" 4,
    .route 1 (.ofPayload (.forTopic Control.subscribeTopic)
      (Utf8.encode "\x7b\"topic\": \"T\", \"route_id\": 3\x7d"))]

/-- A frame on `T` with two bytes of payload, and one byte behind it. -/
def plainBytes : List UInt8 :=
  [0, 1, 0, 25, 0, 0, 0, 7, 0, 0, 0, 0, 0, 0, 0, 9, 0, 0, 0, 2, 0, 0, 0, 1, 0x54, 0x68, 0x69, 0xff]

def plainFrame : Frame := ⟨⟨1, 25, 7, .none, 9, 2, "T", none⟩, [0x68, 0x69]⟩

theorem copies_encode_plain :
    (Decoder.ofLimit 1024).decode plainBytes = (.ofLimit 1024, [0xff], .frame plainFrame) ∧
      ∃ c, (((ofSettings {}).run besideSender).route 2 plainFrame).1.client? 1 = some c ∧
        c.outbox.frames = [plainFrame.tagged 3] ∧ (plainFrame.tagged 3).encode =
          .ok [0, 1, 0, 25, 0, 0, 0, 7, 0, 0, 0, 0, 0, 0, 0, 3, 0, 0, 0, 2, 0, 0, 0, 1, 0x54, 0x68,
            0x69] := by
  have hread : (Decoder.ofLimit 1024).decode plainBytes =
      (.ofLimit 1024, [0xff], .frame plainFrame) := rfl
  have hqueue : (((ofSettings {}).run besideSender).client? 1).map (fun c => c.outbox.frames) =
      some [] := by decide +kernel
  have hroom : (((ofSettings {}).run besideSender).client? 1).map (fun c => c.outbox.room) =
      some 4 := by decide +kernel
  have hsubscriptions :
      ((ofSettings {}).run besideSender).subscriptionsFor 1 plainFrame.topic = [3] := by
    decide +kernel
  obtain ⟨bytes, hbytes, hclient, hencode⟩ := copies_encode {} besideSender 2 1024 plainBytes [0xff]
    (.ofLimit 1024) plainFrame hread
  obtain ⟨c, hc, hframes⟩ := Option.map_eq_some_iff.mp hqueue
  rw [hc, Option.map_some, Option.some.injEq] at hroom
  obtain ⟨c', hc', hcopies⟩ := hclient 1 c hc
  have hwhole : bytes = plainBytes.take 27 :=
    List.append_cancel_right (hbytes.symm.trans (List.take_append_drop 27 plainBytes).symm)
  refine ⟨hread, c', hc', ?_, ?_⟩
  · rw [hcopies, hframes, hroom, hsubscriptions]
    rfl
  · rw [hencode, hwhole]
    rfl

/-- The same frame with a reply topic of no bytes. -/
def emptyReplyBytes : List UInt8 :=
  [0, 1, 0, 29, 0, 0, 0, 7, 0, 0, 0, 0, 0, 0, 0, 9, 0, 0, 0, 2, 0, 0, 0, 1, 0x54, 0, 0, 0, 0,
    0x68, 0x69]

def emptyReplyFrame : Frame := ⟨⟨1, 29, 7, .none, 9, 2, "T", some ""⟩, [0x68, 0x69]⟩

/-- It is read and queued, and its copy cannot be written. -/
theorem emptyReply_is_lost :
    (Decoder.ofLimit 1024).decode emptyReplyBytes = (.ofLimit 1024, [], .frame emptyReplyFrame) ∧
      ((((ofSettings {}).run besideSender).route 2 emptyReplyFrame).1.client? 1).map
        (fun c => c.outbox.frames) = some [emptyReplyFrame.tagged 3] ∧
      (emptyReplyFrame.tagged 3).encode =
        .error (.invalidArgument (.emptyTopic "reply topic")) := by
  refine ⟨rfl, ?_, rfl⟩
  decide +kernel

end Broker

end TopicBus
