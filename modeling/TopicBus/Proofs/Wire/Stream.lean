import TopicBus.Proofs.Wire.Chunks
import TopicBus.Proofs.Wire.Encoding

/-!
Streams of frames, some of them damaged. A damaged frame still tells where it ends, so the decoder
skips exactly its bytes and its neighbours come out as they were sent. One item in front of a stream
is one step of the segmentation (`Item.front_eq`); the whole stream follows by induction
(`segment_stream`), and a frame that is cut short shows nothing yet (`Item.front_take`).
-/

namespace TopicBus

open Wire

/-- A frame as its sender writes it. -/
structure SentFrame (maxPayload : Nat) where
  frame : Frame
  bytes : List UInt8
  encodes : frame.encode = .ok bytes
  version : frame.header.version = protocolVersion
  within : frame.payload.length ≤ maxPayload

/-- A frame whose lengths are in order while its header cannot be read. -/
structure DamagedFrame (maxPayload : Nat) where
  header : List UInt8
  payload : List UInt8
  unreadable : ∀ h, Header.decode header ≠ .ok h
  headerLength : Header.peekLength? header = some header.length
  atLeast : minHeaderSize ≤ header.length
  atMost : header.length ≤ maxHeaderSize
  payloadLength : Header.peekPayloadLength? header = some payload.length
  within : payload.length ≤ maxPayload

/-- One frame of a stream. -/
inductive Item (maxPayload : Nat) where
  | sent (s : SentFrame maxPayload)
  | damaged (d : DamagedFrame maxPayload)

variable {maxPayload : Nat}

namespace Item

def bytes : Item maxPayload → List UInt8
  | .sent s => s.bytes
  | .damaged d => d.header ++ d.payload

/-- What the decoder gives for an item: the frame as it was sent, with the size of its header in the
length field, or a fault of the header. -/
def Gives : Item maxPayload → Decoded → Prop
  | .sent s, .frame f => ∃ l : UInt16, l.toNat = s.frame.header.encodedSize ∧
      f = ⟨{ s.frame.header with headerLength := l }, s.frame.payload⟩
  | .damaged _, .fault (.decode _) => True
  | _, _ => False

theorem Gives.exists_frame {s : SentFrame maxPayload} {result : Decoded}
    (h : (Item.sent s).Gives result) : ∃ f, result = .frame f := by
  match result with
  | .frame f => exact ⟨f, rfl⟩
  | .more | .fault _ => exact False.elim h

theorem Gives.exists_fault {d : DamagedFrame maxPayload} {result : Decoded}
    (h : (Item.damaged d).Gives result) : ∃ why, result = .fault (.decode why) := by
  match result with
  | .fault (.decode why) => exact ⟨why, rfl⟩
  | .more | .frame _ | .fault (.invalidArgument _) | .fault (.connectionLost _) | .fault .timeout
  | .fault (.protocol _) | .fault (.exhausted _) | .fault (.alreadyRunning _) | .fault .settings
  | .fault (.io _) => exact False.elim h

/-- A header and a payload of the sizes that the header announces, within the limits. -/
structure Framed (maxPayload : Nat) (header payload : List UInt8) : Prop where
  headerLength : numberAt 2 2 header = header.length
  payloadLength : numberAt 16 4 header = payload.length
  atLeast : minHeaderSize ≤ header.length
  atMost : header.length ≤ maxHeaderSize
  within : payload.length ≤ maxPayload

theorem Framed.front_eq {header payload : List UInt8} (h : Framed maxPayload header payload)
    (rest : List UInt8) :
    front maxPayload (header ++ payload ++ rest) =
      .whole (header ++ payload).length (.ofParts header payload) := by
  obtain ⟨hheader, hpayload, hmin, hmax, hwithin⟩ := h
  rw [minHeaderSize, fixedSize, lengthSize] at hmin
  rw [maxHeaderSize, fixedSize, lengthSize, maxTopicSize] at hmax
  have hlen : (header ++ (payload ++ rest)).length =
      header.length + payload.length + rest.length := by
    rw [List.length_append, List.length_append, Nat.add_assoc]
  have hh : numberAt 2 2 (header ++ (payload ++ rest)) = header.length := by
    rw [numberAt_append _ (by omega), hheader]
  have hp : numberAt 16 4 (header ++ (payload ++ rest)) = payload.length := by
    rw [numberAt_append _ (by omega), hpayload]
  rw [List.append_assoc, List.length_append]
  simp only [front, hh, hp, hlen, List.take_left, List.drop_left]
  rw [if_neg (by omega), if_neg (by omega), if_neg (by omega), if_neg (by omega),
    if_neg (by omega)]

theorem framed_sent (s : SentFrame maxPayload) :
    ∃ header, s.bytes = header ++ s.frame.payload ∧
      Framed maxPayload header s.frame.payload ∧
        Header.read header =
          .ok { s.frame.header with headerLength := s.frame.header.encodedLength } := by
  obtain ⟨hlength, hv, hbytes⟩ := Frame.encode_eq_ok_iff.mp s.encodes
  obtain ⟨hmin, hmax⟩ := hv.encodedSize_mem
  have hsize := Header.length_layout s.frame.header s.frame.header.encodedLength
  have hat := Header.numberAt_layout s.frame.header s.frame.header.encodedLength []
  rw [List.append_nil, hv.encodedLength_toNat, hlength, ← hsize] at hat
  rw [← hsize] at hmin hmax
  exact ⟨_, hbytes, ⟨hat.1, hat.2, hmin, hmax, s.within⟩,
    Header.read_eq_ok_iff.mpr (Header.spells_of_validate hv s.version)⟩

theorem framed_damaged (d : DamagedFrame maxPayload) :
    Framed maxPayload d.header d.payload ∧ ∃ why, Header.read d.header = .error why := by
  have hmin := d.atLeast
  have hheader := d.headerLength
  have hpayload := d.payloadLength
  rw [minHeaderSize, fixedSize, lengthSize] at hmin
  rw [Header.peekLength?_eq, if_neg (by omega), Option.some.injEq] at hheader
  rw [Header.peekPayloadLength?_eq, if_neg (by omega), Option.some.injEq] at hpayload
  refine ⟨⟨hheader, hpayload, d.atLeast, d.atMost, d.within⟩, ?_⟩
  cases hread : Header.read d.header with
  | ok h =>
    have hdecode : Header.decode d.header = .ok h := by rw [Header.decode, hread]; rfl
    exact absurd hdecode (d.unreadable h)
  | error why => exact ⟨why, rfl⟩

/-- An item at the front of a stream is a whole frame. -/
theorem front_eq (item : Item maxPayload) (rest : List UInt8) :
    ∃ result, item.Gives result ∧
      front maxPayload (item.bytes ++ rest) = .whole item.bytes.length result := by
  cases item with
  | sent s =>
    obtain ⟨header, hbytes, hframed, hread⟩ := framed_sent s
    obtain ⟨-, hv, -⟩ := Frame.encode_eq_ok_iff.mp s.encodes
    refine ⟨.ofParts header s.frame.payload, ?_, ?_⟩
    · rw [Decoded.ofParts, hread]
      exact ⟨_, hv.encodedLength_toNat, rfl⟩
    · rw [bytes, hbytes]
      exact hframed.front_eq rest
  | damaged d =>
    obtain ⟨hframed, why, hread⟩ := framed_damaged d
    refine ⟨.ofParts d.header d.payload, ?_, hframed.front_eq rest⟩
    rw [Decoded.ofParts, hread]
    trivial

/-- A part of a frame shows nothing yet: what it shows would stay when the rest of it arrives. -/
theorem front_take (item : Item maxPayload) (n : Fin item.bytes.length) :
    front maxPayload (item.bytes.take n) = .unfinished := by
  obtain ⟨result, -, hwhole⟩ := item.front_eq []
  rw [List.append_nil] at hwhole
  by_contra hfront
  have hmore := front_append (item.bytes.drop n) hfront
  rw [List.take_append_drop, hwhole] at hmore
  have hsize := (front_whole hmore.symm).2
  rw [List.length_take] at hsize
  have hn := n.isLt
  omega

end Item

/-- The bytes of the items, one after the other. -/
def stream (items : List (Item maxPayload)) : List UInt8 := items.flatMap Item.bytes

/-- A stream gives what its items give, and goes on with what follows them. -/
theorem segment_stream (items : List (Item maxPayload)) :
    ∃ results, List.Forall₂ Item.Gives items results ∧ ∀ rest,
      segment maxPayload (stream items ++ rest) =
        ⟨results ++ (segment maxPayload rest).results, (segment maxPayload rest).rest⟩ ∧
      (segment maxPayload (stream items ++ rest)).isLost = (segment maxPayload rest).isLost := by
  induction items with
  | nil => exact ⟨[], .nil, fun _ => ⟨rfl, rfl⟩⟩
  | cons item items ih =>
    obtain ⟨results, hgives, hsegment⟩ := ih
    -- What the first item gives does not depend on what follows it.
    obtain ⟨result, hresult, hfirst⟩ := item.front_eq []
    rw [List.append_nil] at hfirst
    refine ⟨result :: results, .cons hresult hgives, fun rest => ?_⟩
    have hfront : front maxPayload (item.bytes ++ (stream items ++ rest)) =
        .whole item.bytes.length result := by
      rw [front_append _ (by rw [hfirst]; exact nofun), hfirst]
    have hstream : stream (item :: items) ++ rest = item.bytes ++ (stream items ++ rest) := by
      rw [stream, List.flatMap_cons, List.append_assoc]
      rfl
    obtain ⟨heq, hlost⟩ := hsegment rest
    rw [hstream, isLost_whole hfront, segment_whole hfront, List.drop_left, heq]
    exact ⟨rfl, by rw [← heq, hlost]⟩

namespace Decoder

/-- The results of a stream that ends inside a frame or behind one. -/
theorem drain_stream_append {items : List (Item maxPayload)} {results : List Decoded}
    {rest : List UInt8} (hrest : front maxPayload rest = .unfinished)
    (h : segment maxPayload (stream items ++ rest) =
        ⟨results ++ (segment maxPayload rest).results, (segment maxPayload rest).rest⟩ ∧
      (segment maxPayload (stream items ++ rest)).isLost = (segment maxPayload rest).isLost) :
    (ofLimit maxPayload).drain (stream items ++ rest) =
      ((Reader.holding maxPayload rest).decoder, (Reader.holding maxPayload rest).buffer,
        results ++ [.more]) := by
  obtain ⟨heq, hlost⟩ := h
  rw [segment_unfinished hrest] at heq hlost
  have hdrain := (drains_segment (stream items ++ rest) hlost).eq_drain
  rw [heq, List.append_nil] at hdrain
  exact hdrain

/-- A fresh decoder gives back a stream item by item: each frame as it was sent, one fault for each
damaged frame, and then asks for more with nothing left over. The beginning of one more frame adds
nothing to that. A frame can be written exactly if its header passes the check and announces the
size of its payload, so no payload of 2^32 bytes or more is ever written. -/
theorem drain_stream (maxPayload : Nat) (items : List (Item maxPayload)) :
    (∃ results, List.Forall₂ Item.Gives items results ∧
      (ofLimit maxPayload).drain (stream items) = (ofLimit maxPayload, [], results ++ [.more]) ∧
      ∀ (next : Item maxPayload) (n : Fin next.bytes.length),
        ((ofLimit maxPayload).drain (stream items ++ next.bytes.take n)).2.2 =
          results ++ [.more]) ∧
    (∀ f : Frame, (∃ bytes, f.encode = .ok bytes) ↔
      f.header.payloadLength.toNat = f.payload.length ∧ f.header.validate = .ok ()) ∧
    ∀ f : Frame, 2 ^ 32 ≤ f.payload.length → ∃ why, f.encode = .error why := by
  refine ⟨?_, ?_, ?_⟩
  · obtain ⟨results, hgives, hsegment⟩ := segment_stream items
    refine ⟨results, hgives, ?_, fun next n => ?_⟩
    · have hdrain := drain_stream_append rfl (hsegment [])
      rw [List.append_nil] at hdrain
      exact hdrain
    · rw [drain_stream_append (next.front_take n) (hsegment _)]
  · intro f
    simp only [Frame.encode_eq_ok_iff, Header.validate_eq_ok_iff]
    constructor
    · rintro ⟨_, hlength, hv, -⟩
      exact ⟨hlength, hv⟩
    · rintro ⟨hlength, hv⟩
      exact ⟨_, hlength, hv, rfl⟩
  · intro f hsize
    cases hencode : f.encode with
    | ok bytes => exact absurd hencode (Frame.encode_ne_ok_of_le hsize bytes)
    | error why => exact ⟨why, rfl⟩

/-- One byte sent on the topic `T`. -/
def byteOnT : Item 8 := .sent ⟨.ofPayload (.forTopic "T") [7], _, rfl, rfl, by decide⟩

/-- One byte behind a header of a version that nobody reads. -/
def foreignVersion : Item 8 :=
  .damaged {
    header := [0, 2, 0, 24, 0, 0, 0, 0, 0, 0, 0, 0, 0, 0, 0, 0, 0, 0, 0, 1, 0, 0, 0, 0]
    payload := [7]
    unreadable := by
      intro h hread
      have hfault : Except.error (Fault.decode (.unsupportedVersion 2)) = .ok h := hread
      nomatch hfault
    headerLength := rfl
    atLeast := by decide
    atMost := by decide
    payloadLength := rfl
    within := by decide }

theorem drain_stream_around_foreignVersion :
    ∃ first why last, ((ofLimit 8).drain (stream [byteOnT, foreignVersion, byteOnT])).2.2 =
      [.frame first, .fault (.decode why), .frame last, .more] := by
  obtain ⟨⟨results, hgives, hdrain, -⟩, -⟩ := drain_stream 8 [byteOnT, foreignVersion, byteOnT]
  obtain _ | ⟨hfirst, _ | ⟨hmiddle, _ | ⟨hlast, _ | _⟩⟩⟩ := hgives
  obtain ⟨first, rfl⟩ := Item.Gives.exists_frame hfirst
  obtain ⟨why, rfl⟩ := Item.Gives.exists_fault hmiddle
  obtain ⟨last, rfl⟩ := Item.Gives.exists_frame hlast
  exact ⟨first, why, last, by rw [hdrain]; rfl⟩

end Decoder

end TopicBus
