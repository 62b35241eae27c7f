import TopicBus.Connection.Operation
import TopicBus.Proofs.Broker.Requests
import TopicBus.Proofs.Document.RoundTrip
import TopicBus.Proofs.Json.Size
import TopicBus.Proofs.Wire.Stream

/-!
What a connection writes. Every frame that it composes is read back from its bytes as it is
(`Frame.SentAs`), so a stream of them is heard frame by frame (`segment_sent`). Its messages to the
broker are read there as the requests that they stand for, and are short.
-/

namespace TopicBus

open Wire

/-! ## Frames and their bytes -/

/-- The frame is written as these bytes, and it is what they are read as. -/
structure Frame.SentAs (f : Frame) (bytes : List UInt8) : Prop where
  encodes : f.encode = .ok bytes
  version : f.header.version = protocolVersion
  headerLength : f.header.headerLength = f.header.encodedLength

namespace Frame.SentAs

variable {maxPayload : Nat} {f : Frame} {fs : List Frame} {bytes : List UInt8}
  {log : List (List UInt8)}

/-- A stream begins with these bytes as with the item of this frame. -/
def toSentFrame (h : f.SentAs bytes) (hwithin : f.payload.length ≤ maxPayload) :
    SentFrame maxPayload := ⟨f, bytes, h.encodes, h.version, hwithin⟩

theorem eq_of_gives (h : f.SentAs bytes) (hwithin : f.payload.length ≤ maxPayload)
    {result : Decoded} (hresult : (Item.sent (h.toSentFrame hwithin)).Gives result) :
    result = .frame f := by
  obtain ⟨g, rfl⟩ := hresult.exists_frame
  obtain ⟨l, hl, rfl⟩ := hresult
  obtain ⟨-, hv, -⟩ := Frame.encode_eq_ok_iff.mp h.encodes
  have hlength : l = f.header.headerLength := by
    rw [h.headerLength, ← UInt16.toNat_inj, hv.encodedLength_toNat]
    exact hl
  subst hlength
  rfl

/-- Bytes are read as one frame only. -/
theorem unique {g : Frame} (h : f.SentAs bytes) (h' : g.SentAs bytes) : f = g := by
  let m := max f.payload.length g.payload.length
  have hf : f.payload.length ≤ m := Nat.le_max_left _ _
  have hg : g.payload.length ≤ m := Nat.le_max_right _ _
  obtain ⟨result, hresult, hfront⟩ := (Item.sent (h.toSentFrame hf)).front_eq []
  obtain ⟨result', hresult', hfront'⟩ := (Item.sent (h'.toSentFrame hg)).front_eq []
  have hsame : result = result' := by
    have hboth := hfront.symm.trans hfront'
    injection hboth
  rw [h.eq_of_gives hf hresult, h'.eq_of_gives hg hresult'] at hsame
  exact Decoded.frame.inj hsame

theorem exists_items (h : List.Forall₂ Frame.SentAs fs log)
    (hwithin : ∀ f ∈ fs, f.payload.length ≤ maxPayload) :
    ∃ items : List (Item maxPayload), stream items = log.flatten ∧
      ∀ results, List.Forall₂ Item.Gives items results → results = fs.map .frame := by
  induction h with
  | nil =>
    refine ⟨[], rfl, ?_⟩
    intro results hresults
    cases hresults
    rfl
  | cons hf _ ih =>
    obtain ⟨hfirst, hrest⟩ := List.forall_mem_cons.mp hwithin
    obtain ⟨items, hbytes, hgives⟩ := ih hrest
    refine ⟨.sent (hf.toSentFrame hfirst) :: items, ?_, ?_⟩
    · rw [stream, List.flatMap_cons, List.flatten_cons, ← hbytes]
      rfl
    · intro results hresults
      cases hresults with
      | cons hresult hresults =>
        rw [hf.eq_of_gives hfirst hresult, hgives _ hresults]
        rfl

/-- What is written one after the other stands one after the other in the stream. -/
theorem segment_sent (h : List.Forall₂ Frame.SentAs fs log)
    (hwithin : ∀ f ∈ fs, f.payload.length ≤ maxPayload) (rest : List UInt8) :
    segment maxPayload (log.flatten ++ rest) =
        ⟨fs.map .frame ++ (segment maxPayload rest).results, (segment maxPayload rest).rest⟩ ∧
      (segment maxPayload (log.flatten ++ rest)).isLost = (segment maxPayload rest).isLost := by
  obtain ⟨items, hbytes, hgives⟩ := exists_items h hwithin
  obtain ⟨results, hresults, hsegment⟩ := segment_stream items
  rw [hgives results hresults, hbytes] at hsegment
  exact hsegment rest

/-- And it is heard so, however the bytes are cut. -/
theorem heard_sent (h : List.Forall₂ Frame.SentAs fs log)
    (hwithin : ∀ f ∈ fs, f.payload.length ≤ maxPayload) {chunks : List (List UInt8)}
    (hchunks : chunks.flatten = log.flatten) :
    heard ((Reader.ofLimit maxPayload).feedAll chunks).2 = fs.map .frame := by
  have hempty : front maxPayload [] = .unfinished := rfl
  obtain ⟨hsegment, -⟩ := segment_sent h hwithin []
  rw [segment_unfinished hempty, List.append_nil] at hsegment
  have hheard := Reader.heard_feedAll chunks hempty
  rw [List.nil_append, hchunks, hsegment, List.append_nil] at hheard
  exact hheard

end Frame.SentAs

namespace Header

/-- The header has the version and, as long as it fits the field, the size that it is written
with. -/
structure Measured (h : Header) : Prop where
  version : h.version = protocolVersion
  headerLength : h.headerLength = UInt16.ofNat (min h.encodedSize 65535)

theorem measured_forTopic (topic : String) : (forTopic topic).Measured := ⟨rfl, rfl⟩

theorem Measured.withReplyTopic {h : Header} (hm : h.Measured) (topic : String) :
    (h.withReplyTopic topic).Measured := ⟨hm.version, rfl⟩

theorem Measured.withFlags {h : Header} (hm : h.Measured) (flags : Flags) :
    ({ h with flags := flags } : Header).Measured := ⟨hm.version, hm.headerLength⟩

end Header

namespace Connection

/-- A frame that can be composed is read back as it is. -/
theorem compose_sentAs {c c' : Connection} {header : Header} {payload bytes : List UInt8}
    (hm : header.Measured) (h : c.compose header payload = (c', .ok bytes)) :
    c' = { c with nextSequence := c.nextSequence + 1 } ∧
      (Frame.ofPayload { header with sequence := c.nextSequence } payload).SentAs bytes := by
  rw [compose, Prod.mk.injEq] at h
  obtain ⟨hc, hencode⟩ := h
  obtain ⟨-, hv, -⟩ := Frame.encode_eq_ok_iff.mp hencode
  refine ⟨hc.symm, hencode, hm.version, ?_⟩
  have hsize : header.encodedSize ≤ maxHeaderSize := hv.encodedSize_mem.2
  rw [maxHeaderSize, fixedSize, lengthSize, maxTopicSize] at hsize
  have hlength := hm.headerLength
  rw [Nat.min_eq_left (by omega)] at hlength
  exact hlength

end Connection

/-! ## Messages to the broker -/

namespace Control

variable {f : Frame} {expression inbox : String} {id : UInt32} {d : Document}

theorem subscribe_eq_ok_iff : subscribe expression id = .ok d ↔
    id.toNat < 0x80000000 ∧ d = (Document.empty.setString "topic" expression).setInt32 "route_id"
      (Int32.ofInt id.toNat) := by
  unfold subscribe
  split_ifs with hid
  · rw [Except.ok.injEq, eq_comm]
    exact (and_iff_right hid).symm
  · exact iff_of_false nofun fun h => hid h.1

theorem wellFormed_hello (inbox : String) : (hello inbox).WellFormed :=
  Document.wellFormed_empty.set (.text inbox) "inbox"

theorem wellFormed_subscribe (h : subscribe expression id = .ok d) : d.WellFormed := by
  obtain ⟨-, rfl⟩ := subscribe_eq_ok_iff.mp h
  exact (Document.wellFormed_empty.set (.text expression) "topic").set
    (.integer (Document.isWord_int32 _)) "route_id"

/-- The broker reads the announcement of an inbox as such. -/
theorem request?_hello (htopic : f.topic = helloTopic) (hpayload : f.payload = (hello inbox).encode)
    (h : IsExpression inbox) : request? f = some (.hello inbox) := by
  have hflat : (hello inbox).nesting ≤ Json.maxNesting := Nat.le_of_ble_eq_true rfl
  have hdocument : f.document = .ok (hello inbox) := by
    rw [Frame.document, hpayload, Document.decode_encode_eq (wellFormed_hello inbox), if_pos hflat]
  have hne : helloTopic ≠ subscribeTopic := by decide
  rw [request?, hdocument]
  simp only [htopic, hne, ↓reduceIte]
  have hfield : (hello inbox).getString? "inbox" = some inbox := rfl
  rw [hello?, hfield]
  exact if_pos h

/-- The broker reads a subscription as such. -/
theorem request?_subscribe (hd : subscribe expression id = .ok d)
    (htopic : f.topic = subscribeTopic) (hpayload : f.payload = d.encode)
    (h : IsExpression expression) : request? f = some (.subscribe expression id) := by
  have hwell := wellFormed_subscribe hd
  obtain ⟨hid, rfl⟩ := subscribe_eq_ok_iff.mp hd
  have hflat : ((Document.empty.setString "topic" expression).setInt32 "route_id"
      (Int32.ofInt id.toNat)).nesting ≤ Json.maxNesting := Nat.le_of_ble_eq_true rfl
  have hdocument : f.document = .ok ((Document.empty.setString "topic" expression).setInt32
      "route_id" (Int32.ofInt id.toNat)) := by
    rw [Frame.document, hpayload, Document.decode_encode_eq hwell, if_pos hflat]
  have hint : (Int32.ofInt id.toNat).toInt = id.toNat := by
    rw [Int32.toInt_ofInt_of_le (by omega) (by omega)]
  have hexpression : ((Document.empty.setString "topic" expression).setInt32 "route_id"
      (Int32.ofInt id.toNat)).getString? "topic" = some expression := rfl
  have hnumber : ((Document.empty.setString "topic" expression).setInt32 "route_id"
      (Int32.ofInt id.toNat)).getInt32? "route_id" = some (Int32.ofInt id.toNat) := by
    change Document.int32? (Int32.ofInt id.toNat).toInt = _
    rw [hint, Document.int32?, if_pos (by omega)]
  rw [request?, hdocument]
  simp only [htopic, ↓reduceIte]
  rw [subscribe?, hexpression, hnumber]
  simp only [hint, Int.toNat_natCast, UInt32.ofNat_toNat]
  exact if_pos ⟨h, by omega⟩

/-! ## Their size -/

open String in
theorem length_hello_le (h : inbox.utf8ByteSize ≤ 128) : (hello inbox).encode.length ≤ 1024 := by
  have hlength : (hello inbox).encode.length = utf8Len ('\x7b' :: Json.writeText "inbox"
      (':' :: Json.writeText inbox ['\x7d'])) := utf8ByteSize_ofList _
  have hname := Json.utf8Len_writeText_le "inbox" (':' :: Json.writeText inbox ['\x7d'])
  have hvalue := Json.utf8Len_writeText_le inbox ['\x7d']
  have hpunctuation : '\x7b'.utf8Size = 1 ∧ ':'.utf8Size = 1 ∧ '\x7d'.utf8Size = 1 := by decide
  have hsize : "inbox".utf8ByteSize = 5 := rfl
  simp only [utf8Len_cons, utf8Len_nil, hpunctuation, hsize] at hlength hname hvalue
  omega

open String in
theorem length_subscribe_le (hd : subscribe expression id = .ok d)
    (h : expression.utf8ByteSize ≤ 128) : d.encode.length ≤ 1024 := by
  obtain ⟨hid, rfl⟩ := subscribe_eq_ok_iff.mp hd
  have hint : (Int32.ofInt id.toNat).toInt = id.toNat :=
    Int32.toInt_ofInt_of_le (by omega) (by omega)
  let behindNumber := ',' :: Json.writeText "topic" (':' :: Json.writeText expression ['\x7d'])
  let behindName := ':' :: Json.writeInteger (Int32.ofInt id.toNat).toInt behindNumber
  have hlength : ((Document.empty.setString "topic" expression).setInt32 "route_id"
      (Int32.ofInt id.toNat)).encode.length =
        utf8Len ('\x7b' :: Json.writeText "route_id" behindName) := utf8ByteSize_ofList _
  have hnumberName := Json.utf8Len_writeText_le "route_id" behindName
  have htenFigures : id.toNat < 10 ^ 10 := by omega
  have hnumber := Json.utf8Len_writeInteger_le (by decide) htenFigures behindNumber
  have hname := Json.utf8Len_writeText_le "topic" (':' :: Json.writeText expression ['\x7d'])
  have hvalue := Json.utf8Len_writeText_le expression ['\x7d']
  have hpunctuation : '\x7b'.utf8Size = 1 ∧ ':'.utf8Size = 1 ∧ ','.utf8Size = 1 ∧
      '\x7d'.utf8Size = 1 := by decide
  have hsize : "route_id".utf8ByteSize = 8 ∧ "topic".utf8ByteSize = 5 := by decide
  simp only [behindName, behindNumber, hint, utf8Len_cons, utf8Len_nil, hpunctuation, hsize]
    at hlength hnumberName hnumber hname hvalue
  omega

end Control

end TopicBus
