import TopicBus.Proofs.Wire.Chunks

/-!
How much a decoder asks for. The size that it waits for is within its limits, whatever buffers it
has been called on (`Bounded`). A call on fewer bytes changes nothing (`decode_of_lt_wanted`), and a
call on exactly that many completes the step (`Completes`). So a decoder that asks for more needs
just that much, and has put little aside (`waits_for_needed`).
-/

namespace TopicBus

open Wire

namespace Decoder

variable {maxPayload : Nat} {d d' : Decoder} {buffer rest bytes : List UInt8}

/-- The decoder after a call on each of these buffers, whatever was done to the bytes in between. -/
def afterCalls (d : Decoder) : List (List UInt8) → Decoder
  | [] => d
  | buffer :: buffers => (d.decode buffer).1.afterCalls buffers

/-- What a call gives that has all the bytes of its step, and none behind them. -/
inductive Completes (maxPayload : Nat) (bytes : List UInt8) :
    Decoder → Decoder × List UInt8 × Decoded → Prop
  /-- The preamble stays where it is, as the beginning of the header. -/
  | preamble (hmin : 24 ≤ numberAt 2 2 bytes) (hmax : numberAt 2 2 bytes ≤ 284) :
      Completes maxPayload bytes (ofLimit maxPayload)
        (⟨maxPayload, .header (numberAt 2 2 bytes), none⟩, bytes, .more)
  | preambleLost (hbound : numberAt 2 2 bytes < 24 ∨ 284 < numberAt 2 2 bytes) :
      Completes maxPayload bytes (ofLimit maxPayload) (ofLimit maxPayload, bytes,
        .fault (.protocol (.headerLength (numberAt 2 2 bytes))))
  | header {size : Nat} (hpos : 0 < numberAt 16 4 bytes) (hmax : numberAt 16 4 bytes ≤ maxPayload) :
      Completes maxPayload bytes ⟨maxPayload, .header size, none⟩
        (⟨maxPayload, .payload (numberAt 16 4 bytes), some (Header.decode bytes)⟩, [], .more)
  /-- A frame without payload ends with its header. -/
  | headerAlone {size : Nat} (hnone : numberAt 16 4 bytes = 0) :
      Completes maxPayload bytes ⟨maxPayload, .header size, none⟩
        (ofLimit maxPayload, [], .ofParts bytes [])
  | headerLost {size : Nat} (hover : maxPayload < numberAt 16 4 bytes) :
      Completes maxPayload bytes ⟨maxPayload, .header size, none⟩ (ofLimit maxPayload, [],
        .fault (.protocol (.payloadLength (numberAt 16 4 bytes) maxPayload)))
  | payload {size : Nat} (header : List UInt8) :
      Completes maxPayload bytes ⟨maxPayload, .payload size, some (Header.decode header)⟩
        (ofLimit maxPayload, [], .ofParts header bytes)

/-! ## What is waited for -/

theorem decode_of_lt_wanted (h : buffer.length < d.wanted) :
    d.decode buffer = (d, buffer, .more) := by
  obtain ⟨m, awaiting, held⟩ := d
  cases awaiting with
  | preamble =>
    have hshort : buffer.length < 4 := h
    simp only [decode, Header.peekLength?_eq, hshort, ↓reduceIte]
  | header size =>
    have hshort : buffer.length < size := h
    simp only [decode, takeHeader, hshort, ↓reduceIte]
  | payload size =>
    have hshort : buffer.length < size := h
    simp only [decode, takePayload, hshort, ↓reduceIte]

theorem takePayload_more {n : Nat} (call : d.takePayload n buffer = (d', rest, .more)) :
    rest.length < d'.wanted := by
  unfold takePayload at call
  split_ifs at call with h
  · simp only [Prod.mk.injEq, and_true] at call
    obtain ⟨rfl, rfl⟩ := call
    exact h
  · cases hheld : d.held with
    | none => simp [hheld] at call
    | some header => cases header <;> simp [hheld] at call

theorem takeHeader_more {n : Nat} (call : d.takeHeader n buffer = (d', rest, .more)) :
    rest.length < d'.wanted := by
  simp only [takeHeader] at call
  split_ifs at call with hfull hmax
  · simp only [Prod.mk.injEq, and_true] at call
    obtain ⟨rfl, rfl⟩ := call
    exact hfull
  · simp at call
  · exact takePayload_more call

/-- More bytes are asked for only where some are missing. -/
theorem lt_wanted_of_more (call : d.decode buffer = (d', rest, .more)) :
    rest.length < d'.wanted := by
  obtain ⟨m, awaiting, held⟩ := d
  cases awaiting with
  | preamble =>
    rw [decode_preamble rfl] at call
    split_ifs at call with hpre hbound
    · simp only [Prod.mk.injEq, and_true] at call
      obtain ⟨rfl, rfl⟩ := call
      exact hpre
    · simp at call
    · exact takeHeader_more call
  | header size => exact takeHeader_more (d := ⟨m, .header size, held⟩) call
  | payload size => exact takePayload_more (d := ⟨m, .payload size, held⟩) call

/-! ## Limits -/

/-- A decoder with this limit that waits for no more than the limits of its step. -/
structure Bounded (maxPayload : Nat) (d : Decoder) : Prop where
  limit : d.maxPayload = maxPayload
  header : ∀ size, d.awaiting = .header size → 24 ≤ size ∧ size ≤ 284
  payload : ∀ size, d.awaiting = .payload size → size ≤ maxPayload

theorem bounded_of_preamble (hlimit : d.maxPayload = maxPayload) (h : d.awaiting = .preamble) :
    d.Bounded maxPayload where
  limit := hlimit
  header := fun _ hsize => nomatch h.symm.trans hsize
  payload := fun _ hsize => nomatch h.symm.trans hsize

theorem bounded_ofLimit (maxPayload : Nat) : (ofLimit maxPayload).Bounded maxPayload :=
  bounded_of_preamble rfl rfl

theorem Bounded.wanted_le (h : d.Bounded maxPayload) : d.wanted ≤ max 284 maxPayload := by
  unfold wanted
  split
  · simp only [preambleSize]
    omega
  · next size hsize =>
    have hbound := h.header size hsize
    omega
  · next size hsize =>
    have hbound := h.payload size hsize
    omega

theorem Bounded.takePayload (h : d.Bounded maxPayload) {n : Nat} (hn : n ≤ maxPayload)
    (buffer : List UInt8) : (d.takePayload n buffer).1.Bounded maxPayload := by
  unfold Decoder.takePayload
  split_ifs
  · refine ⟨h.limit, nofun, ?_⟩
    rintro size ⟨⟩
    exact hn
  · exact bounded_of_preamble h.limit rfl

theorem Bounded.takeHeader (h : d.Bounded maxPayload) {n : Nat} (hn : 24 ≤ n ∧ n ≤ 284)
    (buffer : List UInt8) : (d.takeHeader n buffer).1.Bounded maxPayload := by
  simp only [Decoder.takeHeader]
  split_ifs with hfull hmax
  · constructor
    · exact h.limit
    · rintro size ⟨⟩
      exact hn
    · rintro size ⟨⟩
  · exact bounded_of_preamble h.limit rfl
  · have hlimit := h.limit
    have hheld : Bounded maxPayload { d with held := some (Header.decode (buffer.take n)) } :=
      ⟨h.limit, h.header, h.payload⟩
    exact hheld.takePayload (by omega) _

theorem Bounded.decode (h : d.Bounded maxPayload) (buffer : List UInt8) :
    (d.decode buffer).1.Bounded maxPayload := by
  obtain ⟨m, awaiting, held⟩ := d
  cases awaiting with
  | preamble =>
    rw [decode_preamble rfl]
    split_ifs with hpre hbound
    · exact h
    · exact h
    · exact h.takeHeader (by omega) buffer
  | header size => exact h.takeHeader (h.header size rfl) buffer
  | payload size => exact h.takePayload (h.payload size rfl) buffer

/-- Calls keep a decoder within its limits, and it never awaits a payload without its header. -/
theorem Bounded.afterCalls (h : d.Bounded maxPayload) (hheader : d.HasHeader)
    (buffers : List (List UInt8)) :
    (d.afterCalls buffers).Bounded maxPayload ∧ (d.afterCalls buffers).HasHeader := by
  induction buffers generalizing d with
  | nil => exact ⟨h, hheader⟩
  | cons buffer buffers ih => exact ih (h.decode buffer) (decode_hasHeader hheader buffer).1

/-! ## Steps -/

/-- All the bytes of a step, and none behind them, complete it. -/
theorem Bounded.completes (h : d.Bounded maxPayload) (hheader : d.HasHeader)
    (hbytes : bytes.length = d.wanted) : Completes maxPayload bytes d (d.decode bytes) := by
  obtain ⟨m, awaiting, held⟩ := d
  obtain rfl : m = maxPayload := h.limit
  cases awaiting with
  | preamble =>
    have hlength : bytes.length = 4 := hbytes
    obtain rfl : held = none := hheader
    change Completes m bytes (ofLimit m) ((ofLimit m).decode bytes)
    rw [decode_ofLimit, if_neg (by omega)]
    split_ifs with hbound
    · exact .preambleLost hbound
    · rw [takeHeader_eq _ (by omega), if_pos (by omega)]
      exact .preamble (by omega) (by omega)
  | header size =>
    have hlength : bytes.length = size := hbytes
    obtain rfl : held = none := hheader
    have hsize := h.header size rfl
    change Completes m bytes ⟨m, .header size, none⟩
      (Decoder.takeHeader ⟨m, .header size, none⟩ size bytes)
    rw [takeHeader_eq _ (by omega), if_neg (by omega), List.drop_of_length_le (by omega),
      List.take_of_length_le (by omega)]
    split_ifs with hmax
    · exact .headerLost hmax
    · rw [takePayload_ofParts rfl]
      split_ifs with hpayload
      · exact .header hpayload (Nat.le_of_not_lt hmax)
      · rw [List.drop_nil, List.take_nil]
        exact .headerAlone (Nat.eq_zero_of_not_pos hpayload)
  | payload size =>
    have hlength : bytes.length = size := hbytes
    obtain ⟨read, hheld⟩ := hheader
    obtain rfl : held = some (Header.decode read) := hheld
    change Completes m bytes ⟨m, .payload size, some (Header.decode read)⟩
      (Decoder.takePayload ⟨m, .payload size, some (Header.decode read)⟩ size bytes)
    rw [takePayload_ofParts rfl, if_neg (by omega), List.drop_of_length_le (by omega),
      List.take_of_length_le (by omega)]
    exact .payload read

theorem stops_eq_false {result : Decoded} (hmore : result ≠ .more)
    (hlost : ∀ why, result ≠ .fault (.protocol why)) : result.stops = false := by
  unfold Decoded.stops
  split
  · exact absurd rfl hmore
  · next why => exact absurd rfl (hlost why)
  · rfl

/-- A decoder that has been called on any buffers is called once more. If it asks for more bytes, at
least one is missing, and less is in the buffer than the largest header and the largest payload
take. With fewer bytes than it asks for it asks again, and nothing has changed; with exactly as many
it completes the step that it is in. Every result that is no request for more and no violation ends
a frame. -/
theorem waits_for_needed (maxPayload : Nat) (buffers : List (List UInt8)) (buffer : List UInt8) :
    let d := (ofLimit maxPayload).afterCalls buffers
    (∀ d' rest, d.decode buffer = (d', rest, .more) →
      1 ≤ d'.needed rest.length ∧ rest.length < max 284 maxPayload ∧
      (∀ more : List UInt8, more.length < d'.needed rest.length →
        d'.decode (rest ++ more) = (d', rest ++ more, .more)) ∧
      ∀ more : List UInt8, more.length = d'.needed rest.length →
        Completes maxPayload (rest ++ more) d' (d'.decode (rest ++ more))) ∧
    ∀ d' rest result, d.decode buffer = (d', rest, result) → result ≠ .more →
      (∀ why, result ≠ .fault (.protocol why)) → d'.isIdle = true := by
  intro d
  obtain ⟨hbounded, hheader⟩ : d.Bounded maxPayload ∧ d.HasHeader :=
    (bounded_ofLimit maxPayload).afterCalls ofLimit_hasHeader buffers
  constructor
  · intro d' rest call
    have hbounded' : d'.Bounded maxPayload := by
      have hnext := hbounded.decode buffer
      rwa [call] at hnext
    have hheader' : d'.HasHeader := by
      have hnext := (decode_hasHeader hheader buffer).1
      rwa [call] at hnext
    have hmissing := lt_wanted_of_more call
    have hwanted := hbounded'.wanted_le
    refine ⟨by unfold needed; omega, by omega, fun more hmore => ?_, fun more hmore => ?_⟩
    · unfold needed at hmore
      exact decode_of_lt_wanted (by rw [List.length_append]; omega)
    · unfold needed at hmore
      exact hbounded'.completes hheader' (by rw [List.length_append]; omega)
  · intro d' rest result call hmore hlost
    rw [(decode_goes call (stops_eq_false hmore hlost)).1]
    rfl

end Decoder

end TopicBus
