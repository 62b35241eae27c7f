import TopicBus.Proofs.Wire.Segmentation

/-!
The decoder against the segmentation of its whole stream. The state of a reader between two reads is
a function of the unfinished bytes alone (`holding`), and from that state a call gives what it would
give with all those bytes still in the buffer (`decode_holding`). So the cuts of a stream leave no
trace (`feedAll_segment`).
-/

namespace TopicBus

open Wire

variable {maxPayload : Nat}

namespace Decoder

/-! ## One call -/

theorem takePayload_ofParts {d : Decoder} {header : List UInt8}
    (h : d.held = some (Header.decode header)) (n : Nat) (buffer : List UInt8) :
    d.takePayload n buffer =
      if buffer.length < n then ({ d with awaiting := .payload n }, buffer, .more)
      else (.ofLimit d.maxPayload, buffer.drop n, .ofParts header (buffer.take n)) := by
  rw [takePayload, h, Decoded.ofParts_eq]
  cases Header.decode header <;> rfl

theorem takeHeader_eq (d : Decoder) {n : Nat} (hn : 20 ≤ n) (buffer : List UInt8) :
    d.takeHeader n buffer =
      if buffer.length < n then ({ d with awaiting := .header n }, buffer, .more)
      else if d.maxPayload < numberAt 16 4 buffer then
        ({ d with awaiting := .preamble }, buffer.drop n,
          .fault (.protocol (.payloadLength (numberAt 16 4 buffer) d.maxPayload)))
      else { d with held := some (Header.decode (buffer.take n)) }.takePayload
        (numberAt 16 4 buffer) (buffer.drop n) := by
  unfold takeHeader
  by_cases h : buffer.length < n
  · rw [if_pos h, if_pos h]
  · have hlen : (buffer.take n).length = n := by rw [List.length_take]; omega
    have hpeek : Header.peekPayloadLength? (buffer.take n) = some (numberAt 16 4 buffer) := by
      rw [Header.peekPayloadLength?_eq, if_neg (by omega), numberAt_take _ (by omega)]
    simp only [if_neg h, hpeek, Option.getD_some]

theorem decode_preamble {d : Decoder} (hd : d.awaiting = .preamble) (s : List UInt8) :
    d.decode s =
      if s.length < 4 then (d, s, .more)
      else if numberAt 2 2 s < 24 ∨ 284 < numberAt 2 2 s then
        (d, s, .fault (.protocol (.headerLength (numberAt 2 2 s))))
      else d.takeHeader (numberAt 2 2 s) s := by
  unfold decode
  simp only [hd, Header.peekLength?_eq]
  by_cases h : s.length < 4
  · simp only [h, ↓reduceIte]
  · simp only [h, ↓reduceIte]
    rfl

theorem decode_ofLimit (s : List UInt8) :
    (ofLimit maxPayload).decode s =
      if s.length < 4 then (ofLimit maxPayload, s, .more)
      else if numberAt 2 2 s < 24 ∨ 284 < numberAt 2 2 s then
        (ofLimit maxPayload, s, .fault (.protocol (.headerLength (numberAt 2 2 s))))
      else (ofLimit maxPayload).takeHeader (numberAt 2 2 s) s := decode_preamble rfl s

theorem decode_lost {s : List UInt8} {why : Violation} (h : front maxPayload s = .lost why) :
    ∃ d buffer, (ofLimit maxPayload).decode s = (d, buffer, .fault (.protocol why)) := by
  simp only [front] at h
  split_ifs at h with hpre hbound hfull hmax
  · injection h with hwhy
    rw [decode_ofLimit, if_neg hpre, if_pos hbound, hwhy]
    exact ⟨_, _, rfl⟩
  · injection h with hwhy
    rw [decode_ofLimit, if_neg hpre, if_neg hbound, takeHeader_eq _ (by omega), if_neg hfull]
    simp only [ofLimit, hmax, ↓reduceIte, hwhy]
    exact ⟨_, _, rfl⟩

theorem decode_whole {s : List UInt8} {size : Nat} {result : Decoded}
    (h : front maxPayload s = .whole size result) :
    (ofLimit maxPayload).decode s = (ofLimit maxPayload, s.drop size, result) := by
  simp only [front] at h
  split_ifs at h with hpre hbound hfull hmax hall
  injection h with hsize hresult
  have hrest : ¬(s.drop (numberAt 2 2 s)).length < numberAt 16 4 s := by
    rw [List.length_drop]; omega
  rw [decode_ofLimit, if_neg hpre, if_neg hbound, takeHeader_eq _ (by omega), if_neg hfull]
  simp only [ofLimit, hmax, ↓reduceIte]
  rw [takePayload_ofParts rfl, if_neg hrest, List.drop_drop, hsize, hresult]
  rfl

end Decoder

/-! ## Between two reads -/

/-- The reader that has taken in the unfinished bytes `s` since the last frame. -/
def Reader.holding (maxPayload : Nat) (s : List UInt8) : Reader :=
  let header := numberAt 2 2 s
  if s.length < 4 then ⟨⟨maxPayload, .preamble, none⟩, s⟩
  else if s.length < header then ⟨⟨maxPayload, .header header, none⟩, s⟩
  else ⟨⟨maxPayload, .payload (numberAt 16 4 s), some (Header.decode (s.take header))⟩,
    s.drop header⟩

namespace Decoder

theorem decode_unfinished {s : List UInt8} (h : front maxPayload s = .unfinished) :
    (ofLimit maxPayload).decode s =
      ((Reader.holding maxPayload s).decoder, (Reader.holding maxPayload s).buffer, .more) := by
  simp only [front] at h
  split_ifs at h with hpre hbound hfull hmax hall
  · simp only [decode_ofLimit, Reader.holding, hpre, ↓reduceIte]
    rfl
  · rw [decode_ofLimit, if_neg hpre, if_neg hbound, takeHeader_eq _ (by omega)]
    simp only [Reader.holding, hpre, hfull, ↓reduceIte]
    rfl
  · have hrest : (s.drop (numberAt 2 2 s)).length < numberAt 16 4 s := by
      rw [List.length_drop]; omega
    rw [decode_ofLimit, if_neg hpre, if_neg hbound, takeHeader_eq _ (by omega), if_neg hfull]
    simp only [ofLimit, hmax, ↓reduceIte]
    rw [takePayload_ofParts rfl, if_pos hrest]
    simp only [Reader.holding, hpre, hfull, ↓reduceIte]

/-- A part of a frame that has left the buffer is not missed. -/
theorem decode_holding {s : List UInt8} (t : List UInt8) (h : front maxPayload s = .unfinished) :
    (Reader.holding maxPayload s).decoder.decode ((Reader.holding maxPayload s).buffer ++ t) =
      (ofLimit maxPayload).decode (s ++ t) := by
  have hlonger {n : Nat} (hn : ¬s.length < n) : ¬(s ++ t).length < n := by
    rw [List.length_append]; omega
  simp only [front] at h
  split_ifs at h with hpre hbound hfull hmax hall
  · simp only [Reader.holding, hpre, ↓reduceIte]
    rfl
  · have hheader : numberAt 2 2 (s ++ t) = numberAt 2 2 s := numberAt_append t (by omega)
    rw [decode_ofLimit, if_neg (hlonger hpre), hheader, if_neg hbound]
    simp only [Reader.holding, hpre, hfull, ↓reduceIte]
    rfl
  · have hheader : numberAt 2 2 (s ++ t) = numberAt 2 2 s := numberAt_append t (by omega)
    have hpayload : numberAt 16 4 (s ++ t) = numberAt 16 4 s := numberAt_append t (by omega)
    rw [decode_ofLimit, if_neg (hlonger hpre), hheader, if_neg hbound, takeHeader_eq _ (by omega),
      if_neg (hlonger hfull), hpayload, List.take_append_of_le_length (by omega),
      List.drop_append_of_le_length (by omega)]
    simp only [Reader.holding, ofLimit, hpre, hfull, hmax, ↓reduceIte]
    rfl

/-! ## One read -/

/-- Calls until one of them stops, with what each gave and where they leave decoder and buffer. -/
inductive Drains : Decoder → List UInt8 → Decoder → List UInt8 → List Decoded → Prop
  | stop {d buffer d' buffer' result} (call : d.decode buffer = (d', buffer', result))
      (stops : result.stops = true) : Drains d buffer d' buffer' [result]
  | next {d buffer d₁ buffer₁ d' buffer' result results}
      (call : d.decode buffer = (d₁, buffer₁, result)) (goes : result.stops = false)
      (rest : Drains d₁ buffer₁ d' buffer' results) : Drains d buffer d' buffer' (result :: results)

theorem Drains.eq_drainFor {d d' : Decoder} {buffer buffer' : List UInt8} {results : List Decoded}
    (h : Drains d buffer d' buffer' results) {fuel : Nat} (hfuel : results.length ≤ fuel) :
    drainFor fuel d buffer = (d', buffer', results) := by
  induction h generalizing fuel with
  | stop call stops =>
    obtain ⟨fuel, rfl⟩ : ∃ n, fuel = n + 1 := ⟨fuel - 1, by simp at hfuel; omega⟩
    simp only [drainFor, call, stops, ↓reduceIte]
  | next call goes _ ih =>
    obtain ⟨fuel, rfl⟩ : ∃ n, fuel = n + 1 := ⟨fuel - 1, by simp at hfuel; omega⟩
    simp only [drainFor, call, goes, Bool.false_eq_true, ↓reduceIte]
    rw [ih (by simpa using hfuel)]

theorem takePayload_goes {d d' : Decoder} {n : Nat} {buffer buffer' : List UInt8}
    {result : Decoded} (call : d.takePayload n buffer = (d', buffer', result))
    (goes : result.stops = false) :
    d' = ofLimit d.maxPayload ∧ buffer'.length ≤ buffer.length := by
  unfold takePayload at call
  split_ifs at call with h
  · simp only [Prod.mk.injEq] at call
    rw [← call.2.2] at goes
    exact Bool.noConfusion goes
  · simp only [Prod.mk.injEq] at call
    obtain ⟨rfl, rfl, -⟩ := call
    exact ⟨rfl, by rw [List.length_drop]; omega⟩

theorem takeHeader_goes {d d' : Decoder} {n : Nat} {buffer buffer' : List UInt8} {result : Decoded}
    (call : d.takeHeader n buffer = (d', buffer', result)) (goes : result.stops = false) :
    d' = ofLimit d.maxPayload ∧ buffer'.length ≤ buffer.length := by
  simp only [takeHeader] at call
  split_ifs at call with hfull hmax
  · simp only [Prod.mk.injEq] at call
    rw [← call.2.2] at goes
    exact Bool.noConfusion goes
  · simp only [Prod.mk.injEq] at call
    rw [← call.2.2] at goes
    exact Bool.noConfusion goes
  · obtain ⟨hidle, hle⟩ := takePayload_goes call goes
    exact ⟨hidle, by rw [List.length_drop] at hle; omega⟩

/-- A frame that begins in the buffer takes bytes away. -/
theorem decode_ofLimit_goes {s buffer' : List UInt8} {d' : Decoder} {result : Decoded}
    (call : (ofLimit maxPayload).decode s = (d', buffer', result)) (goes : result.stops = false) :
    d' = ofLimit maxPayload ∧ buffer'.length < s.length := by
  cases hfront : front maxPayload s with
  | unfinished =>
    simp only [decode_unfinished hfront, Prod.mk.injEq] at call
    rw [← call.2.2] at goes
    exact Bool.noConfusion goes
  | lost why =>
    obtain ⟨d, buffer, hcall⟩ := decode_lost hfront
    simp only [hcall, Prod.mk.injEq] at call
    rw [← call.2.2] at goes
    exact Bool.noConfusion goes
  | whole size _ =>
    simp only [decode_whole hfront, Prod.mk.injEq] at call
    obtain ⟨rfl, rfl, -⟩ := call
    have hsize := front_whole hfront
    exact ⟨rfl, by rw [List.length_drop]; omega⟩

/-- Every call that does not stop ends a frame. -/
theorem decode_goes {d d' : Decoder} {buffer buffer' : List UInt8} {result : Decoded}
    (call : d.decode buffer = (d', buffer', result)) (goes : result.stops = false) :
    d' = ofLimit d.maxPayload ∧ buffer'.length ≤ buffer.length := by
  cases hd : d.awaiting with
  | preamble =>
    rw [decode_preamble hd] at call
    split_ifs at call
    · simp only [Prod.mk.injEq] at call
      rw [← call.2.2] at goes
      exact Bool.noConfusion goes
    · simp only [Prod.mk.injEq] at call
      rw [← call.2.2] at goes
      exact Bool.noConfusion goes
    · exact takeHeader_goes call goes
  | header n =>
    simp only [decode, hd] at call
    exact takeHeader_goes call goes
  | payload n =>
    simp only [decode, hd] at call
    exact takePayload_goes call goes

private theorem exists_drains_ofLimit (n : Nat) : ∀ s : List UInt8, s.length ≤ n →
    ∃ d' buffer' results, Drains (ofLimit maxPayload) s d' buffer' results ∧
      results.length ≤ n + 1 := by
  induction n with
  | zero =>
    intro s hs
    have hnil : s = [] := List.eq_nil_of_length_eq_zero (by omega)
    exact ⟨_, _, [.more], .stop (by rw [hnil]; rfl) rfl, Nat.le_refl _⟩
  | succ n ih =>
    intro s hs
    rcases hcall : (ofLimit maxPayload).decode s with ⟨d₁, buffer₁, result⟩
    cases hstops : result.stops with
    | true => exact ⟨d₁, buffer₁, [result], .stop hcall hstops, by simp⟩
    | false =>
      obtain ⟨rfl, hlt⟩ := decode_ofLimit_goes hcall hstops
      obtain ⟨d', buffer', results, hrest, hlen⟩ := ih buffer₁ (by omega)
      exact ⟨d', buffer', result :: results, .next hcall hstops hrest, by simpa using hlen⟩

/-- The calls come to a stop, for any state and any buffer. -/
theorem exists_drains (d : Decoder) (buffer : List UInt8) :
    ∃ d' buffer' results, Drains d buffer d' buffer' results ∧
      results.length ≤ buffer.length + 2 := by
  rcases hcall : d.decode buffer with ⟨d₁, buffer₁, result⟩
  cases hstops : result.stops with
  | true => exact ⟨d₁, buffer₁, [result], .stop hcall hstops, by simp⟩
  | false =>
    obtain ⟨rfl, hle⟩ := decode_goes hcall hstops
    obtain ⟨d', buffer', results, hrest, hlen⟩ := exists_drains_ofLimit buffer.length buffer₁ hle
    exact ⟨d', buffer', result :: results, .next hcall hstops hrest, by simpa using hlen⟩

theorem drains_drain (d : Decoder) (buffer : List UInt8) :
    Drains d buffer (d.drain buffer).1 (d.drain buffer).2.1 (d.drain buffer).2.2 := by
  obtain ⟨d', buffer', results, h, hlen⟩ := exists_drains d buffer
  have heq : d.drain buffer = (d', buffer', results) := h.eq_drainFor hlen
  rw [heq]
  exact h

/-- The fuel of `drain` is never used up. -/
theorem Drains.eq_drain {d d' : Decoder} {buffer buffer' : List UInt8} {results : List Decoded}
    (h : Drains d buffer d' buffer' results) : d.drain buffer = (d', buffer', results) := by
  have hdrain := drains_drain d buffer
  have hleft := h.eq_drainFor (Nat.le_max_left results.length (d.drain buffer).2.2.length)
  have hright := hdrain.eq_drainFor (Nat.le_max_right results.length (d.drain buffer).2.2.length)
  exact hright.symm.trans hleft

/-- Where the first call agrees, all of them do. -/
theorem Drains.of_decode_eq {d e d' : Decoder} {buffer rest buffer' : List UInt8}
    {results : List Decoded} (heq : d.decode buffer = e.decode rest)
    (h : Drains e rest d' buffer' results) : Drains d buffer d' buffer' results := by
  cases h with
  | stop call stops => exact .stop (heq.trans call) stops
  | next call goes hrest => exact .next (heq.trans call) goes hrest

/-! ## A whole buffer -/

theorem drains_segment (s : List UInt8) (h : (segment maxPayload s).isLost = false) :
    Drains (ofLimit maxPayload) s
      (Reader.holding maxPayload (segment maxPayload s).rest).decoder
      (Reader.holding maxPayload (segment maxPayload s).rest).buffer
      ((segment maxPayload s).results ++ [.more]) := by
  induction s using segment.induct maxPayload with
  | case1 s hfront =>
    rw [segment_unfinished hfront]
    exact .stop (decode_unfinished hfront) rfl
  | case2 s why hfront =>
    rw [segment_lost hfront] at h
    exact Bool.noConfusion h
  | case3 s size result hfront ih =>
    rw [isLost_whole hfront] at h
    rw [segment_whole hfront]
    exact .next (decode_whole hfront) (front_whole_stops hfront) (ih h)

theorem drains_segment_lost (s : List UInt8) (h : (segment maxPayload s).isLost = true) :
    ∃ d buffer, Drains (ofLimit maxPayload) s d buffer (segment maxPayload s).results := by
  induction s using segment.induct maxPayload with
  | case1 s hfront =>
    rw [segment_unfinished hfront] at h
    exact Bool.noConfusion h
  | case2 s why hfront =>
    obtain ⟨d, buffer, hcall⟩ := decode_lost hfront
    rw [segment_lost hfront]
    exact ⟨d, buffer, .stop hcall rfl⟩
  | case3 s size result hfront ih =>
    rw [isLost_whole hfront] at h
    obtain ⟨d, buffer, hrest⟩ := ih h
    rw [segment_whole hfront]
    exact ⟨d, buffer, .next (decode_whole hfront) (front_whole_stops hfront) hrest⟩

/-! ## Headers at hand -/

/-- A decoder holds a header just while it waits for the payload, and it has read that header. -/
def HasHeader (d : Decoder) : Prop :=
  match d.awaiting with
  | .payload _ => ∃ bytes, d.held = some (Header.decode bytes)
  | .preamble | .header _ => d.held = none

theorem ofLimit_hasHeader : (ofLimit maxPayload).HasHeader := rfl

theorem takePayload_hasHeader {d : Decoder} {header : List UInt8}
    (h : d.held = some (Header.decode header)) (n : Nat) (buffer : List UInt8) :
    (d.takePayload n buffer).1.HasHeader ∧
      (d.takePayload n buffer).2.2 ≠ .fault (.protocol .payloadWithoutHeader) := by
  rw [takePayload_ofParts h]
  split_ifs
  · exact ⟨⟨header, h⟩, nofun⟩
  · refine ⟨ofLimit_hasHeader, ?_⟩
    intro hresult
    have hstops := Decoded.ofParts_stops header (buffer.take n)
    change Decoded.ofParts header (buffer.take n) = _ at hresult
    rw [hresult] at hstops
    exact Bool.noConfusion hstops

theorem takeHeader_hasHeader {d : Decoder} (h : d.held = none) (n : Nat) (buffer : List UInt8) :
    (d.takeHeader n buffer).1.HasHeader ∧
      (d.takeHeader n buffer).2.2 ≠ .fault (.protocol .payloadWithoutHeader) := by
  simp only [takeHeader]
  split_ifs
  · exact ⟨h, nofun⟩
  · exact ⟨h, nofun⟩
  · exact takePayload_hasHeader rfl _ _

theorem decode_hasHeader {d : Decoder} (h : d.HasHeader) (buffer : List UInt8) :
    (d.decode buffer).1.HasHeader ∧
      (d.decode buffer).2.2 ≠ .fault (.protocol .payloadWithoutHeader) := by
  obtain ⟨m, awaiting, held⟩ := d
  cases awaiting with
  | preamble =>
    rw [decode_preamble rfl]
    split_ifs
    · exact ⟨h, nofun⟩
    · exact ⟨h, nofun⟩
    · exact takeHeader_hasHeader h _ _
  | header n => exact takeHeader_hasHeader h n buffer
  | payload n =>
    obtain ⟨bytes, hheld⟩ := h
    exact takePayload_hasHeader hheld n buffer

theorem Drains.hasHeader {d d' : Decoder} {buffer buffer' : List UInt8} {results : List Decoded}
    (h : Drains d buffer d' buffer' results) (hd : d.HasHeader) :
    d'.HasHeader ∧ .fault (.protocol .payloadWithoutHeader) ∉ results := by
  induction h with
  | @stop d buffer d' buffer' result call stops =>
    have hcall := decode_hasHeader hd buffer
    rw [call] at hcall
    exact ⟨hcall.1, fun hmem => hcall.2 (List.mem_singleton.mp hmem).symm⟩
  | @next d buffer d₁ buffer₁ d' buffer' result results call goes rest ih =>
    have hcall := decode_hasHeader hd buffer
    rw [call] at hcall
    obtain ⟨hd', hrest⟩ := ih hcall.1
    refine ⟨hd', fun hmem => ?_⟩
    rcases List.mem_cons.mp hmem with heq | hmem
    · exact hcall.2 heq.symm
    · exact hrest hmem

end Decoder

/-! ## A whole stream -/

/-- What a caller hears in the results of many reads: frames and faults, up to a violation. -/
def heard : List Decoded → List Decoded
  | [] => []
  | .more :: rest => heard rest
  | .frame f :: rest => .frame f :: heard rest
  | .fault (.protocol why) :: _ => [.fault (.protocol why)]
  | .fault why :: rest => .fault why :: heard rest

theorem heard_cons {result : Decoded} (h : result.stops = false) (rest : List Decoded) :
    heard (result :: rest) = result :: heard rest := by
  match result with
  | .frame _ | .fault (.decode _) | .fault (.invalidArgument _) | .fault (.connectionLost _)
  | .fault .timeout | .fault (.exhausted _) | .fault (.alreadyRunning _) | .fault .settings
  | .fault (.io _) => rfl
  | .more | .fault (.protocol _) => exact Bool.noConfusion h

theorem heard_segment_append (s : List UInt8) (rest : List Decoded) :
    heard ((segment maxPayload s).results ++ rest) =
      (segment maxPayload s).results ++
        if (segment maxPayload s).isLost then [] else heard rest := by
  induction s using segment.induct maxPayload with
  | case1 s hfront =>
    rw [segment_unfinished hfront]
    rfl
  | case2 s why hfront =>
    rw [segment_lost hfront]
    rfl
  | case3 s size result hfront ih =>
    rw [isLost_whole hfront, segment_whole hfront, List.cons_append,
      heard_cons (front_whole_stops hfront), ih, List.cons_append]

namespace Reader

/-- Takes in chunks, one after the other, and gives the results of all of them. -/
def feedAll (r : Reader) : List (List UInt8) → Reader × List Decoded
  | [] => (r, [])
  | chunk :: chunks =>
    let (r, results) := r.feed chunk
    let (r, more) := r.feedAll chunks
    (r, results ++ more)

theorem drains_feed (r : Reader) (bytes : List UInt8) :
    Decoder.Drains r.decoder (r.buffer ++ bytes) (r.feed bytes).1.decoder (r.feed bytes).1.buffer
      (r.feed bytes).2 :=
  Decoder.drains_drain r.decoder (r.buffer ++ bytes)

theorem feed_holding {s : List UInt8} (t : List UInt8) (h : front maxPayload s = .unfinished)
    (hlost : (segment maxPayload (s ++ t)).isLost = false) :
    (holding maxPayload s).feed t =
      (holding maxPayload (segment maxPayload (s ++ t)).rest,
        (segment maxPayload (s ++ t)).results ++ [.more]) := by
  have hdrains := (Decoder.drains_segment (s ++ t) hlost).of_decode_eq (Decoder.decode_holding t h)
  simp only [feed, hdrains.eq_drain]

theorem feed_holding_lost {s : List UInt8} (t : List UInt8) (h : front maxPayload s = .unfinished)
    (hlost : (segment maxPayload (s ++ t)).isLost = true) :
    ((holding maxPayload s).feed t).2 = (segment maxPayload (s ++ t)).results := by
  obtain ⟨d, buffer, hdrains⟩ := Decoder.drains_segment_lost (s ++ t) hlost
  have hheld := hdrains.of_decode_eq (Decoder.decode_holding t h)
  simp only [feed, hheld.eq_drain]

/-- The cuts between the chunks leave no trace in what is heard. -/
theorem heard_feedAll (chunks : List (List UInt8)) : ∀ {s : List UInt8},
    front maxPayload s = .unfinished →
      heard ((holding maxPayload s).feedAll chunks).2 =
        (segment maxPayload (s ++ chunks.flatten)).results := by
  induction chunks with
  | nil =>
    intro s h
    rw [List.flatten_nil, List.append_nil, segment_unfinished h]
    rfl
  | cons chunk chunks ih =>
    intro s h
    rw [List.flatten_cons, ← List.append_assoc]
    cases hlost : (segment maxPayload (s ++ chunk)).isLost with
    | true =>
      simp only [feedAll, feed_holding_lost chunk h hlost]
      rw [heard_segment_append, hlost, if_pos rfl, List.append_nil,
        segment_append_lost _ _ hlost]
    | false =>
      simp only [feedAll, feed_holding chunk h hlost]
      rw [List.append_assoc, heard_segment_append, hlost, if_neg Bool.false_ne_true,
        segment_append _ _ hlost]
      exact congrArg _ (ih (front_rest _ hlost))

/-- Nor do they in the state, as long as the stream can be followed. -/
theorem feedAll_holding (chunks : List (List UInt8)) : ∀ {s : List UInt8},
    front maxPayload s = .unfinished →
      (segment maxPayload (s ++ chunks.flatten)).isLost = false →
        ((holding maxPayload s).feedAll chunks).1 =
          holding maxPayload (segment maxPayload (s ++ chunks.flatten)).rest := by
  induction chunks with
  | nil =>
    intro s h _
    rw [List.flatten_nil, List.append_nil, segment_unfinished h]
    rfl
  | cons chunk chunks ih =>
    intro s h hlost
    rw [List.flatten_cons, ← List.append_assoc] at hlost ⊢
    have hchunk : (segment maxPayload (s ++ chunk)).isLost = false := by
      cases hc : (segment maxPayload (s ++ chunk)).isLost with
      | true =>
        rw [Segmentation.isLost, segment_append_lost _ _ hc] at hlost
        exact absurd (hc.symm.trans hlost) (by decide)
      | false => rfl
    rw [segment_append _ _ hchunk] at hlost ⊢
    simp only [feedAll, feed_holding chunk h hchunk]
    refine ih (front_rest _ hchunk) ?_
    rw [Segmentation.isLost, List.any_append, Bool.or_eq_false_iff] at hlost
    exact hlost.2

theorem feedAll_hasHeader (chunks : List (List UInt8)) : ∀ {r : Reader}, r.decoder.HasHeader →
    (r.feedAll chunks).1.decoder.HasHeader ∧
      .fault (.protocol .payloadWithoutHeader) ∉ (r.feedAll chunks).2 := by
  induction chunks with
  | nil => exact fun h => ⟨h, nofun⟩
  | cons chunk chunks ih =>
    intro r h
    obtain ⟨hnext, hresults⟩ := (drains_feed r chunk).hasHeader h
    obtain ⟨hlast, hmore⟩ := ih hnext
    simp only [feedAll, List.mem_append, not_or]
    exact ⟨hlast, hresults, hmore⟩

/-- A stream gives what its segmentation gives, however it is cut into chunks: each read calls the
decoder until it stops, and up to a violation the reads give the frames and faults of the whole
stream in order. Without a violation the state that they leave is that of the unfinished rest. A
header is held just while its payload is awaited, so no payload is ever without its header. -/
theorem feedAll_segment (maxPayload : Nat) (chunks : List (List UInt8)) :
    (∀ (r : Reader) (bytes : List UInt8), Decoder.Drains r.decoder (r.buffer ++ bytes)
      (r.feed bytes).1.decoder (r.feed bytes).1.buffer (r.feed bytes).2) ∧
    heard ((ofLimit maxPayload).feedAll chunks).2 =
      (segment maxPayload chunks.flatten).results ∧
    ((segment maxPayload chunks.flatten).isLost = false →
      ((ofLimit maxPayload).feedAll chunks).1 =
          holding maxPayload (segment maxPayload chunks.flatten).rest ∧
        ∀ other : List (List UInt8), other.flatten = chunks.flatten →
          ((ofLimit maxPayload).feedAll other).1 = ((ofLimit maxPayload).feedAll chunks).1) ∧
    ((ofLimit maxPayload).feedAll chunks).1.decoder.HasHeader ∧
    .fault (.protocol .payloadWithoutHeader) ∉ ((ofLimit maxPayload).feedAll chunks).2 := by
  have hnil : front maxPayload [] = .unfinished := rfl
  have hstate (cut : List (List UInt8)) (hlost : (segment maxPayload cut.flatten).isLost = false) :
      ((ofLimit maxPayload).feedAll cut).1 =
        holding maxPayload (segment maxPayload cut.flatten).rest :=
    feedAll_holding cut hnil hlost
  refine ⟨drains_feed, heard_feedAll chunks hnil, fun hlost => ⟨hstate chunks hlost, ?_⟩,
    feedAll_hasHeader chunks Decoder.ofLimit_hasHeader⟩
  intro other heq
  rw [hstate other (by rw [heq]; exact hlost), hstate chunks hlost, heq]

end Reader

end TopicBus
