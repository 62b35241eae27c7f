import TopicBus.Proofs.Wire.Stream

/-!
A reader at the end of its stream. A stream that can be followed is a list of complete frames and
the beginning of one more (`segment_parts`). Call by call a reader gives what each frame holds, in
order (`StandsBefore.next_frame`), and from then on, however often it is asked, that the stream has
ended: cleanly if nothing is left over, and otherwise in the middle of a frame
(`StandsBefore.next_end`). Both together are `calls_stream`.
-/

namespace TopicBus

open Wire

variable {maxPayload : Nat}

/-! ## Streams in frames -/

/-- A frame as it stands on a stream. -/
structure RawFrame where
  header : List UInt8
  payload : List UInt8
  deriving Repr

namespace RawFrame

def bytes (p : RawFrame) : List UInt8 := p.header ++ p.payload

/-- The lengths are within the limits, and all bytes are there; the header need not be readable. -/
def IsComplete (maxPayload : Nat) (p : RawFrame) : Prop :=
  Item.Framed maxPayload p.header p.payload

/-- What a reader gives for a frame. -/
def reading (p : RawFrame) : Reading :=
  match Header.decode p.header with
  | .ok h => .frame ⟨h, p.payload⟩
  | .error why => .fault why

theorem IsComplete.front_eq {p : RawFrame} (h : p.IsComplete maxPayload) (rest : List UInt8) :
    front maxPayload (p.bytes ++ rest) =
      .whole p.bytes.length (.ofParts p.header p.payload) := Item.Framed.front_eq h rest

/-- A frame that has arrived whole is complete. -/
theorem exists_of_front {s : List UInt8} {size : Nat} {result : Decoded}
    (h : front maxPayload s = .whole size result) :
    ∃ p : RawFrame, p.IsComplete maxPayload ∧ p.bytes = s.take size := by
  simp only [front] at h
  split_ifs at h with hpre hbound hfull hmax hall
  injection h with hsize _
  have hheader : (s.take (numberAt 2 2 s)).length = numberAt 2 2 s := by simp; omega
  have hpayload : ((s.drop (numberAt 2 2 s)).take (numberAt 16 4 s)).length = numberAt 16 4 s := by
    simp; omega
  refine ⟨⟨s.take (numberAt 2 2 s), (s.drop (numberAt 2 2 s)).take (numberAt 16 4 s)⟩, ?_, ?_⟩
  · constructor
    · rw [hheader, numberAt_take s (by omega)]
    · rw [hpayload, numberAt_take s (by omega)]
    · simp only [hheader, minHeaderSize, fixedSize, lengthSize]; omega
    · simp only [hheader, maxHeaderSize, fixedSize, lengthSize, maxTopicSize]; omega
    · simp only [hpayload]; omega
  · simp [bytes, ← hsize, List.take_add]

end RawFrame

/-- The bytes of frames, one behind the other. -/
def onStream (frames : List RawFrame) : List UInt8 := frames.flatMap RawFrame.bytes

theorem onStream_cons (p : RawFrame) (frames : List RawFrame) :
    onStream (p :: frames) = p.bytes ++ onStream frames := List.flatMap_cons

/-- A stream that can be followed, in frames. -/
theorem segment_parts (s : List UInt8) (h : (segment maxPayload s).isLost = false) :
    ∃ frames : List RawFrame, (∀ p ∈ frames, p.IsComplete maxPayload) ∧
      s = onStream frames ++ (segment maxPayload s).rest := by
  induction s using segment.induct maxPayload with
  | case1 s hfront => exact ⟨[], by simp, by simp [segment_unfinished hfront, onStream]⟩
  | case2 s why hfront =>
    rw [segment_lost hfront] at h
    exact Bool.noConfusion h
  | case3 s size result hfront ih =>
    rw [isLost_whole hfront] at h
    obtain ⟨frames, hcomplete, hrest⟩ := ih h
    obtain ⟨p, hp, hbytes⟩ := RawFrame.exists_of_front hfront
    refine ⟨p :: frames, List.forall_mem_cons.mpr ⟨hp, hcomplete⟩, ?_⟩
    calc s = s.take size ++ s.drop size := (List.take_append_drop size s).symm
      _ = p.bytes ++ (onStream frames ++ (segment maxPayload (s.drop size)).rest) := by
        rw [← hrest, hbytes]
      _ = onStream (p :: frames) ++ (segment maxPayload s).rest := by
        simp [onStream_cons, segment_whole hfront]

/-- Complete frames leave nothing over. -/
theorem rest_onStream {frames : List RawFrame} (h : ∀ p ∈ frames, p.IsComplete maxPayload) :
    (segment maxPayload (onStream frames)).rest = [] := by
  induction frames with
  | nil => rw [onStream, List.flatMap_nil, segment_unfinished rfl]
  | cons p frames ih =>
    obtain ⟨hp, hrest⟩ := List.forall_mem_cons.mp h
    rw [onStream_cons, segment_whole (hp.front_eq _), List.drop_left]
    exact ih hrest

/-- What has not shown a frame yet has not shown one before. -/
theorem front_unfinished_of_append {s t : List UInt8}
    (h : front maxPayload (s ++ t) = .unfinished) : front maxPayload s = .unfinished := by
  by_contra hfront
  exact hfront (front_append t hfront ▸ h)

namespace Reader

/-! ## One call -/

/-- The reader goes on as a fresh one that has these bytes in its buffer, whatever follows them. -/
def StandsBefore (maxPayload : Nat) (r : Reader) (s : List UInt8) : Prop :=
  ∀ t, r.decoder.decode (r.buffer ++ t) = (Decoder.ofLimit maxPayload).decode (s ++ t)

/-- What a stream gives that arrives in pieces and then is closed. Behind its end it can be read any
number of times. -/
def closing (pieces : List (List UInt8)) (reads : Nat) : List Chunk :=
  pieces.map .bytes ++ List.replicate reads (.bytes [])

variable {r r' : Reader} {s : List UInt8} {pieces : List (List UInt8)}

theorem standsBefore_buffer (maxPayload : Nat) (s : List UInt8) :
    StandsBefore maxPayload ⟨.ofLimit maxPayload, s⟩ s := fun _ => rfl

theorem standsBefore_holding (h : front maxPayload s = .unfinished) :
    StandsBefore maxPayload (holding maxPayload s) s := fun t => Decoder.decode_holding t h

namespace StandsBefore

theorem append (h : StandsBefore maxPayload r s) (more : List UInt8) :
    StandsBefore maxPayload ⟨r.decoder, r.buffer ++ more⟩ (s ++ more) := by
  intro t
  simpa using h (more ++ t)

theorem advance_whole (h : StandsBefore maxPayload r s) {p : RawFrame}
    (hp : p.IsComplete maxPayload) {rest : List UInt8} (hs : s = p.bytes ++ rest) :
    r.advance = (⟨.ofLimit maxPayload, rest⟩, some p.reading) := by
  have hdecode := h []
  rw [List.append_nil, List.append_nil, hs, Decoder.decode_whole (hp.front_eq rest),
    List.drop_left, Decoded.ofParts_eq] at hdecode
  unfold advance RawFrame.reading
  rw [hdecode]
  cases Header.decode p.header <;> rfl

theorem advance_unfinished (h : StandsBefore maxPayload r s)
    (hs : front maxPayload s = .unfinished) : r.advance = (holding maxPayload s, none) := by
  have hdecode := h []
  rw [List.append_nil, List.append_nil, Decoder.decode_unfinished hs] at hdecode
  simp only [advance, hdecode]

end StandsBefore

theorem next_of_some {reading : Reading} (h : r.advance = (r', some reading))
    (chunks : List Chunk) : r.next chunks = (r', chunks, reading) := by
  cases chunks <;> simp [next, h]

theorem next_bytes (h : r.advance = (r', none)) {x : List UInt8} (hx : x ≠ [])
    (chunks : List Chunk) :
    r.next (.bytes x :: chunks) = next ⟨r'.decoder, r'.buffer ++ x⟩ chunks := by
  cases x with
  | nil => exact absurd rfl hx
  | cons b x => simp [next, h]

/-- The end of a stream is found once all pieces have been taken in. -/
theorem next_closing_nil (h : r.advance = (r', none)) (reads : Nat) :
    r.next (closing [] reads) = (r', closing [] (reads - 1), r'.finish) := by
  cases reads <;> simp [next, closing, h, List.replicate_succ]

namespace StandsBefore

/-- The next frame of the stream is given, and the reader stands behind it. -/
theorem next_frame (h : StandsBefore maxPayload r s) (hpieces : ∀ x ∈ pieces, x ≠ [])
    {p : RawFrame} (hp : p.IsComplete maxPayload) {rest : List UInt8}
    (hs : s ++ pieces.flatten = p.bytes ++ rest) (reads : Nat) :
    ∃ r' s' pieces', r.next (closing pieces reads) = (r', closing pieces' reads, p.reading) ∧
      StandsBefore maxPayload r' s' ∧ (∀ x ∈ pieces', x ≠ []) ∧ s' ++ pieces'.flatten = rest := by
  have hwhole : front maxPayload (s ++ pieces.flatten) = .whole p.bytes.length _ :=
    hs ▸ hp.front_eq rest
  induction pieces generalizing r s with
  | nil =>
    rw [List.flatten_nil, List.append_nil] at hs
    exact ⟨_, rest, [], next_of_some (h.advance_whole hp hs) _, standsBefore_buffer _ rest,
      hpieces, by simp⟩
  | cons x pieces ih =>
    by_cases hfront : front maxPayload s = .unfinished
    · -- The buffer ends inside the frame, so another piece is taken in.
      obtain ⟨hx, hmore⟩ := List.forall_mem_cons.mp hpieces
      rw [List.flatten_cons, ← List.append_assoc] at hs hwhole
      obtain ⟨r', s', pieces', hnext, hrest⟩ :=
        ih ((standsBefore_holding hfront).append x) hmore hs hwhole
      refine ⟨r', s', pieces', ?_, hrest⟩
      rw [← hnext]
      exact next_bytes (h.advance_unfinished hfront) hx _
    · -- The buffer begins with the whole frame.
      have hlength := (front_whole ((front_append _ hfront).symm.trans hwhole)).2
      obtain ⟨s', hs'⟩ : p.bytes <+: s :=
        List.prefix_of_prefix_length_le ⟨rest, hs.symm⟩ ⟨_, rfl⟩ hlength
      refine ⟨_, s', x :: pieces, next_of_some (h.advance_whole hp hs'.symm) _,
        standsBefore_buffer _ s', hpieces, ?_⟩
      rw [← hs', List.append_assoc] at hs
      exact List.append_cancel_left hs

/-- Without another frame the reader comes to the end, with all bytes taken in. -/
theorem next_end (h : StandsBefore maxPayload r s) (hpieces : ∀ x ∈ pieces, x ≠ [])
    (hs : front maxPayload (s ++ pieces.flatten) = .unfinished) (reads : Nat) :
    r.next (closing pieces reads) = (holding maxPayload (s ++ pieces.flatten),
      closing [] (reads - 1), (holding maxPayload (s ++ pieces.flatten)).finish) := by
  have hadvance := h.advance_unfinished (front_unfinished_of_append hs)
  induction pieces generalizing r s with
  | nil => simpa using next_closing_nil hadvance reads
  | cons x pieces ih =>
    obtain ⟨hx, hmore⟩ := List.forall_mem_cons.mp hpieces
    have hheld := (standsBefore_holding (front_unfinished_of_append hs)).append x
    rw [List.flatten_cons, ← List.append_assoc] at hs ⊢
    rw [← ih hheld hmore hs (hheld.advance_unfinished (front_unfinished_of_append hs))]
    exact next_bytes hadvance hx _

end StandsBefore

/-- Inside a frame the end of the stream is a lost connection. -/
theorem finish_holding (maxPayload : Nat) (hs : s ≠ []) :
    ∃ missing, (holding maxPayload s).finish = .fault (.endedInFrame missing) := by
  have hbusy : ((holding maxPayload s).buffer.isEmpty &&
      (holding maxPayload s).decoder.isIdle) = false := by
    dsimp only [holding]
    split_ifs <;> simp [Decoder.isIdle, hs]
  exact ⟨_, by simp only [finish, hbusy, Bool.false_eq_true, ↓reduceIte]; rfl⟩

/-! ## All calls -/

/-- What so many calls give. -/
def calls (r : Reader) (chunks : List Chunk) : Nat → List Reading
  | 0 => []
  | n + 1 => (r.next chunks).2.2 :: (r.next chunks).1.calls (r.next chunks).2.1 n

/-- Asked again at the end, a reader says the same. -/
theorem calls_end (h : StandsBefore maxPayload r s) (hpieces : ∀ x ∈ pieces, x ≠ [])
    (hs : front maxPayload (s ++ pieces.flatten) = .unfinished) (reads n : Nat) :
    r.calls (closing pieces reads) n =
      List.replicate n (holding maxPayload (s ++ pieces.flatten)).finish := by
  induction n generalizing r s pieces reads with
  | zero => rfl
  | succ n ih =>
    have hrest : front maxPayload ((s ++ pieces.flatten) ++ [].flatten) = .unfinished := by
      simpa using hs
    have hagain := ih (standsBefore_holding hs) (by simp) hrest (reads - 1)
    simp only [calls, h.next_end hpieces hs, List.replicate_succ]
    simpa using hagain

theorem calls_frames (h : StandsBefore maxPayload r s) (hpieces : ∀ x ∈ pieces, x ≠ [])
    {frames : List RawFrame} (hframes : ∀ p ∈ frames, p.IsComplete maxPayload)
    {rest : List UInt8} (hs : s ++ pieces.flatten = onStream frames ++ rest)
    (hrest : front maxPayload rest = .unfinished) (reads n : Nat) :
    r.calls (closing pieces reads) (frames.length + n) =
      frames.map RawFrame.reading ++ List.replicate n (holding maxPayload rest).finish := by
  induction frames generalizing r s pieces with
  | nil =>
    obtain rfl : s ++ pieces.flatten = rest := hs
    simpa using calls_end h hpieces hrest reads n
  | cons p frames ih =>
    obtain ⟨hp, hmore⟩ := List.forall_mem_cons.mp hframes
    rw [onStream_cons, List.append_assoc] at hs
    obtain ⟨r', s', pieces', hnext, hstands, hpieces', hs'⟩ := h.next_frame hpieces hp hs reads
    rw [List.length_cons, Nat.add_right_comm]
    simp only [calls, hnext, ih hstands hpieces' hmore hs', List.map_cons, List.cons_append]

/-- A stream without a violation, however it is cut, gives what each of its complete frames holds, a
frame or the fault of its header, in order. Behind them it is at its end, and every further call
says so: cleanly if and only if the stream is nothing but complete frames, and otherwise with a lost
connection, which is worth a reconnect. -/
theorem calls_stream (maxPayload : Nat) (pieces : List (List UInt8)) (reads : Nat)
    (hpieces : ∀ x ∈ pieces, x ≠ [])
    (hfollowed : (segment maxPayload pieces.flatten).isLost = false) :
    ∃ (frames : List RawFrame) (rest : List UInt8) (last : Reading),
      (∀ p ∈ frames, p.IsComplete maxPayload) ∧ pieces.flatten = onStream frames ++ rest ∧
      front maxPayload rest = .unfinished ∧
      (∀ again, (ofLimit maxPayload).calls (closing pieces reads) (frames.length + again) =
        frames.map RawFrame.reading ++ List.replicate again last) ∧
      (last = .ended ↔ ∃ whole : List RawFrame, (∀ p ∈ whole, p.IsComplete maxPayload) ∧
        pieces.flatten = onStream whole) ∧
      (last ≠ .ended → ∃ why text, last = .fault why ∧
        why = .connectionLost ⟨.unexpectedEof, text⟩ ∧ why.isReconnectable = true) := by
  obtain ⟨frames, hcomplete, hstream⟩ := segment_parts pieces.flatten hfollowed
  have hrest := front_rest pieces.flatten hfollowed
  have hcalls (again : Nat) := calls_frames (standsBefore_buffer maxPayload []) hpieces hcomplete
    hstream hrest reads again
  have hwhole : (segment maxPayload pieces.flatten).rest = [] ↔
      ∃ whole : List RawFrame, (∀ p ∈ whole, p.IsComplete maxPayload) ∧
        pieces.flatten = onStream whole := by
    constructor
    · intro hnil
      rw [hnil, List.append_nil] at hstream
      exact ⟨frames, hcomplete, hstream⟩
    · rintro ⟨whole, hall, heq⟩
      rw [heq]
      exact rest_onStream hall
  refine ⟨frames, _, _, hcomplete, hstream, hrest, hcalls, ?_, ?_⟩
  · rw [← hwhole]
    constructor
    · intro hended
      by_contra hne
      obtain ⟨missing, hfault⟩ := finish_holding maxPayload hne
      rw [hfault] at hended
      nomatch hended
    · intro hnil
      rw [hnil]
      rfl
  · intro hne
    have hopen : (segment maxPayload pieces.flatten).rest ≠ [] := by
      intro hnil
      rw [hnil] at hne
      exact hne rfl
    obtain ⟨missing, hfault⟩ := finish_holding maxPayload hopen
    exact ⟨_, _, hfault, rfl, rfl⟩

/-- A frame, a damaged one, and one that lacks its payload. The stream is cut inside the second. -/
def brokenOff : List (List UInt8) :=
  [Decoder.byteOnT.bytes ++ Decoder.foreignVersion.bytes.take 3,
    Decoder.foreignVersion.bytes.drop 3 ++ Decoder.byteOnT.bytes.take 25]

theorem calls_stream_brokenOff :
    (∀ x ∈ brokenOff, x ≠ []) ∧ (segment 8 brokenOff.flatten).isLost = false ∧
      ∃ (frames : List RawFrame) (text : Option String), ∀ again,
        (ofLimit 8).calls (closing brokenOff 1) (frames.length + again) =
          frames.map RawFrame.reading ++
            List.replicate again (.fault (.connectionLost ⟨.unexpectedEof, text⟩)) := by
  have hpieces : ∀ x ∈ brokenOff, x ≠ [] := by decide
  have hpart : front 8 (Decoder.byteOnT.bytes.take 25) = .unfinished :=
    Decoder.byteOnT.front_take ⟨25, by decide⟩
  obtain ⟨results, -, hsegment⟩ := segment_stream [Decoder.byteOnT, Decoder.foreignVersion]
  obtain ⟨hparts, hlost⟩ := hsegment (Decoder.byteOnT.bytes.take 25)
  have hflatten : brokenOff.flatten = stream [Decoder.byteOnT, Decoder.foreignVersion] ++
      Decoder.byteOnT.bytes.take 25 := rfl
  rw [← hflatten, segment_unfinished hpart] at hparts hlost
  obtain ⟨frames, rest, last, -, -, -, hcalls, hclean, hbroken⟩ :=
    calls_stream 8 brokenOff 1 hpieces hlost
  have hopen : last ≠ .ended := by
    intro hended
    obtain ⟨whole, hcomplete, hwhole⟩ := hclean.mp hended
    have hrest := rest_onStream hcomplete
    rw [← hwhole, hparts] at hrest
    have hnil : Decoder.byteOnT.bytes.take 25 = [] := hrest
    exact absurd hnil (by decide)
  obtain ⟨_, text, rfl, rfl, -⟩ := hbroken hopen
  exact ⟨hpieces, hlost, frames, text, hcalls⟩

end Reader

end TopicBus
