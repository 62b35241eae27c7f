import Mathlib.Data.List.Basic
import TopicBus.Wire.Reader

/-!
The frames of a whole stream, read off in one go. The two lengths of a frame stand at fixed offsets
from its first byte, so its end can be told from its front alone, and the bytes behind the last end
belong to a frame that is still on its way. `segment_append` says how a segmentation grows with its
stream; `Chunks.lean` shows that the decoder arrives at it however the stream is cut.
-/

namespace TopicBus

namespace Wire

/-! ## Numbers at an offset -/

/-- The number that bytes spell, the most significant first. -/
def bigEndian (bytes : List UInt8) : Nat := bytes.foldl (fun n b => n * 256 + b.toNat) 0

/-- The number in `count` bytes from an offset on. -/
def numberAt (offset count : Nat) (bytes : List UInt8) : Nat :=
  bigEndian ((bytes.drop offset).take count)

theorem numberAt_append {offset count : Nat} {s : List UInt8} (t : List UInt8)
    (h : offset + count ≤ s.length) : numberAt offset count (s ++ t) = numberAt offset count s := by
  have hdrop : count ≤ (s.drop offset).length := by rw [List.length_drop]; omega
  rw [numberAt, numberAt, List.drop_append_of_le_length (by omega),
    List.take_append_of_le_length hdrop]

theorem numberAt_take {offset count n : Nat} (s : List UInt8) (h : offset + count ≤ n) :
    numberAt offset count (s.take n) = numberAt offset count s := by
  rw [numberAt, numberAt, List.drop_take, List.take_take, Nat.min_eq_left (by omega)]

/-- Two neighbouring digits of a number to the base 256. -/
private theorem shift_or_shift (x i : Nat) {y : Nat} (hy : y < 256) :
    x <<< (i + 8) ||| y <<< i = (x * 256 + y) <<< i := by
  rw [Nat.add_comm i 8, Nat.shiftLeft_add, ← Nat.shiftLeft_or_distrib,
    ← Nat.shiftLeft_add_eq_or_of_lt (by simpa using hy), Nat.shiftLeft_eq x 8]

theorem toUInt16_toNat (a b : UInt8) : (toUInt16 a b).toNat = a.toNat * 256 + b.toNat := by
  have ha := a.toNat_lt
  simp only [toUInt16, UInt16.toNat_or, UInt16.toNat_shiftLeft, UInt8.toNat_toUInt16]
  change a.toNat <<< 8 % 65536 ||| b.toNat = _
  rw [Nat.mod_eq_of_lt (by omega)]
  exact shift_or_shift a.toNat 0 b.toNat_lt

theorem toUInt32_toNat (a b c d : UInt8) :
    (toUInt32 a b c d).toNat = ((a.toNat * 256 + b.toNat) * 256 + c.toNat) * 256 + d.toNat := by
  have ha := a.toNat_lt
  have hb := b.toNat_lt
  have hc := c.toNat_lt
  simp only [toUInt32, UInt32.toNat_or, UInt32.toNat_shiftLeft, UInt8.toNat_toUInt32]
  change a.toNat <<< 24 % 4294967296 ||| b.toNat <<< 16 % 4294967296 |||
    c.toNat <<< 8 % 4294967296 ||| d.toNat = _
  have ha' : a.toNat <<< 24 < 4294967296 := by omega
  have hb' : b.toNat <<< 16 < 4294967296 := by omega
  have hc' : c.toNat <<< 8 < 4294967296 := by omega
  rw [Nat.mod_eq_of_lt ha', Nat.mod_eq_of_lt hb', Nat.mod_eq_of_lt hc']
  calc
    _ = (a.toNat * 256 + b.toNat) <<< 16 ||| c.toNat <<< 8 ||| d.toNat := by
      rw [shift_or_shift a.toNat 16 hb]
    _ = ((a.toNat * 256 + b.toNat) * 256 + c.toNat) <<< 8 ||| d.toNat := by
      rw [shift_or_shift _ 8 hc]
    _ = _ := shift_or_shift _ 0 d.toNat_lt

end Wire

open Wire

theorem Header.peekLength?_eq (s : List UInt8) :
    peekLength? s = if s.length < 4 then none else some (numberAt 2 2 s) := by
  match s with
  | [] | [_] | [_, _] | [_, _, _] => simp [peekLength?]
  | _ :: _ :: a :: b :: rest => simp [peekLength?, numberAt, bigEndian, toUInt16_toNat]

theorem Header.peekPayloadLength?_eq (s : List UInt8) :
    peekPayloadLength? s = if s.length < 20 then none else some (numberAt 16 4 s) := by
  have hlen : (s.drop 16).length = s.length - 16 := List.length_drop
  unfold peekPayloadLength? numberAt
  match hs : s.drop 16 with
  | [] | [_] | [_, _] | [_, _, _] =>
    rw [hs] at hlen
    simp only [List.length_nil, List.length_cons] at hlen
    simp only
    rw [if_pos (by omega)]
  | a :: b :: c :: d :: rest =>
    rw [hs] at hlen
    simp only [List.length_cons] at hlen
    rw [if_neg (by omega)]
    simp [bigEndian, toUInt32_toNat]

/-! ## The front of a stream -/

/-- What a stream begins with. -/
inductive Front where
  /-- The bytes end inside the frame. -/
  | unfinished
  /-- A length is out of bounds, and nothing behind it can be told apart. -/
  | lost (why : Violation)
  /-- A frame of `size` bytes, or the fault of its header. -/
  | whole (size : Nat) (result : Decoded)

/-- The frame that a header and its payload make, or why the header makes none. -/
def Decoded.ofParts (header payload : List UInt8) : Decoded :=
  match Header.read header with
  | .ok h => .frame ⟨h, payload⟩
  | .error why => .fault (.decode why)

theorem Decoded.ofParts_eq (header payload : List UInt8) :
    ofParts header payload = match Header.decode header with
      | .ok h => .frame ⟨h, payload⟩
      | .error why => .fault why := by
  unfold ofParts Header.decode
  cases Header.read header <;> rfl

/-- The header length stands at offset 2, the payload length at offset 16. -/
def front (maxPayload : Nat) (s : List UInt8) : Front :=
  let header := numberAt 2 2 s
  let payload := numberAt 16 4 s
  if s.length < 4 then .unfinished
  else if header < 24 ∨ 284 < header then .lost (.headerLength header)
  else if s.length < header then .unfinished
  else if maxPayload < payload then .lost (.payloadLength payload maxPayload)
  else if s.length < header + payload then .unfinished
  else .whole (header + payload)
    (.ofParts (s.take header) ((s.drop header).take payload))

variable {maxPayload : Nat}

theorem front_whole {s : List UInt8} {size : Nat} {result : Decoded}
    (h : front maxPayload s = .whole size result) : 24 ≤ size ∧ size ≤ s.length := by
  simp only [front] at h
  split_ifs at h
  injection h with hsize _
  omega

/-- What the front of a stream has shown stays as it is when more bytes arrive. -/
theorem front_append {s : List UInt8} (t : List UInt8) (h : front maxPayload s ≠ .unfinished) :
    front maxPayload (s ++ t) = front maxPayload s := by
  have hlonger {n : Nat} (hn : ¬s.length < n) : ¬(s ++ t).length < n := by
    rw [List.length_append]; omega
  by_cases hpre : s.length < 4
  · exact absurd (by simp only [front, hpre, ↓reduceIte]) h
  have hheader : numberAt 2 2 (s ++ t) = numberAt 2 2 s := numberAt_append t (by omega)
  by_cases hbound : numberAt 2 2 s < 24 ∨ 284 < numberAt 2 2 s
  · simp only [front, hheader, hpre, hlonger hpre, hbound, ↓reduceIte]
  by_cases hfull : s.length < numberAt 2 2 s
  · exact absurd (by simp only [front, hpre, hbound, hfull, ↓reduceIte]) h
  have hpayload : numberAt 16 4 (s ++ t) = numberAt 16 4 s := numberAt_append t (by omega)
  by_cases hmax : maxPayload < numberAt 16 4 s
  · simp only [front, hheader, hpayload, hpre, hlonger hpre, hbound, hfull, hlonger hfull, hmax,
      ↓reduceIte]
  by_cases hall : s.length < numberAt 2 2 s + numberAt 16 4 s
  · exact absurd (by simp only [front, hpre, hbound, hfull, hmax, hall, ↓reduceIte]) h
  have htake : (s ++ t).take (numberAt 2 2 s) = s.take (numberAt 2 2 s) :=
    List.take_append_of_le_length (by omega)
  have hrest : ((s ++ t).drop (numberAt 2 2 s)).take (numberAt 16 4 s) =
      (s.drop (numberAt 2 2 s)).take (numberAt 16 4 s) := by
    rw [List.drop_append_of_le_length (by omega),
      List.take_append_of_le_length (by rw [List.length_drop]; omega)]
  simp only [front, hheader, hpayload, htake, hrest, hpre, hlonger hpre, hbound, hfull,
    hlonger hfull, hmax, hall, hlonger hall, ↓reduceIte]

/-- Whether a result gives the stream up. -/
def Decoded.isViolation : Decoded → Bool
  | .fault (.protocol _) => true
  | _ => false

/-- A fault inside a header is no violation, and a frame asks for nothing more. -/
theorem Decoded.ofParts_stops (header payload : List UInt8) :
    (ofParts header payload).stops = false := by
  unfold ofParts
  cases Header.read header <;> rfl

theorem Decoded.isViolation_of_not_stops {result : Decoded} (h : result.stops = false) :
    result.isViolation = false := by
  match result with
  | .more | .frame _ | .fault (.decode _) => rfl
  | .fault (.protocol _) => exact h
  | .fault (.invalidArgument _) | .fault (.connectionLost _) | .fault .timeout
  | .fault (.exhausted _) | .fault (.alreadyRunning _) | .fault .settings | .fault (.io _) => rfl

theorem front_whole_stops {s : List UInt8} {size : Nat} {result : Decoded}
    (h : front maxPayload s = .whole size result) : result.stops = false := by
  simp only [front] at h
  split_ifs at h
  injection h with _ hresult
  rw [← hresult]
  exact Decoded.ofParts_stops _ _

/-! ## Segmentation -/

/-- A stream in pieces: what each frame gave, and the bytes behind the last of them. -/
structure Segmentation where
  results : List Decoded
  rest : List UInt8

/-- Cuts a stream at the ends of its frames, up to a length that is out of bounds. -/
def segment (maxPayload : Nat) (s : List UInt8) : Segmentation :=
  match _h : front maxPayload s with
  | .unfinished => ⟨[], s⟩
  | .lost why => ⟨[.fault (.protocol why)], s⟩
  | .whole size result =>
    let tail := segment maxPayload (s.drop size)
    ⟨result :: tail.results, tail.rest⟩
termination_by s.length
decreasing_by
  have := front_whole _h
  rw [List.length_drop]
  omega

def Segmentation.isLost (g : Segmentation) : Bool := g.results.any Decoded.isViolation

theorem segment_eq (s : List UInt8) :
    segment maxPayload s = match front maxPayload s with
      | .unfinished => ⟨[], s⟩
      | .lost why => ⟨[.fault (.protocol why)], s⟩
      | .whole size result => ⟨result :: (segment maxPayload (s.drop size)).results,
          (segment maxPayload (s.drop size)).rest⟩ := by
  rw [segment]
  split
  · next h => rw [h]
  · next h => rw [h]
  · next h => rw [h]

theorem segment_unfinished {s : List UInt8} (h : front maxPayload s = .unfinished) :
    segment maxPayload s = ⟨[], s⟩ := by
  rw [segment_eq, h]

theorem segment_lost {s : List UInt8} {why : Violation} (h : front maxPayload s = .lost why) :
    segment maxPayload s = ⟨[.fault (.protocol why)], s⟩ := by
  rw [segment_eq, h]

theorem segment_whole {s : List UInt8} {size : Nat} {result : Decoded}
    (h : front maxPayload s = .whole size result) :
    segment maxPayload s = ⟨result :: (segment maxPayload (s.drop size)).results,
      (segment maxPayload (s.drop size)).rest⟩ := by
  rw [segment_eq, h]

theorem isLost_whole {s : List UInt8} {size : Nat} {result : Decoded}
    (h : front maxPayload s = .whole size result) :
    (segment maxPayload s).isLost = (segment maxPayload (s.drop size)).isLost := by
  have hresult := Decoded.isViolation_of_not_stops (front_whole_stops h)
  rw [segment_whole h, Segmentation.isLost, List.any_cons, hresult, Bool.false_or]
  rfl

/-- What is left of a stream that can be followed is the beginning of one frame. -/
theorem front_rest (s : List UInt8) (h : (segment maxPayload s).isLost = false) :
    front maxPayload (segment maxPayload s).rest = .unfinished := by
  induction s using segment.induct maxPayload with
  | case1 s hfront => rw [segment_unfinished hfront]; exact hfront
  | case2 s why hfront =>
    rw [segment_lost hfront] at h
    exact Bool.noConfusion h
  | case3 s size result hfront ih =>
    rw [isLost_whole hfront] at h
    rw [segment_whole hfront]
    exact ih h

/-- More bytes continue the frame that the stream ended in. -/
theorem segment_append (s t : List UInt8) (h : (segment maxPayload s).isLost = false) :
    segment maxPayload (s ++ t) =
      ⟨(segment maxPayload s).results ++
        (segment maxPayload ((segment maxPayload s).rest ++ t)).results,
      (segment maxPayload ((segment maxPayload s).rest ++ t)).rest⟩ := by
  induction s using segment.induct maxPayload with
  | case1 s hfront => rw [segment_unfinished hfront, List.nil_append]
  | case2 s why hfront =>
    rw [segment_lost hfront] at h
    exact Bool.noConfusion h
  | case3 s size result hfront ih =>
    rw [isLost_whole hfront] at h
    have hle : size ≤ s.length := (front_whole hfront).2
    have hmore : front maxPayload (s ++ t) = .whole size result := by
      rw [front_append t (by rw [hfront]; exact nofun), hfront]
    rw [segment_whole hmore, List.drop_append_of_le_length hle, ih h, segment_whole hfront]
    rfl

/-- Nothing behind a violation is read. -/
theorem segment_append_lost (s t : List UInt8) (h : (segment maxPayload s).isLost = true) :
    (segment maxPayload (s ++ t)).results = (segment maxPayload s).results := by
  induction s using segment.induct maxPayload with
  | case1 s hfront =>
    rw [segment_unfinished hfront] at h
    exact Bool.noConfusion h
  | case2 s why hfront =>
    have hmore : front maxPayload (s ++ t) = .lost why := by
      rw [front_append t (by rw [hfront]; exact nofun), hfront]
    rw [segment_lost hmore, segment_lost hfront]
  | case3 s size result hfront ih =>
    rw [isLost_whole hfront] at h
    have hle : size ≤ s.length := (front_whole hfront).2
    have hmore : front maxPayload (s ++ t) = .whole size result := by
      rw [front_append t (by rw [hfront]; exact nofun), hfront]
    rw [segment_whole hmore, List.drop_append_of_le_length hle, segment_whole hfront]
    exact congrArg (result :: ·) (ih h)

end TopicBus
