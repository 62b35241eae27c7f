import TopicBus.Proofs.Wire.Stream

/-!
Damaged frames leave no trace. A stream that has shown no part of a frame is cut there for good
(`segment_append_idle`), so a damaged frame behind it can be taken out of the stream: at every
moment the same frames have been heard, and the stream is lost or not as before (`heard_without`).
-/

namespace TopicBus

open Wire

variable {maxPayload : Nat}

namespace Decoded

/-- The frames among the results of a decoder. -/
def frames (results : List Decoded) : List Frame :=
  results.filterMap fun
    | .frame f => some f
    | _ => none

@[simp] theorem frames_append (results more : List Decoded) :
    frames (results ++ more) = frames results ++ frames more :=
  List.filterMap_append

end Decoded

/-- The frames that have arrived whole. -/
def Segmentation.frames (g : Segmentation) : List Frame := Decoded.frames g.results

theorem segment_nil : segment maxPayload [] = ⟨[], []⟩ := segment_unfinished rfl

theorem frames_append_lost {s : List UInt8} (t : List UInt8)
    (h : (segment maxPayload s).isLost = true) :
    (segment maxPayload (s ++ t)).frames = (segment maxPayload s).frames :=
  congrArg Decoded.frames (segment_append_lost s t h)

theorem frames_append {s : List UInt8} (t : List UInt8)
    (h : (segment maxPayload s).isLost = false) :
    (segment maxPayload (s ++ t)).frames = (segment maxPayload s).frames ++
      (segment maxPayload ((segment maxPayload s).rest ++ t)).frames := by
  rw [Segmentation.frames, segment_append s t h, Decoded.frames_append]
  rfl

theorem isLost_append {s : List UInt8} (t : List UInt8)
    (h : (segment maxPayload s).isLost = false) :
    (segment maxPayload (s ++ t)).isLost =
      (segment maxPayload ((segment maxPayload s).rest ++ t)).isLost := by
  rw [Segmentation.isLost, segment_append s t h, List.any_append]
  exact (congrArg (· || _) h).trans (Bool.false_or _)

theorem isLost_append_lost {s : List UInt8} (t : List UInt8)
    (h : (segment maxPayload s).isLost = true) : (segment maxPayload (s ++ t)).isLost = true := by
  rw [Segmentation.isLost, segment_append_lost s t h]
  exact h

/-- A frame that has arrived whole is read, or its header has a fault. -/
theorem front_whole_result {s : List UInt8} {size : Nat} {result : Decoded}
    (h : front maxPayload s = .whole size result) :
    (∃ f, result = .frame f) ∨ ∃ why, result = .fault (.decode why) := by
  simp only [front] at h
  split_ifs at h
  injection h with _ hresult
  rw [← hresult, Decoded.ofParts]
  cases Header.read (s.take (numberAt 2 2 s)) with
  | ok h => exact .inl ⟨_, rfl⟩
  | error why => exact .inr ⟨why, rfl⟩

/-! ## Between two frames -/

/-- The bytes that cannot be followed are left over. -/
theorem isLost_of_rest {s : List UInt8} (h : (segment maxPayload s).rest = []) :
    (segment maxPayload s).isLost = false := by
  induction s using segment.induct maxPayload with
  | case1 s hfront =>
    rw [segment_unfinished hfront]
    rfl
  | case2 s why hfront =>
    rw [segment_lost hfront] at h
    obtain rfl : s = [] := h
    cases hfront
  | case3 s size result hfront ih =>
    rw [segment_whole hfront] at h
    rw [isLost_whole hfront]
    exact ih h

/-- Behind the end of a frame a stream begins anew. -/
theorem segment_append_idle {s : List UInt8} (h : (segment maxPayload s).rest = [])
    (t : List UInt8) :
    (segment maxPayload (s ++ t)).frames =
        (segment maxPayload s).frames ++ (segment maxPayload t).frames ∧
      (segment maxPayload (s ++ t)).isLost = (segment maxPayload t).isLost := by
  have hlost := isLost_of_rest h
  rw [frames_append t hlost, isLost_append t hlost, h, List.nil_append]
  exact ⟨rfl, rfl⟩

/-! ## Damaged frames -/

def DamagedFrame.bytes (d : DamagedFrame maxPayload) : List UInt8 := d.header ++ d.payload

theorem segment_damaged (d : DamagedFrame maxPayload) (t : List UInt8) :
    (segment maxPayload (d.bytes ++ t)).frames = (segment maxPayload t).frames ∧
      (segment maxPayload (d.bytes ++ t)).isLost = (segment maxPayload t).isLost := by
  obtain ⟨result, hgives, hfront⟩ := (Item.damaged d).front_eq t
  obtain ⟨why, rfl⟩ := hgives.exists_fault
  have hwhole : front maxPayload (d.bytes ++ t) = .whole d.bytes.length (.fault (.decode why)) :=
    hfront
  rw [isLost_whole hwhole, Segmentation.frames, segment_whole hwhole, List.drop_left]
  exact ⟨rfl, rfl⟩

/-- Nor does a part of one show anything. -/
theorem segment_damaged_prefix {d : DamagedFrame maxPayload} {w : List UInt8}
    (h : w <+: d.bytes) :
    (segment maxPayload w).frames = [] ∧ (segment maxPayload w).isLost = false := by
  rcases Nat.lt_or_ge w.length d.bytes.length with hlt | hge
  · have hpart := (Item.damaged d).front_take ⟨w.length, hlt⟩
    change front maxPayload (d.bytes.take w.length) = .unfinished at hpart
    rw [← List.prefix_iff_eq_take.mp h] at hpart
    rw [segment_unfinished hpart]
    exact ⟨rfl, rfl⟩
  · obtain rfl := h.eq_of_length_le hge
    have hall := segment_damaged d []
    rw [List.append_nil, segment_nil] at hall
    exact hall

/-- A stream without `size` bytes behind the first `start`. -/
def without (start size : Nat) (s : List UInt8) : List UInt8 :=
  s.take start ++ s.drop (start + size)

theorem without_of_length_le {start size : Nat} {s : List UInt8} (h : s.length ≤ start) :
    without start size s = s := by
  rw [without, List.take_of_length_le h, List.drop_eq_nil_of_le (by omega), List.append_nil]

theorem without_append (p s : List UInt8) (size : Nat) :
    without p.length size (p ++ s) = p ++ s.drop size := by
  rw [without, List.take_left, List.drop_length_add_append]

/-- What is left of a stream grows with it. -/
theorem prefix_without (start size : Nat) (s t : List UInt8) :
    without start size s <+: without start size (s ++ t) := by
  rcases Nat.le_total s.length start with hshort | hlong
  · rw [without_of_length_le hshort, without, List.take_append, List.take_of_length_le hshort,
      List.append_assoc]
    exact List.prefix_append s _
  · rw [without, without, List.take_append_of_le_length hlong, List.drop_append,
      List.prefix_append_right_inj]
    exact List.prefix_append _ _

/-- A stream up to any moment, and the same stream as if a damaged frame had never been sent. -/
theorem heard_without {p q u : List UInt8} (d : DamagedFrame maxPayload)
    (hp : (segment maxPayload p).rest = []) (hu : u <+: p ++ d.bytes ++ q) :
    (segment maxPayload (without p.length d.bytes.length u)).frames =
        (segment maxPayload u).frames ∧
      (segment maxPayload (without p.length d.bytes.length u)).isLost =
        (segment maxPayload u).isLost := by
  rw [List.append_assoc] at hu
  rcases List.prefix_or_prefix_of_prefix hu (List.prefix_append p _) with hshort | ⟨w, rfl⟩
  · rw [without_of_length_le hshort.length_le]
    exact ⟨rfl, rfl⟩
  · rw [List.prefix_append_right_inj] at hu
    rw [without_append]
    obtain ⟨hframes, hlost⟩ := segment_append_idle hp w
    obtain ⟨hframes', hlost'⟩ := segment_append_idle hp (w.drop d.bytes.length)
    rw [hframes, hlost, hframes', hlost']
    rcases List.prefix_or_prefix_of_prefix hu (List.prefix_append d.bytes q) with
      hpart | ⟨t, rfl⟩
    · -- The damaged frame is still on its way, or has just arrived.
      obtain ⟨hnone, hheld⟩ := segment_damaged_prefix hpart
      rw [List.drop_eq_nil_of_le hpart.length_le, hnone, hheld, segment_nil]
      exact ⟨rfl, rfl⟩
    · obtain ⟨hd, hdlost⟩ := segment_damaged d t
      rw [List.drop_left, hd, hdlost]
      exact ⟨rfl, rfl⟩

end TopicBus
