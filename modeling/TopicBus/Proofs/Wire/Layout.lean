import TopicBus.Proofs.Text.Utf8
import TopicBus.Proofs.Wire.Segmentation

/-!
The byte strings that are headers. Each field is written in one way only, so reading one off the
front of its own bytes succeeds exactly where the bytes are its layout; the fields put together give
`read_eq_ok_iff`. `Header.take?` reads with a cursor that has nothing to give past the end of the
bytes, and its checks keep it from ever asking (`take?_eq`).
-/

namespace TopicBus

/-- A chain succeeds where its first part does and what follows it. -/
theorem bind_eq_ok_iff {ε α β : Type} {x : Except ε α} {f : α → Except ε β} {b : β} :
    x >>= f = .ok b ↔ ∃ a, x = .ok a ∧ f a = .ok b := by
  cases x with
  | error why => exact ⟨nofun, fun ⟨_, h, _⟩ => nomatch h⟩
  | ok a =>
    constructor
    · intro h
      exact ⟨a, rfl, h⟩
    · rintro ⟨a', ha, h⟩
      rw [Except.ok.injEq] at ha
      rw [← ha] at h
      exact h

/-- A chain fails with its first part or with what follows it. -/
theorem bind_eq_error_iff {ε α β : Type} {x : Except ε α} {f : α → Except ε β} {why : ε} :
    x >>= f = .error why ↔ x = .error why ∨ ∃ a, x = .ok a ∧ f a = .error why := by
  cases x with
  | error other =>
    constructor
    · intro h
      exact .inl (congrArg Except.error (Except.error.inj h))
    · rintro (h | ⟨_, h, _⟩)
      · exact congrArg Except.error (Except.error.inj h)
      · nomatch h
  | ok a =>
    constructor
    · intro h
      exact .inr ⟨a, rfl, h⟩
    · rintro (h | ⟨a', ha, h⟩)
      · nomatch h
      · rw [Except.ok.inj ha]
        exact h

theorem check_bind_eq_ok_iff {ε β : Type} {x : Except ε Unit} {f : Unit → Except ε β} {b : β} :
    x >>= f = .ok b ↔ x = .ok () ∧ f () = .ok b := by
  rw [bind_eq_ok_iff]
  constructor
  · rintro ⟨⟨⟩, hx, h⟩
    exact ⟨hx, h⟩
  · rintro ⟨hx, h⟩
    exact ⟨(), hx, h⟩

namespace Wire

/-! ## Numbers -/

theorem length_putUInt16 (n : UInt16) : (putUInt16 n).length = 2 := rfl

theorem length_putUInt32 (n : UInt32) : (putUInt32 n).length = 4 := rfl

theorem bigEndian_putUInt16 (n : UInt16) : bigEndian (putUInt16 n) = n.toNat := by
  have hn := n.toNat_lt
  simp only [bigEndian, putUInt16, List.foldl_cons, List.foldl_nil, UInt16.toNat_toUInt8,
    UInt16.toNat_shiftRight]
  change (0 * 256 + n.toNat >>> 8 % 256) * 256 + n.toNat % 256 = n.toNat
  rw [Nat.shiftRight_eq_div_pow]
  omega

theorem bigEndian_putUInt32 (n : UInt32) : bigEndian (putUInt32 n) = n.toNat := by
  have hn := n.toNat_lt
  simp only [bigEndian, putUInt32, List.foldl_cons, List.foldl_nil, UInt32.toNat_toUInt8,
    UInt32.toNat_shiftRight]
  change (((0 * 256 + n.toNat >>> 24 % 256) * 256 + n.toNat >>> 16 % 256) * 256 +
    n.toNat >>> 8 % 256) * 256 + n.toNat % 256 = n.toNat
  rw [Nat.shiftRight_eq_div_pow, Nat.shiftRight_eq_div_pow, Nat.shiftRight_eq_div_pow]
  omega

/-- A number is read off exactly the bytes that it is written as. -/
theorem toUInt16_eq_iff {a b : UInt8} {n : UInt16} : toUInt16 a b = n ↔ [a, b] = putUInt16 n := by
  constructor
  · rintro rfl
    have ha := a.toNat_lt
    have hb := b.toNat_lt
    have hsum := toUInt16_toNat a b
    simp only [putUInt16, List.cons.injEq, and_true, ← UInt8.toNat_inj, UInt16.toNat_toUInt8,
      UInt16.toNat_shiftRight]
    constructor
    · change a.toNat = (toUInt16 a b).toNat >>> 8 % 256
      rw [hsum, Nat.shiftRight_eq_div_pow]
      omega
    · omega
  · intro h
    have hnat := bigEndian_putUInt16 n
    rw [← h] at hnat
    rw [← UInt16.toNat_inj, toUInt16_toNat, ← hnat]
    simp [bigEndian]

theorem toUInt32_eq_iff {a b c d : UInt8} {n : UInt32} :
    toUInt32 a b c d = n ↔ [a, b, c, d] = putUInt32 n := by
  constructor
  · rintro rfl
    have ha := a.toNat_lt
    have hb := b.toNat_lt
    have hc := c.toNat_lt
    have hd := d.toNat_lt
    have hsum := toUInt32_toNat a b c d
    simp only [putUInt32, List.cons.injEq, and_true, ← UInt8.toNat_inj, UInt32.toNat_toUInt8,
      UInt32.toNat_shiftRight]
    refine ⟨?_, ?_, ?_, by omega⟩
    · change a.toNat = (toUInt32 a b c d).toNat >>> 24 % 256
      rw [hsum, Nat.shiftRight_eq_div_pow]
      omega
    · change b.toNat = (toUInt32 a b c d).toNat >>> 16 % 256
      rw [hsum, Nat.shiftRight_eq_div_pow]
      omega
    · change c.toNat = (toUInt32 a b c d).toNat >>> 8 % 256
      rw [hsum, Nat.shiftRight_eq_div_pow]
      omega
  · intro h
    have hnat := bigEndian_putUInt32 n
    rw [← h] at hnat
    rw [← UInt32.toNat_inj, toUInt32_toNat, ← hnat]
    simp [bigEndian]

/-- Every byte string that is long enough begins with a number. -/
theorem exists_putUInt16 (bytes : List UInt8) (h : 2 ≤ bytes.length) :
    ∃ n rest, bytes = putUInt16 n ++ rest := by
  match bytes with
  | [] | [_] => simp at h
  | a :: b :: rest =>
    have htwo : [a, b] = putUInt16 (toUInt16 a b) := toUInt16_eq_iff.mp rfl
    exact ⟨toUInt16 a b, rest, by rw [← htwo]; rfl⟩

theorem exists_putUInt32 (bytes : List UInt8) (h : 4 ≤ bytes.length) :
    ∃ n rest, bytes = putUInt32 n ++ rest := by
  match bytes with
  | [] | [_] | [_, _] | [_, _, _] => simp at h
  | a :: b :: c :: d :: rest =>
    have hfour : [a, b, c, d] = putUInt32 (toUInt32 a b c d) := toUInt32_eq_iff.mp rfl
    exact ⟨toUInt32 a b c d, rest, by rw [← hfour]; rfl⟩

/-! ## Texts -/

theorem length_putText (s : String) : (putText s).length = lengthSize + s.utf8ByteSize := by
  rw [putText, List.length_append, length_putUInt32, Utf8.length_encode]
  rfl

theorem putText_ne_nil (s : String) : putText s ≠ [] := by
  intro h
  have hlen := length_putText s
  rw [h, List.length_nil, lengthSize] at hlen
  omega

private theorem toNat_ofNat_size {s : String} (h : s.utf8ByteSize ≤ maxTopicSize) :
    (UInt32.ofNat s.utf8ByteSize).toNat = s.utf8ByteSize := by
  rw [maxTopicSize] at h
  rw [UInt32.toNat_ofNat']
  omega

theorem getText_putUInt32 (what : String) (n : UInt32) (rest : List UInt8) :
    getText what (putUInt32 n ++ rest) =
      if maxTopicSize < n.toNat then .error (.lengthOverLimit what n.toNat)
      else if rest.length < n.toNat then .error (.truncated what)
      else match Utf8.decode (rest.take n.toNat) with
        | .ok s => .ok (s, rest.drop n.toNat)
        | .error defect => .error (.notUtf8 what defect) := by
  have hn : toUInt32 (n >>> 24).toUInt8 (n >>> 16).toUInt8 (n >>> 8).toUInt8 n.toUInt8 = n :=
    toUInt32_eq_iff.mpr rfl
  show (fun m : UInt32 => (if maxTopicSize < m.toNat then .error (.lengthOverLimit what m.toNat)
    else if rest.length < m.toNat then .error (.truncated what)
    else match Utf8.decode (rest.take m.toNat) with
      | .ok s => .ok (s, rest.drop m.toNat)
      | .error defect => .error (.notUtf8 what defect) : Except Malformed (String × List UInt8)))
    (toUInt32 (n >>> 24).toUInt8 (n >>> 16).toUInt8 (n >>> 8).toUInt8 n.toUInt8) = _
  rw [hn]

theorem getText_short {what : String} {bytes : List UInt8} (h : bytes.length < lengthSize) :
    getText what bytes = .error (.truncatedLength what) := by
  match bytes with
  | [] | [_] | [_, _] | [_, _, _] => rfl
  | _ :: _ :: _ :: _ :: _ =>
    simp only [List.length_cons, lengthSize] at h
    omega

/-- A text is read off the front of exactly the byte strings that begin with it. -/
theorem getText_eq_ok_iff {what s : String} {bytes rest : List UInt8} :
    getText what bytes = .ok (s, rest) ↔
      bytes = putText s ++ rest ∧ s.utf8ByteSize ≤ maxTopicSize := by
  constructor
  · intro h
    by_cases hshort : bytes.length < lengthSize
    · rw [getText_short hshort] at h
      nomatch h
    obtain ⟨n, tail, rfl⟩ := exists_putUInt32 bytes (Nat.le_of_not_lt hshort)
    rw [getText_putUInt32] at h
    split_ifs at h with hmax hlen
    split at h
    · next t ht =>
      rw [Except.ok.injEq, Prod.mk.injEq] at h
      obtain ⟨rfl, rfl⟩ := h
      have htext : tail.take n.toNat = Utf8.encode t := Utf8.decode_eq_ok_iff.mp ht
      have hsize : n.toNat = t.utf8ByteSize := by
        rw [← Utf8.length_encode, ← htext, List.length_take]
        omega
      refine ⟨?_, by omega⟩
      rw [putText, List.append_assoc, ← hsize, ← htext, UInt32.ofNat_toNat,
        List.take_append_drop]
    · nomatch h
  · rintro ⟨rfl, hs⟩
    have hsize := toNat_ofNat_size hs
    have hlen := Utf8.length_encode s
    have htake : (Utf8.encode s ++ rest).take s.utf8ByteSize = Utf8.encode s := by
      rw [← hlen, List.take_left]
    have hdrop : (Utf8.encode s ++ rest).drop s.utf8ByteSize = rest := by
      rw [← hlen, List.drop_left]
    rw [putText, List.append_assoc, getText_putUInt32, hsize, if_neg (by omega),
      if_neg (by rw [List.length_append]; omega), htake, hdrop, Utf8.decode_encode]

end Wire

namespace Header

open Wire

/-- The fields in front of the topic. -/
def fixed (version headerLength : UInt16) (sequence flags control payloadLength : UInt32) :
    List UInt8 :=
  putUInt16 version ++ putUInt16 headerLength ++ putUInt32 sequence ++ putUInt32 flags ++
    putUInt32 control ++ putUInt32 payloadLength

/-- What stands behind the topic. -/
def putReplyTopic : Option String → List UInt8
  | some r => putText r
  | none => []

theorem layout_eq (h : Header) (size : UInt16) :
    h.layout size =
      fixed h.version size h.sequence h.flags.bits h.control h.payloadLength ++
        (putText h.topic ++ putReplyTopic h.replyTopic) := by
  simp only [layout, fixed, List.append_assoc]
  rfl

variable (v l : UInt16) (s f c p : UInt32) (rest : List UInt8)

theorem length_fixed : (fixed v l s f c p).length = fixedSize := rfl

/-- Every byte string that is long enough begins with the fixed fields. -/
theorem exists_fixed {bytes : List UInt8} (h : fixedSize ≤ bytes.length) :
    ∃ v l s f c p rest, bytes = fixed v l s f c p ++ rest := by
  rw [fixedSize] at h
  obtain ⟨v, r₁, rfl⟩ := exists_putUInt16 bytes (by omega)
  rw [List.length_append, length_putUInt16] at h
  obtain ⟨l, r₂, rfl⟩ := exists_putUInt16 r₁ (by omega)
  rw [List.length_append, length_putUInt16] at h
  obtain ⟨s, r₃, rfl⟩ := exists_putUInt32 r₂ (by omega)
  rw [List.length_append, length_putUInt32] at h
  obtain ⟨f, r₄, rfl⟩ := exists_putUInt32 r₃ (by omega)
  rw [List.length_append, length_putUInt32] at h
  obtain ⟨c, r₅, rfl⟩ := exists_putUInt32 r₄ (by omega)
  rw [List.length_append, length_putUInt32] at h
  obtain ⟨p, rest, rfl⟩ := exists_putUInt32 r₅ (by omega)
  exact ⟨v, l, s, f, c, p, rest, by simp only [fixed, List.append_assoc]⟩

/-- The reply topic is read off exactly its own bytes; no bytes mean that there is none. -/
theorem getReplyTopic_eq_ok_iff {bytes : List UInt8} {r : Option String} :
    getReplyTopic bytes = .ok r ↔
      bytes = putReplyTopic r ∧ ∀ s ∈ r, s.utf8ByteSize ≤ maxTopicSize := by
  cases bytes with
  | nil =>
    cases r with
    | none => simp [getReplyTopic, putReplyTopic]
    | some r => simp [getReplyTopic, putReplyTopic, (putText_ne_nil r).symm]
  | cons b bytes =>
    have hread : getReplyTopic (b :: bytes) = getText "reply topic" (b :: bytes) >>= fun found =>
        if found.2.isEmpty then .ok (some found.1) else .error (.trailingBytes found.2.length) := rfl
    rw [hread, bind_eq_ok_iff]
    constructor
    · rintro ⟨⟨t, rest⟩, htext, h⟩
      obtain ⟨hbytes, hsize⟩ := getText_eq_ok_iff.mp htext
      dsimp only at h
      split_ifs at h with hrest
      rw [List.isEmpty_iff.mp hrest, List.append_nil] at hbytes
      rw [Except.ok.injEq] at h
      rw [← h]
      exact ⟨hbytes, by simpa using hsize⟩
    · rintro ⟨hbytes, hsize⟩
      cases r with
      | none => nomatch hbytes
      | some r =>
        refine ⟨(r, []), getText_eq_ok_iff.mpr ⟨?_, hsize r rfl⟩, rfl⟩
        rw [hbytes, List.append_nil]
        rfl

theorem read_short {bytes : List UInt8} (h : bytes.length < fixedSize) :
    read bytes = .error (.shortHeader bytes.length) := by
  unfold read
  split
  · simp only [List.length_cons, fixedSize] at h
    omega
  · rfl

theorem read_fixed :
    read (fixed v l s f c p ++ rest) =
      if fixedSize + rest.length < minHeaderSize then .error (.shortHeader (fixedSize + rest.length))
      else if v ≠ protocolVersion then .error (.unsupportedVersion v.toNat)
      else if l.toNat ≠ fixedSize + rest.length then
        .error (.headerLengthMismatch l.toNat (fixedSize + rest.length))
      else getText "topic" rest >>= fun found => getReplyTopic found.2 >>= fun reply =>
        if (⟨v, l, s, ⟨f⟩, c, p, found.1, reply⟩ : Header).isRequest && reply.isNone then
          .error .requestWithoutReplyTopic
        else .ok ⟨v, l, s, ⟨f⟩, c, p, found.1, reply⟩ := by
  have h16 (n : UInt16) : toUInt16 (n >>> 8).toUInt8 n.toUInt8 = n := toUInt16_eq_iff.mpr rfl
  have h32 (n : UInt32) :
      toUInt32 (n >>> 24).toUInt8 (n >>> 16).toUInt8 (n >>> 8).toUInt8 n.toUInt8 = n :=
    toUInt32_eq_iff.mpr rfl
  have hlen : (fixed v l s f c p ++ rest).length = fixedSize + rest.length := List.length_append
  rw [← hlen]
  simp only [fixed, putUInt16, putUInt32, List.cons_append, List.nil_append, read, bind,
    Except.bind, pure, Except.pure, h16, h32]
  rfl

theorem read_of_lt {bytes : List UInt8} (h : bytes.length < minHeaderSize) :
    read bytes = .error (.shortHeader bytes.length) := by
  by_cases hshort : bytes.length < fixedSize
  · exact read_short hshort
  · obtain ⟨v, l, s, f, c, p, rest, rfl⟩ := exists_fixed (Nat.le_of_not_lt hshort)
    rw [List.length_append, length_fixed] at h ⊢
    rw [read_fixed, if_pos h]

/-- The bytes are the layout of the header's own fields, and these are within their bounds. -/
structure Spells (bytes : List UInt8) (h : Header) : Prop where
  layout : bytes = h.layout h.headerLength
  version : h.version = protocolVersion
  headerLength : h.headerLength.toNat = bytes.length
  topic : h.topic.utf8ByteSize ≤ maxTopicSize
  replyTopic : ∀ r ∈ h.replyTopic, r.utf8ByteSize ≤ maxTopicSize
  request : h.isRequest = true → h.replyTopic.isSome = true

theorem length_putReplyTopic (r : Option String) :
    (putReplyTopic r).length = match r with
      | some r => lengthSize + r.utf8ByteSize
      | none => 0 := by
  cases r with
  | none => rfl
  | some r => exact length_putText r

theorem length_layout (h : Header) (size : UInt16) : (h.layout size).length = h.encodedSize := by
  rw [layout_eq, List.length_append, List.length_append, length_fixed, length_putText,
    length_putReplyTopic, ← Nat.add_assoc, ← Nat.add_assoc]
  rfl

theorem read_eq_ok_iff {bytes : List UInt8} {h : Header} :
    read bytes = .ok h ↔ Spells bytes h := by
  constructor
  · intro hread
    by_cases hshort : bytes.length < fixedSize
    · rw [read_short hshort] at hread
      nomatch hread
    obtain ⟨v, l, s, f, c, p, rest, rfl⟩ := exists_fixed (Nat.le_of_not_lt hshort)
    rw [read_fixed] at hread
    split_ifs at hread with hmin hversion hlength
    simp only [bind_eq_ok_iff] at hread
    obtain ⟨⟨topic, tail⟩, htext, reply, hreply, hread⟩ := hread
    obtain ⟨hrest, htopic⟩ := getText_eq_ok_iff.mp htext
    obtain ⟨htail, hreplySize⟩ := getReplyTopic_eq_ok_iff.mp hreply
    dsimp only at hread htail
    split_ifs at hread with hrequest
    rw [Except.ok.injEq] at hread
    subst hread
    refine ⟨?_, ?_, ?_, htopic, hreplySize, ?_⟩
    · rw [layout_eq, hrest, htail]
    · simpa using hversion
    · rw [List.length_append, length_fixed]
      simpa using hlength
    · intro h
      rw [h, Bool.true_and, Option.isNone_iff_eq_none] at hrequest
      exact Option.isSome_iff_ne_none.mpr hrequest
  · intro hspells
    have hlen : bytes.length = h.encodedSize := by
      rw [hspells.layout, length_layout]
    have hmin : ¬bytes.length < minHeaderSize := by
      rw [hlen, encodedSize, minHeaderSize]
      omega
    have hlayout := hspells.layout
    rw [layout_eq] at hlayout
    have hbytes : fixedSize + (putText h.topic ++ putReplyTopic h.replyTopic).length =
        bytes.length := by
      rw [← length_fixed, ← List.length_append, ← hlayout]
    have htext : getText "topic" (putText h.topic ++ putReplyTopic h.replyTopic) =
        .ok (h.topic, putReplyTopic h.replyTopic) := getText_eq_ok_iff.mpr ⟨rfl, hspells.topic⟩
    have hreply : getReplyTopic (putReplyTopic h.replyTopic) = .ok h.replyTopic :=
      getReplyTopic_eq_ok_iff.mpr ⟨rfl, hspells.replyTopic⟩
    have hrequest : ¬(h.isRequest && h.replyTopic.isNone) = true := by
      intro hboth
      rw [Bool.and_eq_true, Option.isNone_iff_eq_none] at hboth
      have hsome := hspells.request hboth.1
      rw [hboth.2] at hsome
      nomatch hsome
    rw [hlayout, read_fixed, hbytes, if_neg hmin, if_neg (not_not.mpr hspells.version),
      if_neg (not_not.mpr hspells.headerLength), htext]
    change (getReplyTopic (putReplyTopic h.replyTopic) >>= _) = _
    rw [hreply]
    exact if_neg hrequest

end Header

end TopicBus
