import TopicBus.Proofs.Wire.Layout

/-!
Reading a header with a cursor. Each step takes the bytes it wants off the front, and past the end
there are none: a step that asks for too much has no answer at all, not even a fault. The checks in
front of the steps keep that from happening, so the cursor always has an answer and it is that of
`Header.read` (`cursor_eq`). Main statement: a header is read off exactly its own layout
(`decode_iff_spells`).
-/

namespace TopicBus

namespace Wire

def takeUInt16? : List UInt8 → Option (UInt16 × List UInt8)
  | a :: b :: rest => some (toUInt16 a b, rest)
  | _ => none

def takeUInt32? : List UInt8 → Option (UInt32 × List UInt8)
  | a :: b :: c :: d :: rest => some (toUInt32 a b c d, rest)
  | _ => none

def takeBytes? (size : Nat) (bytes : List UInt8) : Option (List UInt8 × List UInt8) :=
  if bytes.length < size then none else some (bytes.take size, bytes.drop size)

/-- A text behind its length. -/
def cursorText (what : String) (bytes : List UInt8) :
    Option (Except Malformed (String × List UInt8)) :=
  if bytes.length < lengthSize then some (.error (.truncatedLength what))
  else do
    let (size, rest) ← takeUInt32? bytes
    if maxTopicSize < size.toNat then some (.error (.lengthOverLimit what size.toNat))
    else if rest.length < size.toNat then some (.error (.truncated what))
    else do
      let (text, rest) ← takeBytes? size.toNat rest
      match Utf8.decode text with
      | .ok s => some (.ok (s, rest))
      | .error defect => some (.error (.notUtf8 what defect))

theorem takeUInt16?_putUInt16 (n : UInt16) (rest : List UInt8) :
    takeUInt16? (putUInt16 n ++ rest) = some (n, rest) := by
  have hn : toUInt16 (n >>> 8).toUInt8 n.toUInt8 = n := toUInt16_eq_iff.mpr rfl
  simp only [putUInt16, List.cons_append, List.nil_append, takeUInt16?, hn]

theorem takeUInt32?_putUInt32 (n : UInt32) (rest : List UInt8) :
    takeUInt32? (putUInt32 n ++ rest) = some (n, rest) := by
  have hn : toUInt32 (n >>> 24).toUInt8 (n >>> 16).toUInt8 (n >>> 8).toUInt8 n.toUInt8 = n :=
    toUInt32_eq_iff.mpr rfl
  simp only [putUInt32, List.cons_append, List.nil_append, takeUInt32?, hn]

theorem cursorText_eq (what : String) (bytes : List UInt8) :
    cursorText what bytes = some (getText what bytes) := by
  by_cases hshort : bytes.length < lengthSize
  · rw [getText_short hshort, cursorText, if_pos hshort]
  · obtain ⟨n, rest, rfl⟩ := exists_putUInt32 bytes (Nat.le_of_not_lt hshort)
    rw [getText_putUInt32, cursorText, if_neg hshort, takeUInt32?_putUInt32]
    simp only [Option.bind_eq_bind, Option.bind_some]
    split_ifs with hmax hlen
    · rfl
    · rfl
    · rw [takeBytes?, if_neg hlen, Option.bind_some]
      cases Utf8.decode (rest.take n.toNat) <;> rfl

end Wire

namespace Header

open Wire

/-- The reply topic, where there are bytes left for one. -/
def cursorReplyTopic (bytes : List UInt8) : Option (Except Malformed (Option String)) :=
  if bytes.isEmpty then some (.ok none)
  else do
    match ← cursorText "reply topic" bytes with
    | .error why => some (.error why)
    | .ok (r, rest) =>
      if rest.isEmpty then some (.ok (some r)) else some (.error (.trailingBytes rest.length))

/-- A header, one field after the other. -/
def cursor (bytes : List UInt8) : Option (Except Malformed Header) :=
  if bytes.length < minHeaderSize then some (.error (.shortHeader bytes.length))
  else do
    let (version, rest) ← takeUInt16? bytes
    if version ≠ protocolVersion then some (.error (.unsupportedVersion version.toNat))
    else do
      let (headerLength, rest) ← takeUInt16? rest
      if headerLength.toNat ≠ bytes.length then
        some (.error (.headerLengthMismatch headerLength.toNat bytes.length))
      else do
        let (sequence, rest) ← takeUInt32? rest
        let (flags, rest) ← takeUInt32? rest
        let (control, rest) ← takeUInt32? rest
        let (payloadLength, rest) ← takeUInt32? rest
        match ← cursorText "topic" rest with
        | .error why => some (.error why)
        | .ok (topic, rest) =>
          match ← cursorReplyTopic rest with
          | .error why => some (.error why)
          | .ok replyTopic =>
            let h : Header := ⟨version, headerLength, sequence, ⟨flags⟩, control, payloadLength,
              topic, replyTopic⟩
            if h.isRequest && replyTopic.isNone then some (.error .requestWithoutReplyTopic)
            else some (.ok h)

theorem cursorReplyTopic_eq (bytes : List UInt8) :
    cursorReplyTopic bytes = some (getReplyTopic bytes) := by
  cases bytes with
  | nil => rfl
  | cons b bytes =>
    rw [cursorReplyTopic, if_neg (by simp), cursorText_eq, getReplyTopic]
    simp only [Option.bind_eq_bind, Option.bind_some]
    cases getText "reply topic" (b :: bytes) with
    | error why => rfl
    | ok found =>
      simp only [bind, Except.bind, pure, Except.pure]
      split_ifs <;> rfl
    exact List.cons_ne_nil b bytes

theorem cursor_eq (bytes : List UInt8) : cursor bytes = some (read bytes) := by
  by_cases hmin : bytes.length < minHeaderSize
  · rw [cursor, if_pos hmin, read_of_lt hmin]
  · have hfixed : fixedSize ≤ bytes.length := by
      rw [minHeaderSize] at hmin
      omega
    obtain ⟨v, l, s, f, c, p, rest, rfl⟩ := exists_fixed hfixed
    have hlen : (fixed v l s f c p ++ rest).length = fixedSize + rest.length := List.length_append
    rw [cursor, if_neg hmin, read_fixed, ← hlen, if_neg hmin]
    simp only [fixed, List.append_assoc, takeUInt16?_putUInt16, takeUInt32?_putUInt32,
      cursorText_eq, cursorReplyTopic_eq, Option.bind_eq_bind, Option.bind_some]
    split_ifs with hversion hlength
    · rfl
    · rfl
    · cases getText "topic" rest with
      | error why => rfl
      | ok found =>
        simp only [bind, Except.bind]
        cases getReplyTopic found.2 with
        | error why => rfl
        | ok reply =>
          simp only []
          split_ifs <;> rfl

/-! ## The grammar -/

theorem decode_eq_ok_iff {bytes : List UInt8} {h : Header} :
    decode bytes = .ok h ↔ Spells bytes h := by
  rw [← read_eq_ok_iff, decode]
  cases read bytes <;> simp [Except.mapError]

/-- The size of the bytes tells how much of a reply topic there is. -/
theorem Spells.length_eq {bytes : List UInt8} {h : Header} (hs : Spells bytes h) :
    bytes.length = minHeaderSize + h.topic.utf8ByteSize + match h.replyTopic with
      | some r => lengthSize + r.utf8ByteSize
      | none => 0 := by
  rw [hs.layout, length_layout]
  rfl

/-- A header is read off exactly the layout of its own fields, these being within their bounds; so
two byte strings never read as the same header. Without a reply topic the bytes end behind the
topic, with an empty one they end behind its length. All else is a fault inside the header, and no
step of the reading goes past the end of the bytes. -/
theorem decode_iff_spells :
    (∀ (bytes : List UInt8) (h : Header), decode bytes = .ok h ↔ Spells bytes h) ∧
    (∀ (bytes other : List UInt8) (h : Header),
      decode bytes = .ok h → decode other = .ok h → bytes = other) ∧
    (∀ (bytes : List UInt8) (h : Header), decode bytes = .ok h →
      (h.replyTopic = none ↔ bytes.length = minHeaderSize + h.topic.utf8ByteSize) ∧
      (h.replyTopic = some "" ↔
        bytes.length = minHeaderSize + h.topic.utf8ByteSize + lengthSize)) ∧
    (∀ bytes : List UInt8, (¬∃ h, Spells bytes h) → ∃ why, decode bytes = .error (.decode why)) ∧
    ∀ bytes : List UInt8, cursor bytes = some (read bytes) := by
  refine ⟨fun _ _ => decode_eq_ok_iff, ?_, ?_, ?_, cursor_eq⟩
  · intro bytes other h hbytes hother
    rw [(decode_eq_ok_iff.mp hbytes).layout, (decode_eq_ok_iff.mp hother).layout]
  · intro bytes h hread
    have hlen := (decode_eq_ok_iff.mp hread).length_eq
    cases hr : h.replyTopic with
    | none =>
      rw [hr] at hlen
      simp only [lengthSize] at hlen ⊢
      constructor
      · simpa using hlen
      · simp only [reduceCtorEq, false_iff]
        omega
    | some r =>
      rw [hr] at hlen
      have hempty : r = "" ↔ r.utf8ByteSize = 0 := String.utf8ByteSize_eq_zero_iff.symm
      simp only [lengthSize] at hlen ⊢
      constructor
      · simp only [reduceCtorEq, false_iff]
        omega
      · rw [Option.some.injEq, hempty]
        omega
  · intro bytes hnone
    cases hread : read bytes with
    | ok h => exact absurd ⟨h, read_eq_ok_iff.mp hread⟩ hnone
    | error why =>
      refine ⟨why, ?_⟩
      rw [decode, hread]
      rfl

end Header

end TopicBus
