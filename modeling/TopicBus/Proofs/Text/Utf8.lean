import TopicBus.Text.Utf8

/-!
`encode` and `decode` undo each other: `decode` accepts exactly the byte strings that `encode`
gives.
-/

namespace TopicBus.Utf8

theorem length_encode (s : String) : (encode s).length = s.utf8ByteSize := rfl

private theorem ofArray_encode (s : String) :
    (⟨(encode s).toArray⟩ : ByteArray) = s.toByteArray := by
  simp [encode, String.toUTF8]

theorem decode_encode (s : String) : decode (encode s) = .ok s := by
  have hvalid : (⟨(encode s).toArray⟩ : ByteArray).IsValidUTF8 := by
    rw [ofArray_encode]
    exact s.isValidUTF8
  have hread : String.fromUTF8? ⟨(encode s).toArray⟩ = some s := by
    rw [String.fromUTF8?, dif_pos hvalid, Option.some.injEq, ← String.toByteArray_inj]
    exact ofArray_encode s
  rw [decode, hread]

theorem encode_of_decode {bytes : List UInt8} {s : String} (h : decode bytes = .ok s) :
    encode s = bytes := by
  unfold decode String.fromUTF8? at h
  split at h
  · next t ht =>
    split at ht
    · rw [Option.some.injEq] at ht
      rw [Except.ok.injEq] at h
      rw [← h, ← ht]
      rfl
    · nomatch ht
  · nomatch h

theorem decode_eq_ok_iff {bytes : List UInt8} {s : String} :
    decode bytes = .ok s ↔ bytes = encode s := by
  constructor
  · intro h
    exact (encode_of_decode h).symm
  · rintro rfl
    exact decode_encode s

end TopicBus.Utf8
