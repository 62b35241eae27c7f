import Mathlib.Data.String.Basic
import Mathlib.Tactic.SplitIfs
import TopicBus.Text.Utf8

/-!
The order of texts is the order of their UTF-8 bytes (`encode_lt_encode_iff`): the bytes of a
smaller character are smaller at the first place where they differ.
-/

namespace TopicBus.Utf8

theorem encode_eq_flatMap (s : String) : encode s = s.toList.flatMap String.utf8EncodeChar := by
  have hbytes : (String.ofList s.toList).toByteArray = s.toList.utf8Encode :=
    String.toByteArray_ofList
  rw [String.ofList_toList] at hbytes
  rw [encode, String.toUTF8, hbytes, List.utf8Encode, List.data_toByteArray, List.toList_toArray]

private theorem byte_cons_lt {m n : Nat} (hm : m < 256) (hn : n < 256) {s t : List UInt8} :
    UInt8.ofNat m :: s < UInt8.ofNat n :: t ↔ m < n ∨ m = n ∧ s < t := by
  rw [List.cons_lt_cons_iff, UInt8.lt_iff_toNat_lt, ← UInt8.toNat_inj, UInt8.toNat_ofNat',
    UInt8.toNat_ofNat', Nat.mod_eq_of_lt hm, Nat.mod_eq_of_lt hn]

/-- The bytes of a smaller character are smaller, whatever follows the two. -/
theorem utf8EncodeChar_append_lt {c d : Char} (h : c < d) (s t : List UInt8) :
    String.utf8EncodeChar c ++ s < String.utf8EncodeChar d ++ t := by
  have hlt : c.val.toNat < d.val.toNat := h
  have hbound : d.val.toNat < 0x110000 :=
    d.valid.elim (fun h => Nat.lt_trans h (by decide)) And.right
  -- The bytes are digits to the base 64 behind a mark for their number.
  have hfar : ∀ k, k / 4096 = k / 64 / 64 := fun k => (Nat.div_div_eq_div_mul k 64 64).symm
  have hfarther : ∀ k, k / 262144 = k / 64 / 64 / 64 := by
    intro k
    rw [Nat.div_div_eq_div_mul, Nat.div_div_eq_div_mul]
  unfold String.utf8EncodeChar
  generalize c.val.toNat = m, d.val.toNat = n at hlt hbound ⊢
  simp only [hfar, hfarther]
  split_ifs
  all_goals simp only [List.cons_append, List.nil_append]
  all_goals repeat rw [byte_cons_lt (by omega) (by omega)]
  all_goals omega

private theorem flatMap_lt {cs ds : List Char} (h : cs < ds) :
    cs.flatMap String.utf8EncodeChar < ds.flatMap String.utf8EncodeChar := by
  induction cs generalizing ds with
  | nil =>
    cases ds with
    | nil => exact absurd h (List.lt_irrefl [])
    | cons d ds =>
      rw [List.flatMap_nil, List.flatMap_cons]
      obtain ⟨b, more, hcons⟩ := List.exists_cons_of_ne_nil (String.utf8EncodeChar_ne_nil)
      rw [hcons]
      exact List.nil_lt_cons _ _
  | cons c cs ih =>
    cases ds with
    | nil => exact absurd h (List.not_lt_nil _)
    | cons d ds =>
      rw [List.flatMap_cons, List.flatMap_cons]
      rcases List.cons_lt_cons_iff.mp h with hlt | ⟨rfl, hlt⟩
      · exact utf8EncodeChar_append_lt hlt _ _
      · exact List.append_left_lt (ih hlt)

theorem encode_lt_of_lt {a b : String} (h : a < b) : encode a < encode b := by
  rw [encode_eq_flatMap, encode_eq_flatMap]
  exact flatMap_lt (String.lt_iff_toList_lt.mp h)

theorem encode_lt_encode_iff {a b : String} : encode a < encode b ↔ a < b := by
  constructor
  · intro h
    by_contra hle
    rcases lt_or_eq_of_le (not_lt.mp hle) with hlt | rfl
    · exact List.lt_asymm (encode_lt_of_lt hlt) h
    · exact List.lt_irrefl _ h
  · exact encode_lt_of_lt

end TopicBus.Utf8
