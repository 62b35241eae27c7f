import Mathlib.Data.Nat.Digits.Defs
import Mathlib.Data.String.Basic
import TopicBus.Proofs.Json.Figures
import TopicBus.Proofs.Json.Text

/-!
How many bytes written values take. An escape makes at most six bytes out of one.
-/

namespace TopicBus.Json

open Decimal String

theorem utf8Size_hexDigit : ∀ n < 0x20,
    (hexDigit (n / 16)).utf8Size = 1 ∧ (hexDigit (n % 16)).utf8Size = 1 := by
  decide

theorem utf8Len_escape_le (c : Char) (rest : List Char) :
    utf8Len (escape c rest) ≤ 6 * c.utf8Size + utf8Len rest := by
  have hpos := c.utf8Size_pos
  have hbackslash : '\\'.utf8Size = 1 := rfl
  have hshort : ∀ d : Char, d.utf8Size = 1 →
      utf8Len ('\\' :: d :: rest) ≤ 6 * c.utf8Size + utf8Len rest := by
    intro d hd
    simp only [utf8Len_cons, hbackslash, hd]
    omega
  unfold escape
  split_ifs with _ _ _ _ _ _ _ hcontrol
  · exact hshort '"' rfl
  · exact hshort '\\' rfl
  · exact hshort 'b' rfl
  · exact hshort 't' rfl
  · exact hshort 'n' rfl
  · exact hshort 'f' rfl
  · exact hshort 'r' rfl
  · obtain ⟨hhigh, hlow⟩ := utf8Size_hexDigit c.toNat hcontrol
    have hu : 'u'.utf8Size = 1 := rfl
    have hzero : '0'.utf8Size = 1 := rfl
    simp only [utf8Len_cons, hbackslash, hu, hzero, hhigh, hlow]
    omega
  · simp only [utf8Len_cons]
    omega

theorem utf8Len_foldr_escape_le (cs rest : List Char) :
    utf8Len (cs.foldr escape rest) ≤ 6 * utf8Len cs + utf8Len rest := by
  induction cs with
  | nil => simp
  | cons c cs ih =>
    have hc := utf8Len_escape_le c (cs.foldr escape rest)
    simp only [List.foldr_cons, utf8Len_cons]
    omega

theorem utf8Len_writeText_le (s : String) (rest : List Char) :
    utf8Len (writeText s rest) ≤ 6 * s.utf8ByteSize + 2 + utf8Len rest := by
  have hbody := utf8Len_foldr_escape_le s.toList ('"' :: rest)
  have hquote : '"'.utf8Size = 1 := rfl
  simp only [utf8Len_toList, utf8Len_cons, hquote] at hbody
  simp only [writeText, utf8Len_cons, hquote]
  omega

theorem utf8Len_of_isDigit {cs : List Char} (h : ∀ c ∈ cs, isDigit c = true) :
    utf8Len cs = cs.length := by
  induction cs with
  | nil => rfl
  | cons c cs ih =>
    obtain ⟨hc, hcs⟩ := List.forall_mem_cons.mp h
    have hone : c.utf8Size = 1 := by
      rw [isDigit, Bool.and_eq_true, decide_eq_true_eq, decide_eq_true_eq] at hc
      rw [Char.utf8Size_eq_one_iff]
      exact UInt32.le_trans hc.2 (by decide)
    rw [utf8Len_cons, ih hcs, hone, List.length_cons]

/-- A number below `10 ^ figures` takes at most so many bytes. -/
theorem utf8Len_writeInteger_le {n figures : Nat} (hpos : 0 < figures) (h : n < 10 ^ figures)
    (rest : List Char) : utf8Len (writeInteger n rest) ≤ figures + utf8Len rest := by
  have hlength : (digitChars n).length ≤ figures := Nat.toDigits_length 10 n figures hpos h
  have hdigits := utf8Len_of_isDigit (digits_digitChars n).2
  have hsign : ¬(n : Int) < 0 := by omega
  rw [writeInteger, if_neg hsign, utf8Len_append, Int.natAbs_natCast, hdigits]
  omega

end TopicBus.Json
