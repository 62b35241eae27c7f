import Mathlib.Tactic.SplitIfs
import TopicBus.Json.Parser
import TopicBus.Json.Printer

/-!
Quoted text. The parser undoes the escapes of the printer one character at a time
(`textBody_escape`), so a written string is read whole (`textBody_foldr_escape`); a character is
written as itself unless it is the quote, the backslash or a control (`escape_eq_cons_iff`).
-/

namespace TopicBus.Json

variable {c : Char} {rest : List Char}

/-! ## Escapes -/

/-- The text of a character stands in front of what follows it. -/
theorem escape_eq_append (c : Char) (rest : List Char) : escape c rest = escape c [] ++ rest := by
  unfold escape
  split_ifs <;> rfl

/-- An escaped character takes at least two characters. -/
private theorem cons_cons_append_ne (a b : Char) (text : List Char) :
    a :: b :: (text ++ rest) ≠ c :: rest := by
  intro heq
  have hlength := congrArg List.length heq
  simp only [List.length_cons, List.length_append] at hlength
  omega

/-- Only the quote, the backslash and the controls below U+0020 are escaped. -/
theorem escape_eq_cons_iff :
    escape c rest = c :: rest ↔ c ≠ '"' ∧ c ≠ '\\' ∧ 0x20 ≤ c.toNat := by
  have hcontrol : ∀ n < 0x20, c = Char.ofNat n → ¬ 0x20 ≤ c.toNat := by
    rintro n hn rfl
    revert n
    decide
  unfold escape
  split_ifs with hquote hbackslash hb ht hn hf hr hlow
  · exact iff_of_false (cons_cons_append_ne _ _ []) fun h => h.1 hquote
  · exact iff_of_false (cons_cons_append_ne _ _ []) fun h => h.2.1 hbackslash
  · exact iff_of_false (cons_cons_append_ne _ _ []) fun h => hcontrol 8 (by decide) hb h.2.2
  · exact iff_of_false (cons_cons_append_ne _ _ []) fun h => hcontrol 9 (by decide) ht h.2.2
  · exact iff_of_false (cons_cons_append_ne _ _ []) fun h => hcontrol 10 (by decide) hn h.2.2
  · exact iff_of_false (cons_cons_append_ne _ _ []) fun h => hcontrol 12 (by decide) hf h.2.2
  · exact iff_of_false (cons_cons_append_ne _ _ []) fun h => hcontrol 13 (by decide) hr h.2.2
  · exact iff_of_false (cons_cons_append_ne _ _ ['0', '0', _, _]) fun h => absurd hlow (by omega)
  · exact iff_of_true rfl ⟨hquote, hbackslash, by omega⟩

/-! ## Reading -/

theorem textBody_quote (seen rest : List Char) :
    textBody seen ('"' :: rest) = some (String.ofList seen.reverse, rest) := by
  rw [textBody, if_pos rfl]

/-- A backslash is read together with what it escapes. -/
theorem textBody_backslash {seen after : List Char} (h : unescape rest = some (c, after)) :
    textBody seen ('\\' :: rest) = textBody (c :: seen) after := by
  rw [textBody, if_neg (by decide), if_pos rfl]
  split
  · next hnone =>
    rw [h] at hnone
    cases hnone
  · next d tail hsome =>
    rw [h, Option.some.injEq, Prod.mk.injEq] at hsome
    rw [hsome.1, hsome.2]

theorem fourHex?_hexDigit :
    ∀ n < 0x20, fourHex? '0' '0' (hexDigit (n / 16)) (hexDigit (n % 16)) = some n := by
  decide

/-- The four digits of a control spell it. -/
theorem unescape_control (h : c.toNat < 0x20) :
    unescape ('u' :: '0' :: '0' :: hexDigit (c.toNat / 16) :: hexDigit (c.toNat % 16) :: rest) =
      some (c, rest) := by
  have hlow : isLowSurrogate c.toNat = false := by
    rw [isLowSurrogate, Bool.and_eq_false_iff]
    exact .inl (decide_eq_false (by omega))
  have hhigh : isHighSurrogate c.toNat = false := by
    rw [isHighSurrogate, Bool.and_eq_false_iff]
    exact .inl (decide_eq_false (by omega))
  simp only [unescape]
  rw [fourHex?_hexDigit c.toNat h]
  dsimp only
  rw [hlow, hhigh, if_neg Bool.false_ne_true, if_neg Bool.false_ne_true, Char.ofNat_toNat]

/-- What the printer makes of a character is read as the character. -/
theorem textBody_escape (seen : List Char) (c : Char) (rest : List Char) :
    textBody seen (escape c rest) = textBody (c :: seen) rest := by
  unfold escape
  split_ifs with hquote hbackslash hb ht hn hf hr hcontrol
  · rw [hquote]
    exact textBody_backslash rfl
  · rw [hbackslash]
    exact textBody_backslash rfl
  · rw [hb]
    exact textBody_backslash rfl
  · rw [ht]
    exact textBody_backslash rfl
  · rw [hn]
    exact textBody_backslash rfl
  · rw [hf]
    exact textBody_backslash rfl
  · rw [hr]
    exact textBody_backslash rfl
  · exact textBody_backslash (unescape_control hcontrol)
  · rw [textBody, if_neg hquote, if_neg hbackslash, if_neg hcontrol]

theorem textBody_foldr_escape (seen cs rest : List Char) :
    textBody seen (cs.foldr escape ('"' :: rest)) =
      some (String.ofList (seen.reverse ++ cs), rest) := by
  induction cs generalizing seen with
  | nil => rw [List.foldr_nil, textBody_quote, List.append_nil]
  | cons c cs ih =>
    rw [List.foldr_cons, textBody_escape, ih, List.reverse_cons, List.append_assoc]
    rfl

/-- A written string is read back behind its opening quote. -/
theorem textBody_writeText (s : String) (rest : List Char) :
    textBody [] (s.toList.foldr escape ('"' :: rest)) = some (s, rest) := by
  rw [textBody_foldr_escape, List.reverse_nil, List.nil_append, String.ofList_toList]

/-! ## Writing -/

theorem foldr_escape_eq_append (cs rest : List Char) :
    cs.foldr escape rest = cs.flatMap (fun c => escape c []) ++ rest := by
  induction cs with
  | nil => rfl
  | cons c cs ih =>
    rw [List.foldr_cons, ih, escape_eq_append, List.flatMap_cons, List.append_assoc]

theorem writeText_eq_append (s : String) (rest : List Char) :
    writeText s rest = writeText s [] ++ rest := by
  rw [writeText, writeText, foldr_escape_eq_append, foldr_escape_eq_append _ ['"']]
  simp only [List.append_assoc, List.cons_append, List.nil_append]

theorem length_lt_writeText (s : String) (rest : List Char) :
    rest.length < (writeText s rest).length := by
  rw [writeText_eq_append, List.length_append, writeText, List.length_cons]
  omega

end TopicBus.Json
