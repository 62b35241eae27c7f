import TopicBus.Proofs.Decimal.Shortest
import TopicBus.Proofs.Json.Number
import TopicBus.Json.Printer

/-!
Printed numbers read back. The text of a double is a literal with a fraction or a power, so it is
no integer, and its value is that of the shortest digits (`number_doubleChars`); an integer of the
64-bit ranges is written as its digits alone (`number_writeInteger`).
-/

namespace TopicBus.Json

open Decimal

/-! ## The digits of a natural number -/

theorem ofDigits_digitChars (n : Nat) : ofDigits (digitChars n) = n := by
  rw [ofDigits_eq, digitChars]
  exact Nat.ofDigitChars_ten_toDigits

theorem digits_digitChars (n : Nat) : Digits (digitChars n) := by
  refine ⟨Nat.toDigits_ne_nil, ?_⟩
  intro c hc
  rw [isDigit_eq]
  exact Nat.isDigit_of_mem_toDigits (by decide) (by decide) hc

theorem head_digitChars {n : Nat} (hn : n ≠ 0) : (digitChars n).head? ≠ some '0' := by
  induction n using Nat.strongRecOn with
  | ind n ih =>
    rcases Nat.lt_or_ge n 10 with hlt | hge
    · rw [digitChars, Nat.toDigits_of_lt_base hlt]
      have hdigit : ∀ m < 10, m ≠ 0 → [Nat.digitChar m].head? ≠ some '0' := by decide
      exact hdigit n hlt hn
    · have hne : Nat.toDigits 10 (n / 10) ≠ [] := Nat.toDigits_ne_nil
      rw [digitChars, Nat.toDigits_of_base_le (by decide) hge, List.head?_append_of_ne_nil _ hne]
      exact ih (n / 10) (by omega) (by omega)

theorem whole_digitChars (n : Nat) : Whole (digitChars n) := by
  rcases Nat.eq_zero_or_pos n with rfl | hpos
  · exact .inl (Nat.toDigits_zero 10)
  · exact .inr ⟨digits_digitChars n, head_digitChars hpos.ne'⟩

/-! ## Doubles -/

/-- The text is that of a literal which is no integer and has the value of `x`, with either sign. -/
def Figures (cs : List Char) (x : Decimal) : Prop :=
  ∀ negative, ∃ l : Literal, l.Valid ∧ l.negative = negative ∧ l.integer? = none ∧
    l.chars = (if negative then ['-'] else []) ++ cs ∧ l.decimal.value = x.value

/-- A fraction or a power tells a literal from an integer. -/
theorem figures_of_parts (whole : List Char) (fraction : Option (List Char)) (power : Option Power)
    {x : Decimal} (hwhole : Whole whole) (hfraction : ∀ ds ∈ fraction, Digits ds)
    (hpower : ∀ p ∈ power, p.Valid) (hmarked : fraction.isSome ∨ power.isSome)
    (hvalue : (⟨ofDigits (whole ++ fraction.getD []),
      power.elim 0 Power.value - (fraction.getD []).length⟩ : Decimal).value = x.value) :
    Figures (whole ++ fraction.elim [] ('.' :: ·) ++ power.elim [] Power.chars) x := by
  intro negative
  refine ⟨⟨negative, whole, fraction, power⟩, ⟨hwhole, hfraction, hpower⟩, rfl, ?_, ?_, hvalue⟩
  · cases fraction with
    | some ds => rfl
    | none =>
      cases power with
      | some p => rfl
      | none => exact absurd hmarked (by decide)
  · rw [Literal.chars, Literal.fractionChars, Literal.powerChars, List.append_assoc,
      List.append_assoc, List.append_assoc]

theorem figures_of_point (whole fraction : List Char) {x : Decimal}
    (hwhole : Whole whole) (hfraction : Digits fraction)
    (hvalue : (⟨ofDigits (whole ++ fraction), -fraction.length⟩ : Decimal).value = x.value) :
    Figures (whole ++ '.' :: fraction) x := by
  have hfigures : Figures (whole ++ '.' :: fraction ++ []) x := by
    refine figures_of_parts whole (some fraction) none hwhole ?_ nofun (.inl rfl) ?_
    · intro ds hds
      rw [← Option.some.inj hds]
      exact hfraction
    · rw [Option.elim_none, Option.getD_some, Int.zero_sub]
      exact hvalue
  rw [List.append_nil] at hfigures
  exact hfigures

private theorem isDigit_zeros {n : Nat} : ∀ c ∈ List.replicate n '0', isDigit c = true := by
  intro c hc
  rw [List.eq_of_mem_replicate hc]
  rfl

variable {ds : List Char}

/-- Zeros fill up the digits to the point, and one stands behind it. -/
private theorem figures_whole (hds : Digits ds) (hhead : ds.head? ≠ some '0') (n : Nat) :
    Figures (ds ++ List.replicate n '0' ++ ['.', '0']) ⟨ofDigits ds, n⟩ := by
  have hwhole : (ds ++ List.replicate n '0').head? ≠ some '0' := by
    rw [List.head?_append_of_ne_nil _ hds.ne_nil]
    exact hhead
  refine figures_of_point _ ['0'] (.inr ⟨hds.append isDigit_zeros, hwhole⟩) digits_zero ?_
  have hdigits : ofDigits (ds ++ List.replicate n '0' ++ ['0']) = ofDigits ds * 10 ^ n * 10 := by
    rw [ofDigits_append, ofDigits_append, ofDigits_zeros, List.length_replicate]
    show 10 ^ 1 * (10 ^ n * ofDigits ds + 0) + 0 = _
    rw [Nat.add_zero, Nat.add_zero, Nat.mul_comm (10 ^ n), Nat.mul_comm, Nat.pow_one]
  rw [hdigits]
  show ((ofDigits ds * 10 ^ n * 10 : Nat) : ℚ) * 10 ^ (-1 : Int) = ofDigits ds * 10 ^ (n : Int)
  rw [zpow_natCast, Nat.cast_mul, Nat.cast_mul, Nat.cast_pow, Nat.cast_ofNat, zpow_neg_one]
  exact mul_inv_cancel_right₀ (by norm_num) _

/-- The point stands between two digits. -/
private theorem figures_inside (hds : Digits ds) (hhead : ds.head? ≠ some '0') {point : Nat}
    (hfirst : 0 < point) (hlast : point < ds.length) :
    Figures (ds.take point ++ '.' :: ds.drop point) ⟨ofDigits ds, point - ds.length⟩ := by
  have htake : Digits (ds.take point) := by
    refine ⟨?_, fun c hc => hds.isDigit c (List.mem_of_mem_take hc)⟩
    rw [Ne, List.take_eq_nil_iff]
    exact fun h => h.elim hfirst.ne' hds.ne_nil
  have hdrop : Digits (ds.drop point) := by
    refine ⟨?_, fun c hc => hds.isDigit c (List.mem_of_mem_drop hc)⟩
    rw [Ne, List.drop_eq_nil_iff]
    omega
  have hwhole : (ds.take point).head? ≠ some '0' := by
    rw [List.head?_take, if_neg hfirst.ne']
    exact hhead
  refine figures_of_point _ _ (.inr ⟨htake, hwhole⟩) hdrop ?_
  have hexponent : -((ds.length - point : Nat) : Int) = point - ds.length := by omega
  rw [List.take_append_drop, List.length_drop, hexponent]

/-- Zeros stand between the point and the digits. -/
private theorem figures_below (hds : Digits ds) (n : Nat) :
    Figures ('0' :: '.' :: List.replicate n '0' ++ ds) ⟨ofDigits ds, -n - ds.length⟩ := by
  have hfraction : Digits (List.replicate n '0' ++ ds) := by
    refine ⟨List.append_ne_nil_of_right_ne_nil _ hds.ne_nil, ?_⟩
    intro c hc
    exact (List.mem_append.mp hc).elim (isDigit_zeros c) (hds.isDigit c)
  refine figures_of_point ['0'] (List.replicate n '0' ++ ds) (.inl rfl) hfraction ?_
  have hdigits : ofDigits (['0'] ++ (List.replicate n '0' ++ ds)) = ofDigits ds := by
    rw [ofDigits_append, ofDigits_append, ofDigits_zeros, Nat.mul_zero, Nat.zero_add]
    exact Nat.zero_add _
  have hexponent : -((n + ds.length : Nat) : Int) = -n - ds.length := by omega
  rw [hdigits, List.length_append, List.length_replicate, hexponent]

theorem figures_positional (hds : Digits ds) (hhead : ds.head? ≠ some '0') (exponent : Int) :
    Figures (positional ds exponent) ⟨ofDigits ds, exponent⟩ := by
  unfold positional
  dsimp only
  rcases Int.lt_or_le exponent 0 with hneg | hpos
  · rw [if_neg (by omega)]
    rcases Int.lt_or_le 0 (ds.length + exponent) with hinside | hbelow
    · obtain ⟨point, hpoint⟩ := Int.eq_ofNat_of_zero_le hinside.le
      rw [if_pos hinside, hpoint, Int.toNat_natCast]
      have hexponent : exponent = point - ds.length := by omega
      rw [hexponent]
      exact figures_inside hds hhead (by omega) (by omega)
    · obtain ⟨n, hn⟩ := Int.eq_ofNat_of_zero_le (Int.neg_nonneg.mpr hbelow)
      rw [if_neg (by omega), hn, Int.toNat_natCast]
      have hexponent : exponent = -n - ds.length := by omega
      rw [hexponent]
      exact figures_below hds n
  · obtain ⟨n, rfl⟩ := Int.eq_ofNat_of_zero_le hpos
    rw [if_pos hpos, Int.toNat_natCast]
    exact figures_whole hds hhead n

/-- The power of ten that the scientific notation writes. -/
private def writtenPower (power : Int) : Power :=
  ⟨'e', some (if power < 0 then '-' else '+'), digitChars power.natAbs⟩

private theorem valid_writtenPower (power : Int) : (writtenPower power).Valid := by
  refine ⟨.inl rfl, ?_, digits_digitChars _⟩
  rw [writtenPower]
  split_ifs
  · exact .inr (.inr rfl)
  · exact .inr (.inl rfl)

private theorem value_writtenPower (power : Int) : (writtenPower power).value = power := by
  rw [writtenPower, Power.value]
  dsimp only
  rw [ofDigits_digitChars]
  split_ifs with hneg hmark hmark
  · omega
  · exact absurd rfl hmark
  · exact absurd hmark (by decide)
  · omega

theorem figures_scientific (hds : Digits ds) (hhead : ds.head? ≠ some '0') (exponent : Int) :
    Figures (scientific ds exponent) ⟨ofDigits ds, exponent⟩ := by
  have hpower : ∀ p ∈ some (writtenPower (ds.length + exponent - 1)), p.Valid := by
    intro p hp
    rw [← Option.some.inj hp]
    exact valid_writtenPower _
  obtain ⟨c, more, rfl⟩ := List.exists_cons_of_ne_nil hds.ne_nil
  have hfirst : Digits [c] := by
    refine ⟨List.cons_ne_nil _ _, ?_⟩
    intro d hd
    rw [List.mem_singleton.mp hd]
    exact hds.isDigit c List.mem_cons_self
  cases more with
  | nil =>
    refine figures_of_parts [c] none _ (.inr ⟨hfirst, hhead⟩) nofun hpower (.inr rfl) ?_
    · rw [Option.elim_some, value_writtenPower]
      congr 2
      show (1 : Int) + exponent - 1 - 0 = exponent
      omega
  | cons d more =>
    refine figures_of_parts [c] (some (d :: more)) _ (.inr ⟨hfirst, hhead⟩) ?_
      hpower (.inr rfl) ?_
    · intro fs hfs
      rw [← Option.some.inj hfs]
      exact ⟨List.cons_ne_nil _ _, fun e he => hds.isDigit e (List.mem_cons_of_mem _ he)⟩
    · rw [Option.elim_some, value_writtenPower, Option.getD_some]
      congr 2
      rw [List.length_cons]
      omega

theorem figures_chars {x : Decimal} (hx : x.digits ≠ 0) : Figures x.chars x := by
  have hdigits := digits_digitChars x.digits
  have hhead := head_digitChars hx
  have hvalue : (⟨ofDigits (digitChars x.digits), x.exponent⟩ : Decimal) = x := by
    rw [ofDigits_digitChars]
  unfold Decimal.chars
  dsimp only
  split_ifs
  · have hfigures := figures_positional hdigits hhead x.exponent
    rw [hvalue] at hfigures
    exact hfigures
  · have hfigures := figures_scientific hdigits hhead x.exponent
    rw [hvalue] at hfigures
    exact hfigures

theorem figures_zero : Figures ['0', '.', '0'] ⟨0, -1⟩ :=
  figures_of_point ['0'] ['0'] (.inl rfl) digits_zero rfl

/-- A text with the value of a decimal that reads as a finite magnitude is read as the double of
that magnitude and the sign in front. -/
theorem number_of_figures {cs : List Char} {d : Decimal} (hcs : Figures cs d) {x : Double}
    (hx : x.isFinite = true) (hd : d.readsAs x.rank = true) {rest : List Char}
    (hrest : Stops rest) :
    number ((if x.negative then ['-'] else []) ++ cs ++ rest) = some (.double x, rest) := by
  obtain ⟨l, hvalid, hnegative, hinteger, hchars, hvalue⟩ := hcs x.negative
  have hrank : x.rank < Double.infinityRank := of_decide_eq_true hx
  have hreads : l.decimal.readsAs x.rank = true := by
    rw [readsAs_congr hvalue]
    exact hd
  have hread : l.value? = some (.double x) := by
    have hno : ∀ n, l.integer? = some n → ¬ IsWord n := by
      intro n hn
      rw [hinteger] at hn
      nomatch hn
    rw [Literal.value?_of_not_isWord hno, toDouble?_of_readsAs _ hrank hreads, hnegative,
      Double.ofRank_rank, Option.map_some]
  rw [← hchars, number_chars hvalid hrest, hread, Option.map_some]

theorem number_doubleChars {x : Double} (hx : x.isFinite = true) {rest : List Char}
    (hrest : Stops rest) : number (x.chars ++ rest) = some (.double x, rest) := by
  have hchars : x.chars = (if x.negative then ['-'] else []) ++
      (if x.rank = 0 then ['0', '.', '0'] else (shortest x.rank).chars) := by
    rw [Double.chars]
    cases x.negative with
    | true => rfl
    | false => rfl
  rw [hchars]
  by_cases hrank : x.rank = 0
  · have hzero : Decimal.readsAs ⟨0, -1⟩ x.rank = true := by
      rw [hrank]
      refine readsAs_of_value ?_
      rw [Decimal.value, Double.magnitude, Double.units_of_lt (by decide), Nat.cast_zero, zero_mul,
        zero_div]
    rw [if_pos hrank]
    exact number_of_figures figures_zero hx hzero hrest
  · have hreads := readsAs_shortest x.rank
    have hdigits := digits_ne_zero_of_readsAs (Nat.pos_of_ne_zero hrank) hreads
    rw [if_neg hrank]
    exact number_of_figures (figures_chars hdigits) hx hreads hrest

/-! ## Integers -/

theorem number_writeInteger {n : Int} (hn : IsWord n) {rest : List Char}
    (hrest : Stops rest) : number (writeInteger n rest) = some (.integer n, rest) := by
  have hvalid : Literal.Valid ⟨decide (n < 0), digitChars n.natAbs, none, none⟩ :=
    ⟨whole_digitChars n.natAbs, nofun, nofun⟩
  have hinteger : Literal.integer? ⟨decide (n < 0), digitChars n.natAbs, none, none⟩ = some n := by
    unfold Literal.integer?
    dsimp only
    rw [ofDigits_digitChars]
    simp only [decide_eq_true_eq]
    split_ifs with hneg hzero
    · omega
    · exact congrArg some (by omega)
    · exact congrArg some (by omega)
  have hchars : writeInteger n rest =
      Literal.chars ⟨decide (n < 0), digitChars n.natAbs, none, none⟩ ++ rest := by
    rw [writeInteger, Literal.chars, Literal.fractionChars, Literal.powerChars]
    simp only [decide_eq_true_eq, Option.elim_none, List.append_nil]
    split_ifs
    · rfl
    · rfl
  rw [hchars, number_chars hvalid hrest, Literal.value?_of_isWord hinteger hn, Option.map_some]

end TopicBus.Json
