import Mathlib.Algebra.Order.Field.Basic
import Mathlib.Algebra.Order.Field.Power
import Mathlib.Data.Rat.Cast.Order
import Mathlib.Tactic.Linarith
import Mathlib.Tactic.FieldSimp
import Mathlib.Tactic.NormNum
import TopicBus.Decimal.Shortest

/-!
Rounding in exact arithmetic. A decimal and the magnitudes of doubles are rational numbers, and
`above` compares with the point halfway between two neighbouring magnitudes (`above_iff`), so it
depends on the value of the decimal alone. The halfway points grow with the rank; the search finds
the one place where `above` turns false (`readsAs_nearestRank`), and a magnitude that a decimal
reads as is a nearest one, the even one of two (`isNearest_of_readsAs`).
-/

namespace TopicBus

namespace Double

/-- The magnitude of a rank, as a number. -/
def magnitude (r : Nat) : ℚ := units r / 2 ^ 1074

/-- The point halfway from a rank to the next. -/
def halfway (r : Nat) : ℚ := (magnitude r + magnitude (r + 1)) / 2

/-! ## Bits -/

theorem rank_lt (x : Double) : x.rank < 2 ^ 63 := Nat.mod_lt _ (by decide)

private theorem ofRank_toNat (negative : Bool) {r : Nat} (h : r < 2 ^ 63) :
    (ofRank negative r).bits.toNat = if negative then 2 ^ 63 + r else r := by
  cases negative with
  | true =>
    show (2 ^ 63 + r) % 2 ^ 64 = 2 ^ 63 + r
    omega
  | false =>
    show r % 2 ^ 64 = r
    omega

theorem rank_ofRank (negative : Bool) {r : Nat} (h : r < 2 ^ 63) :
    (ofRank negative r).rank = r := by
  rw [rank, ofRank_toNat negative h]
  split_ifs <;> omega

theorem negative_ofRank (negative : Bool) {r : Nat} (h : r < 2 ^ 63) :
    (ofRank negative r).negative = negative := by
  rw [Double.negative, ofRank_toNat negative h]
  cases negative with
  | true => simp
  | false => simpa using h

/-- A double is its sign and its rank. -/
theorem ofRank_rank (x : Double) : ofRank x.negative x.rank = x := by
  have hbits := x.bits.toNat_lt
  have hrank := x.rank_lt
  obtain ⟨bits⟩ := x
  have htoNat : (ofRank (negative ⟨bits⟩) (rank ⟨bits⟩)).bits.toNat = bits.toNat := by
    rw [ofRank_toNat _ hrank, Double.negative, rank]
    dsimp only at hbits ⊢
    simp only [decide_eq_true_eq]
    split_ifs <;> omega
  rw [Double.mk.injEq]
  exact UInt64.toNat_inj.mp htoNat

/-! ## Magnitudes -/

theorem units_of_lt {r : Nat} (h : r < fractions) : units r = r := if_pos h

/-- Above the smallest magnitudes a rank is a power of two and a fraction of it. -/
theorem units_of_le {r : Nat} (h : fractions ≤ r) :
    units r = (fractions + r % fractions) * 2 ^ (r / fractions - 1) := if_neg (Nat.not_lt.mpr h)

theorem units_lt_succ (r : Nat) : units r < units (r + 1) := by
  have hpos : 0 < fractions := by decide
  rcases Nat.lt_or_ge (r + 1) fractions with hlt | hge
  · rw [units_of_lt hlt, units_of_lt (Nat.lt_of_succ_lt hlt)]
    exact Nat.lt_succ_self r
  rcases Nat.lt_or_ge r fractions with hr | hr
  · have heq : r + 1 = fractions := by omega
    rw [units_of_lt hr, heq, units_of_le (Nat.le_refl _), Nat.mod_self, Nat.div_self hpos]
    omega
  rw [units_of_le hr, units_of_le hge]
  have hmod := Nat.mod_lt r hpos
  rcases Nat.lt_or_ge (r % fractions + 1) fractions with hfit | hcarry
  · -- The fraction grows and the power stays.
    have hdiv : (r + 1) / fractions = r / fractions := by
      unfold fractions at hfit ⊢
      omega
    have hrest : (r + 1) % fractions = r % fractions + 1 := by
      unfold fractions at hfit ⊢
      omega
    rw [hdiv, hrest]
    exact Nat.mul_lt_mul_of_pos_right (by omega) (Nat.two_pow_pos _)
  · -- The fraction starts again at twice the power.
    have hlast : r % fractions = fractions - 1 := by omega
    have hdiv : (r + 1) / fractions - 1 = (r / fractions - 1) + 1 := by
      unfold fractions at hr hcarry ⊢
      omega
    have hrest : (r + 1) % fractions = 0 := by
      unfold fractions at hcarry ⊢
      omega
    rw [hdiv, hrest, hlast, Nat.pow_succ, Nat.mul_comm (2 ^ _) 2, ← Nat.mul_assoc]
    exact Nat.mul_lt_mul_of_pos_right (by omega) (Nat.two_pow_pos _)

theorem units_strictMono : StrictMono units := strictMono_nat_of_lt_succ units_lt_succ

theorem magnitude_strictMono : StrictMono magnitude := by
  intro r s h
  have hunits : (units r : ℚ) < units s := Nat.cast_lt.mpr (units_strictMono h)
  exact div_lt_div_of_pos_right hunits (by positivity)

theorem magnitude_lt_halfway (r : Nat) : magnitude r < halfway r := by
  have h := magnitude_strictMono (Nat.lt_succ_self r)
  rw [halfway]
  linarith

theorem halfway_lt_magnitude (r : Nat) : halfway r < magnitude (r + 1) := by
  have h := magnitude_strictMono (Nat.lt_succ_self r)
  rw [halfway]
  linarith

theorem halfway_strictMono : StrictMono halfway := by
  refine strictMono_nat_of_lt_succ fun r => ?_
  exact (halfway_lt_magnitude r).trans (magnitude_lt_halfway (r + 1))

theorem halfway_eq (r : Nat) : halfway r = (units r + units (r + 1)) / 2 ^ 1075 := by
  rw [halfway, magnitude, magnitude, ← add_div, div_div, ← pow_succ]

end Double

namespace Decimal

open Double

variable {x y : Decimal} {r s : Nat}

/-- A decimal as a number. -/
def value (x : Decimal) : ℚ := x.digits * 10 ^ x.exponent

/-- `above` compares with the halfway point, scaled to natural numbers. -/
theorem above_iff : x.above r = true ↔
    halfway r < x.value ∨ (halfway r = x.value ∧ r % 2 = 1) := by
  obtain ⟨left, right, scale, hscale, hleft, hright, habove⟩ :
      ∃ (left right : Nat) (scale : ℚ), 0 < scale ∧ x.value = left / scale ∧
        halfway r = right / scale ∧
          x.above r = (right < left || (right == left && r % 2 == 1)) := by
    have hpow : (0 : ℚ) < 2 ^ 1075 := pow_pos two_pos 1075
    rcases Int.lt_or_le x.exponent 0 with hneg | hpos
    · obtain ⟨n, hn⟩ := Int.eq_ofNat_of_zero_le (Int.neg_nonneg.mpr (Int.le_of_lt hneg))
      have hten : (0 : ℚ) < 10 ^ n := pow_pos (by norm_num) n
      refine ⟨x.digits * 2 ^ 1075, (units r + units (r + 1)) * 10 ^ n, 2 ^ 1075 * 10 ^ n,
        mul_pos hpow hten, ?_, ?_, ?_⟩
      · rw [value, ← Int.neg_neg x.exponent, hn, zpow_neg, zpow_natCast,
          Nat.cast_mul, Nat.cast_pow, Nat.cast_ofNat,
          mul_comm (x.digits : ℚ) (2 ^ 1075), mul_div_mul_left _ _ hpow.ne', div_eq_mul_inv]
      · rw [halfway_eq, Nat.cast_mul, Nat.cast_pow, Nat.cast_ofNat,
          mul_div_mul_right _ _ hten.ne', Nat.cast_add]
      · simp only [above, if_neg (Int.not_le.mpr hneg), hn, Nat.pow_eq, Int.toNat_natCast]
    · obtain ⟨n, hn⟩ := Int.eq_ofNat_of_zero_le hpos
      refine ⟨x.digits * 2 ^ 1075 * 10 ^ n, units r + units (r + 1), 2 ^ 1075,
        hpow, ?_, ?_, ?_⟩
      · rw [value, hn, zpow_natCast, Nat.cast_mul, Nat.cast_mul, Nat.cast_pow, Nat.cast_pow,
          Nat.cast_ofNat, Nat.cast_ofNat,
          mul_right_comm, mul_div_cancel_right₀ _ hpow.ne']
      · rw [halfway_eq, Nat.cast_add]
      · simp only [above, hn, if_pos (Int.natCast_nonneg n), Nat.pow_eq, Int.toNat_natCast]
  rw [habove, hleft, hright, div_lt_div_iff_of_pos_right hscale, div_left_inj' hscale.ne',
    Nat.cast_lt, Nat.cast_inj]
  simp

theorem above_eq_false_iff : x.above r = false ↔
    x.value < halfway r ∨ (x.value = halfway r ∧ r % 2 = 0) := by
  have h := (above_iff (x := x) (r := r)).not
  rw [Bool.not_eq_true, not_or, not_lt, not_and] at h
  rw [h]
  constructor
  · rintro ⟨hle, htie⟩
    rcases hle.lt_or_eq with hlt | heq
    · exact .inl hlt
    · have := htie heq.symm
      exact .inr ⟨heq, by omega⟩
  · rintro (hlt | ⟨heq, heven⟩)
    · exact ⟨hlt.le, fun htie => absurd htie hlt.ne'⟩
    · exact ⟨heq.le, fun _ => by omega⟩

/-- Only the value of a decimal counts. -/
theorem above_congr (h : x.value = y.value) (r : Nat) : x.above r = y.above r := by
  rw [Bool.eq_iff_iff, above_iff, above_iff, h]

theorem readsAs_congr (h : x.value = y.value) (r : Nat) : x.readsAs r = y.readsAs r := by
  rw [readsAs, readsAs, above_congr h, above_congr h]

/-- A decimal above one halfway point lies above all of them that are smaller. -/
theorem above_of_le (hs : s ≤ r) (h : x.above r = true) : x.above s = true := by
  rcases hs.lt_or_eq with hlt | rfl
  · have hhalf := halfway_strictMono hlt
    rw [above_iff] at h ⊢
    refine .inl ?_
    rcases h with h | ⟨h, -⟩
    · exact hhalf.trans h
    · exact hhalf.trans_eq h
  · exact h

theorem readsAs_iff : x.readsAs r = true ↔
    x.above r = false ∧ (r = 0 ∨ x.above (r - 1) = true) := by
  simp [readsAs]

/-- A decimal reads as one magnitude at most. -/
theorem eq_of_readsAs (hr : x.readsAs r = true) (hs : x.readsAs s = true) : r = s := by
  rw [readsAs_iff] at hr hs
  rcases Nat.lt_trichotomy r s with hlt | heq | hlt
  · rcases hs.2 with hzero | habove
    · omega
    · have := above_of_le (s := r) (by omega) habove
      rw [hr.1] at this
      exact absurd this Bool.false_ne_true
  · exact heq
  · rcases hr.2 with hzero | habove
    · omega
    · have := above_of_le (s := s) (by omega) habove
      rw [hs.1] at this
      exact absurd this Bool.false_ne_true

/-! ## The search -/

/-- The search keeps a decimal above everything in front of it and not above its last rank. -/
theorem readsAs_search {low : Nat} (steps : Nat) (hlow : low = 0 ∨ x.above (low - 1) = true)
    (hhigh : x.above (low + 2 ^ steps - 1) = false) : x.readsAs (x.search steps low) = true := by
  induction steps generalizing low with
  | zero =>
    rw [search, readsAs_iff]
    exact ⟨by simpa using hhigh, hlow⟩
  | succ steps ih =>
    have hpow : 2 ^ (steps + 1) = 2 ^ steps + 2 ^ steps := by rw [Nat.pow_succ]; omega
    rw [search, Nat.pow_eq]
    split_ifs with hmiddle
    · refine ih (.inr hmiddle) ?_
      rw [Nat.add_assoc, ← hpow]
      exact hhigh
    · exact ih hlow (by simpa using hmiddle)

/-! ## The nearest magnitude -/

private theorem two_pow_lt_ten_pow : (2 : ℚ) ^ 1075 < 10 ^ 401 :=
  calc (2 : ℚ) ^ 1075
    _ < 2 ^ (3 * 401) := pow_lt_pow_right₀ one_lt_two (by decide)
    _ = 8 ^ 401 := by rw [pow_mul]; norm_num
    _ ≤ 10 ^ 401 := pow_le_pow_left₀ (by decide) (by decide) 401

theorem magnitude_infinityRank : magnitude infinityRank = 2 ^ 1024 := by
  have hunits : units infinityRank = 2 ^ 1024 * 2 ^ 1074 := by
    rw [units_of_le (by decide), show infinityRank % fractions = 0 from rfl,
      show infinityRank / fractions = 2047 from rfl, show fractions + 0 = 2 ^ 52 from rfl,
      ← Nat.pow_add, ← Nat.pow_add]
  rw [magnitude, hunits, Nat.cast_mul, Nat.cast_pow, Nat.cast_pow, Nat.cast_ofNat]
  exact mul_div_cancel_right₀ _ (pow_pos two_pos 1074).ne'

theorem halfway_zero : halfway 0 = 1 / 2 ^ 1075 := by
  rw [halfway_eq, units_of_lt (by decide), units_of_lt (by decide)]
  simp only [Nat.cast_zero, zero_add, Nat.cast_one]

theorem above_of_large (hdigits : x.digits ≠ 0) (h : 400 < x.exponent) :
    x.above (infinityRank - 1) = true := by
  rw [above_iff]
  refine .inl ?_
  have hone : (1 : ℚ) ≤ x.digits := Nat.one_le_cast.mpr (Nat.one_le_iff_ne_zero.mpr hdigits)
  calc halfway (infinityRank - 1)
    _ < magnitude infinityRank := halfway_lt_magnitude _
    _ = 2 ^ 1024 := magnitude_infinityRank
    _ ≤ 2 ^ 1075 := pow_le_pow_right₀ one_le_two (by decide)
    _ ≤ 10 ^ 401 := two_pow_lt_ten_pow.le
    _ = (10 : ℚ) ^ (401 : Int) := rfl
    _ ≤ 10 ^ x.exponent := zpow_le_zpow_right₀ (by norm_num) (by omega)
    _ ≤ x.digits * 10 ^ x.exponent := le_mul_of_one_le_left (by positivity) hone

theorem above_of_small (h : x.exponent < -400 - (x.digits.log2 + 1 : Nat)) :
    x.above 0 = false := by
  rw [above_eq_false_iff]
  refine .inl ?_
  have hdigits : (x.digits : ℚ) < 2 ^ (x.digits.log2 + 1) := by
    exact_mod_cast Nat.lt_log2_self
  have hpow : (2 : ℚ) ^ (x.digits.log2 + 1) ≤ 10 ^ (x.digits.log2 + 1) :=
    pow_le_pow_left₀ (by norm_num) (by norm_num) _
  calc x.digits * (10 : ℚ) ^ x.exponent
    _ < 10 ^ (x.digits.log2 + 1) * 10 ^ x.exponent :=
      mul_lt_mul_of_pos_right (hdigits.trans_le hpow) (by positivity)
    _ = 10 ^ ((x.digits.log2 + 1 : Nat) + x.exponent : Int) := by
      rw [zpow_add₀ (by norm_num), zpow_natCast]
    _ ≤ 10 ^ (-401 : Int) := zpow_le_zpow_right₀ (by norm_num) (by omega)
    _ = 1 / 10 ^ 401 := by rw [zpow_neg, one_div]; rfl
    _ ≤ 1 / 2 ^ 1075 := one_div_le_one_div_of_le (by positivity) two_pow_lt_ten_pow.le
    _ = halfway 0 := halfway_zero.symm

theorem readsAs_zero (h : x.above 0 = false) : x.readsAs 0 = true :=
  readsAs_iff.mpr ⟨h, .inl rfl⟩

/-- The nearest rank is the one that the decimal reads as, or that of infinity where the decimal
lies above all finite magnitudes. -/
theorem nearestRank_spec (x : Decimal) :
    (x.nearestRank < infinityRank ∧ x.readsAs x.nearestRank = true) ∨
      (x.nearestRank = infinityRank ∧ x.above (infinityRank - 1) = true) := by
  have hinf : 0 < infinityRank := by decide
  unfold nearestRank
  split_ifs with hzero hlarge hsmall hmax
  · refine .inl ⟨hinf, readsAs_zero (above_eq_false_iff.mpr (.inl ?_))⟩
    rw [value, hzero, Nat.cast_zero, zero_mul, halfway_zero]
    exact one_div_pos.mpr (pow_pos two_pos 1075)
  · exact .inr ⟨rfl, above_of_large hzero hlarge⟩
  · exact .inl ⟨hinf, readsAs_zero (above_of_small hsmall)⟩
  · exact .inr ⟨rfl, hmax⟩
  · have hbelow : x.above (infinityRank - 1) = false := by simpa using hmax
    have hlast : x.above (0 + 2 ^ 63 - 1) = false := by
      by_contra htop
      rw [Bool.not_eq_false] at htop
      have := above_of_le (s := infinityRank - 1) (by decide) htop
      rw [hbelow] at this
      exact absurd this Bool.false_ne_true
    have hreads := readsAs_search 63 (.inl rfl) hlast
    refine .inl ⟨?_, hreads⟩
    rcases (readsAs_iff.mp hreads).2 with h | h
    · rw [h]
      exact hinf
    · by_contra hle
      have := above_of_le (s := infinityRank - 1) (by omega) h
      rw [hbelow] at this
      exact absurd this Bool.false_ne_true

/-- A decimal that reads as a finite magnitude has it as its nearest. -/
theorem nearestRank_of_readsAs (hr : r < infinityRank) (h : x.readsAs r = true) :
    x.nearestRank = r := by
  rcases nearestRank_spec x with ⟨-, hreads⟩ | ⟨-, habove⟩
  · exact eq_of_readsAs hreads h
  · have := above_of_le (s := r) (by omega) habove
    rw [(readsAs_iff.mp h).1] at this
    exact absurd this Bool.false_ne_true

theorem toDouble?_of_readsAs (negative : Bool) (hr : r < infinityRank) (h : x.readsAs r = true) :
    x.toDouble? negative = some (.ofRank negative r) := by
  rw [toDouble?, nearestRank_of_readsAs hr h, if_pos hr]

/-! ## Correct rounding -/

theorem isFinite_ofRank (negative : Bool) (hr : r < infinityRank) :
    (ofRank negative r).isFinite = true := by
  have hbound : r < 2 ^ 63 := hr.trans (by decide)
  rw [isFinite, rank_ofRank negative hbound]
  exact decide_eq_true hr

/-- The magnitude of rank `r` is nearest to `v`, and of two nearest ones it is the even one. -/
def IsNearest (v : ℚ) (r : Nat) : Prop :=
  ∀ s, s ≠ r → |v - magnitude r| < |v - magnitude s| ∨
    (|v - magnitude r| = |v - magnitude s| ∧ r % 2 = 0)

theorem isNearest_of_readsAs (h : x.readsAs r = true) : IsNearest x.value r := by
  obtain ⟨hright, hleft⟩ := readsAs_iff.mp h
  rw [above_eq_false_iff] at hright
  intro s hs
  rcases Nat.lt_or_gt_of_ne hs with hlt | hgt
  · -- A smaller magnitude is at least as far as the one before `r`.
    have hprev : magnitude s ≤ magnitude (r - 1) := magnitude_strictMono.monotone (by omega)
    have hhalf := magnitude_lt_halfway (r - 1)
    have hmid : halfway (r - 1) = (magnitude (r - 1) + magnitude r) / 2 := by
      rw [halfway, Nat.sub_add_cancel (by omega)]
    have habove := above_iff.mp (hleft.resolve_left (by omega))
    have hle : halfway (r - 1) ≤ x.value := habove.elim le_of_lt fun h => h.1.le
    have hfar : |x.value - magnitude s| = x.value - magnitude s := abs_of_pos (by linarith)
    rw [hfar]
    rcases habove with hv | ⟨hv, hodd⟩
    · exact .inl (abs_lt.mpr ⟨by linarith, by linarith⟩)
    · have hnear : |x.value - magnitude r| ≤ x.value - magnitude s :=
        abs_le.mpr ⟨by linarith, by linarith⟩
      exact hnear.lt_or_eq.imp_right fun h => ⟨h, by omega⟩
  · have hnext : magnitude (r + 1) ≤ magnitude s := magnitude_strictMono.monotone hgt
    have hhalf := halfway_lt_magnitude r
    have hmid : halfway r = (magnitude r + magnitude (r + 1)) / 2 := rfl
    have hle : x.value ≤ halfway r := hright.elim le_of_lt fun h => h.1.le
    have hfar : |x.value - magnitude s| = magnitude s - x.value := by
      rw [abs_sub_comm]
      exact abs_of_pos (by linarith)
    rw [hfar]
    rcases hright with hv | ⟨hv, heven⟩
    · exact .inl (abs_lt.mpr ⟨by linarith, by linarith⟩)
    · have hnear : |x.value - magnitude r| ≤ magnitude s - x.value :=
        abs_le.mpr ⟨by linarith, by linarith⟩
      exact hnear.lt_or_eq.imp_right fun h => ⟨h, heven⟩

/-- A decimal is read as the finite double of its sign that is nearest to it, or not at all if it
lies at least halfway from the largest finite magnitude to the next. -/
theorem toDouble?_spec (negative : Bool) (x : Decimal) :
    (∃ y, x.toDouble? negative = some y ∧ y.isFinite = true ∧ y.negative = negative ∧
      IsNearest x.value y.rank) ∨
    (x.toDouble? negative = none ∧ halfway (infinityRank - 1) ≤ x.value) := by
  rcases nearestRank_spec x with ⟨hlt, hreads⟩ | ⟨heq, habove⟩
  · have hbound : x.nearestRank < 2 ^ 63 := hlt.trans (by decide)
    refine .inl ⟨_, if_pos hlt, isFinite_ofRank negative hlt, negative_ofRank negative hbound, ?_⟩
    rw [rank_ofRank negative hbound]
    exact isNearest_of_readsAs hreads
  · refine .inr ⟨if_neg (by rw [heq]; exact lt_irrefl _), ?_⟩
    exact (above_iff.mp habove).elim le_of_lt fun h => h.1.le

/-- An integer of 64 bits, or one more, is far from infinity, so it has a nearest double. -/
theorem ofInt_spec {n : Int} (h : n.natAbs ≤ 2 ^ 64) : (ofInt n).isFinite = true ∧
    (ofInt n).negative = decide (n < 0) ∧ IsNearest n.natAbs (ofInt n).rank := by
  have hvalue : Decimal.value ⟨n.natAbs, 0⟩ = n.natAbs := by simp [Decimal.value]
  have hsmall : ((n.natAbs : Nat) : ℚ) < halfway (infinityRank - 1) := by
    have hcast : ((n.natAbs : Nat) : ℚ) ≤ 2 ^ 64 := by exact_mod_cast h
    have hlast : 0 ≤ magnitude (infinityRank - 1) :=
      div_nonneg (Nat.cast_nonneg _) (pow_nonneg zero_le_two 1074)
    have hpow : (2 : ℚ) ^ 64 * 2 < 2 ^ 1024 := by
      rw [← pow_succ]
      exact pow_lt_pow_right₀ one_lt_two (by decide)
    rw [halfway, Nat.sub_add_cancel (by decide), magnitude_infinityRank]
    generalize (2 : ℚ) ^ 1024 = infinity at hpow ⊢
    linarith
  rcases nearestRank_spec ⟨n.natAbs, 0⟩ with ⟨hlt, hreads⟩ | ⟨-, habove⟩
  · have hbound := hlt.trans (show infinityRank < 2 ^ 63 by decide)
    have hnearest := isNearest_of_readsAs hreads
    rw [hvalue] at hnearest
    refine ⟨isFinite_ofRank _ hlt, negative_ofRank _ hbound, ?_⟩
    rwa [ofInt, rank_ofRank _ hbound]
  · rw [above_iff, hvalue] at habove
    rcases habove with hlt | ⟨heq, -⟩
    · exact absurd hlt (not_lt.mpr hsmall.le)
    · exact absurd heq hsmall.ne'

end Decimal

end TopicBus
