import TopicBus.Proofs.Decimal.Rounding

/-!
The digits of a double read back as it (`readsAs_shortest`): every grid gives only points that read
as the rank in question, and on the grid of 10^-1074 the magnitude itself is a point.
-/

namespace TopicBus.Decimal

open Double

variable {r : Nat}

/-- A grid gives only points that read as the rank. -/
theorem readsAs_of_onGrid? {exponent : Int} {d : Decimal} (h : onGrid? r exponent = some d) :
    d.readsAs r = true := by
  unfold onGrid? at h
  generalize (if 0 ≤ exponent then _ else _ : Nat × Nat) = scaled at h
  obtain ⟨value, step⟩ := scaled
  dsimp only at h
  split at h
  · next hbelow habove =>
    rw [Option.some.injEq] at h
    rw [← h]
    split
    · exact habove
    · exact hbelow
  · next hbelow _ =>
    rw [← Option.some.inj h]
    exact hbelow
  · next _ habove =>
    rw [← Option.some.inj h]
    exact habove
  · nomatch h

/-- A grid is not given up where the point below the magnitude reads as the rank. -/
theorem isSome_onGrid? {exponent : Int} (hneg : ¬ 0 ≤ exponent) (h : Decimal.readsAs
    ⟨units r * Nat.pow 10 (-exponent).toNat / Nat.pow 2 1074, exponent⟩ r = true) :
    (onGrid? r exponent).isSome = true := by
  unfold onGrid?
  rw [if_neg hneg]
  generalize units r * Nat.pow 10 (-exponent).toNat = value, Nat.pow 2 1074 = step at h ⊢
  dsimp only
  rw [h]
  cases Decimal.readsAs ⟨value / step + 1, exponent⟩ r with
  | true => rfl
  | false => rfl

/-- A decimal that is a magnitude reads as it. -/
theorem readsAs_of_value {x : Decimal} (h : x.value = magnitude r) : x.readsAs r = true := by
  rw [readsAs_iff, above_eq_false_iff, h]
  refine ⟨.inl (magnitude_lt_halfway r), ?_⟩
  rcases Nat.eq_zero_or_pos r with hzero | hpos
  · exact .inl hzero
  · refine .inr (above_iff.mpr (.inl ?_))
    have hless := halfway_lt_magnitude (r - 1)
    rw [Nat.sub_add_cancel hpos] at hless
    rw [h]
    exact hless

private theorem mul_ten_pow_div (m n : Nat) : m * Nat.pow 10 n / Nat.pow 2 n = m * 5 ^ n := by
  rw [Nat.pow_eq, Nat.pow_eq, show (10 : Nat) = 5 * 2 from rfl, Nat.mul_pow, ← Nat.mul_assoc]
  exact Nat.mul_div_cancel _ (Nat.two_pow_pos n)

private theorem value_mul_five_pow (m n : Nat) :
    (⟨m * 5 ^ n, -n⟩ : Decimal).value = m / 2 ^ n := by
  rw [value, zpow_neg, zpow_natCast, ← div_eq_mul_inv, Nat.cast_mul, Nat.cast_pow,
    show (10 : ℚ) = 2 * 5 by norm_num, mul_pow]
  exact mul_div_mul_right _ _ (pow_ne_zero _ (by norm_num))

/-- The finest grid has every magnitude as a point: 10^1074 is a multiple of 2^1074. -/
theorem isSome_onGrid?_finest (r : Nat) : (onGrid? r (-(1074 : Nat))).isSome = true := by
  refine isSome_onGrid? (by decide) (readsAs_of_value ?_)
  rw [Int.neg_neg, Int.toNat_natCast, mul_ten_pow_div]
  exact value_mul_five_pow (units r) 1074

/-- The search finds a point where it starts high enough and goes on to the finest grid. -/
theorem readsAs_finerGrids {fuel : Nat} {exponent : Int} (hlow : -1074 ≤ exponent)
    (hfuel : exponent < fuel - 1074) : (finerGrids r fuel exponent).readsAs r = true := by
  induction fuel generalizing exponent with
  | zero => omega
  | succ fuel ih =>
    rw [finerGrids]
    cases hgrid : onGrid? r exponent with
    | some d => exact readsAs_of_onGrid? hgrid
    | none =>
      have hne : exponent ≠ -(1074 : Nat) := by
        rintro rfl
        have := isSome_onGrid?_finest r
        rw [hgrid] at this
        nomatch this
      exact ih (by omega) (by omega)

theorem readsAs_shortest (r : Nat) : (shortest r).readsAs r = true := by
  have hcoarse : -1074 ≤ coarse r := by
    unfold coarse
    omega
  exact readsAs_finerGrids hcoarse (by omega)

theorem digits_ne_zero_of_readsAs {x : Decimal} (hr : 0 < r) (h : x.readsAs r = true) :
    x.digits ≠ 0 := by
  intro hzero
  have habove := (readsAs_iff.mp h).2.resolve_left hr.ne'
  have hle : halfway (r - 1) ≤ x.value := (above_iff.mp habove).elim le_of_lt fun h => h.1.le
  have hpos : 0 < halfway (r - 1) := by
    refine lt_of_le_of_lt ?_ (magnitude_lt_halfway (r - 1))
    exact div_nonneg (Nat.cast_nonneg _) (pow_nonneg zero_le_two _)
  rw [value, hzero, Nat.cast_zero, zero_mul] at hle
  exact absurd hpos (not_lt.mpr hle)

end TopicBus.Decimal
