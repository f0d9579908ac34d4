import Mathlib.Tactic.Linarith
import Mathlib.Tactic.NormNum
import Mathlib.Tactic.Positivity
import AlgoBot.Core.Rounding

/-!
# The error of the nearest double

Between zero and a hundred a double is near the number it stands for, and what `round` makes of a
number of the unit interval is in it and near a decimal.

* `ofRat_near`: the nearest double of a number up to 100 is nearer than `1 / 2 ^ 46`.
* `round_unit`: `round` to few places stays in the unit interval.
* `percent_inj`, `percent_zero`: percentages of rounded numbers are equal only if the numbers are.
-/

namespace AlgoBot.Core.Double

/-! ## The leading digit -/

theorem pow_floorLog2_le {x : ℚ} (hx : 0 < x) : (2 : ℚ) ^ floorLog2 x ≤ x := by
  unfold floorLog2
  dsimp only
  split
  · assumption
  · -- the numerator has its leading digit, and the denominator is less than twice its own
    have hnum : x.num.natAbs ≠ 0 := Int.natAbs_ne_zero.mpr (Rat.num_pos.mpr hx).ne'
    have hlow : (2 : ℚ) ^ Nat.log2 x.num.natAbs ≤ x.num.natAbs := by
      exact_mod_cast Nat.log2_self_le hnum
    have hhigh : (x.den : ℚ) < 2 ^ (Nat.log2 x.den + 1) := by
      exact_mod_cast Nat.lt_log2_self
    have hden : (0 : ℚ) < x.den := by exact_mod_cast x.den_pos
    have hvalue : (x.num.natAbs : ℚ) = x * x.den := by
      have habs : ((x.num.natAbs : ℤ) : ℚ) = x.num := by
        rw [Int.natAbs_of_nonneg (Rat.num_pos.mpr hx).le]
      rw [Rat.mul_den_eq_num, ← habs]
      rfl
    have hsplit : (2 : ℚ) ^ ((Nat.log2 x.num.natAbs : ℤ) - Nat.log2 x.den - 1) *
        2 ^ (Nat.log2 x.den + 1) = 2 ^ Nat.log2 x.num.natAbs := by
      rw [← zpow_natCast, ← zpow_natCast, ← zpow_add₀ (by norm_num)]
      congr 1
      push_cast
      ring
    have hpos : (0 : ℚ) < 2 ^ ((Nat.log2 x.num.natAbs : ℤ) - Nat.log2 x.den - 1) := by positivity
    by_contra hnot
    have hless : x * x.den < 2 ^ ((Nat.log2 x.num.natAbs : ℤ) - Nat.log2 x.den - 1) *
        2 ^ (Nat.log2 x.den + 1) :=
      mul_lt_mul'' (not_le.mp hnot) hhigh hx.le hden.le
    rw [hsplit, ← hvalue] at hless
    exact absurd hless (not_lt.mpr hlow)

theorem lastPlace_le {x : ℚ} (hx : 0 < x) (hle : x ≤ 100) : lastPlace x ≤ -46 := by
  have hlog : floorLog2 |x| < 7 := by
    rw [abs_of_pos hx]
    have hpow : (2 : ℚ) ^ floorLog2 x < 2 ^ (7 : ℤ) := by
      refine (pow_floorLog2_le hx).trans_lt ?_
      norm_num
      linarith
    exact (zpow_lt_zpow_iff_right₀ (by norm_num)).mp hpow
  unfold lastPlace
  omega

theorem ofRat_zero : ofRat 0 = .fin 0 := by decide +kernel

theorem ofRat_one : ofRat 1 = .fin 1 := by decide +kernel

/-- The nearest double of a number up to a hundred. -/
theorem ofRat_near {x : ℚ} (hx : 0 ≤ x) (hle : x ≤ 100) :
    ∃ y, ofRat x = .fin y ∧ |y - x| ≤ 1 / 2 ^ 46 := by
  rcases hx.eq_or_lt with rfl | hpos
  · exact ⟨0, ofRat_zero, by norm_num⟩
  have hunit : (2 : ℚ) ^ lastPlace x ≤ 1 / 2 ^ 46 := by
    have hmono := zpow_le_zpow_right₀ (by norm_num : (1 : ℚ) ≤ 2) (lastPlace_le hpos hle)
    norm_num at hmono ⊢
    exact hmono
  have hunit_pos : (0 : ℚ) < 2 ^ lastPlace x := by positivity
  obtain ⟨hlow, hhigh⟩ := roundEven_bounds (x / 2 ^ lastPlace x)
  have hback : x / 2 ^ lastPlace x * 2 ^ lastPlace x = x := div_mul_cancel₀ x hunit_pos.ne'
  have hnear : |(roundEven (x / 2 ^ lastPlace x) : ℚ) * 2 ^ lastPlace x - x| ≤ 1 / 2 ^ 46 := by
    have hdiff : (roundEven (x / 2 ^ lastPlace x) : ℚ) * 2 ^ lastPlace x - x =
        (roundEven (x / 2 ^ lastPlace x) - x / 2 ^ lastPlace x) * 2 ^ lastPlace x := by
      rw [sub_mul, hback]
    rw [hdiff, abs_mul, abs_of_pos hunit_pos]
    have hhalf : |(roundEven (x / 2 ^ lastPlace x) : ℚ) - x / 2 ^ lastPlace x| ≤ 1 := by
      rw [abs_le]
      constructor <;> linarith
    calc |(roundEven (x / 2 ^ lastPlace x) : ℚ) - x / 2 ^ lastPlace x| * 2 ^ lastPlace x
        ≤ 1 * 2 ^ lastPlace x := mul_le_mul_of_nonneg_right hhalf hunit_pos.le
      _ ≤ 1 / 2 ^ 46 := by rwa [one_mul]
  refine ⟨_, ?_, hnear⟩
  unfold ofRat
  dsimp only
  rw [if_neg]
  -- a double near a hundred does not overflow
  have hthousand : (1000 : ℚ) ≤ 2 ^ 10 := by norm_num
  have hhuge : (1000 : ℚ) ≤ 2 ^ 1024 :=
    hthousand.trans (pow_le_pow_right₀ (by norm_num) (by norm_num))
  have hsmall : (1 : ℚ) / 2 ^ 46 ≤ 1 := by norm_num
  obtain ⟨hbelow, habove⟩ := abs_le.mp hnear
  rw [not_le]
  refine lt_of_lt_of_le ?_ hhuge
  rw [abs_lt]
  constructor <;> linarith

/-! ## Rounding to few places -/

/-- What `round` makes of a number of the unit interval: a decimal of it, as a double of it. -/
theorem round_unit {x : ℚ} (hx : 0 ≤ x) (hone : x ≤ 1) {places : ℕ} (hplaces : places ≤ 4) :
    ∃ (m : ℤ) (y : ℚ), round places (.fin x) = ofRat ((m : ℚ) / 10 ^ places) ∧
      ofRat ((m : ℚ) / 10 ^ places) = .fin y ∧ 0 ≤ y ∧ y ≤ 1 ∧
        |y - (m : ℚ) / 10 ^ places| ≤ 1 / 2 ^ 46 := by
  have hten : (0 : ℚ) < 10 ^ places := by positivity
  have hten_le : (10 : ℚ) ^ places ≤ 10 ^ 4 := pow_le_pow_right₀ (by norm_num) hplaces
  have hlow : 0 ≤ roundEven (x * 10 ^ places) := by
    have hmono := roundEven_mono (show ((0 : ℤ) : ℚ) ≤ x * 10 ^ places by
      push_cast
      positivity)
    rwa [roundEven_intCast] at hmono
  have hhigh : roundEven (x * 10 ^ places) ≤ 10 ^ places := by
    have hmono := roundEven_mono (show x * 10 ^ places ≤ ((10 ^ places : ℤ) : ℚ) by
      push_cast
      nlinarith)
    rwa [roundEven_intCast] at hmono
  generalize hm : roundEven (x * 10 ^ places) = m at hlow hhigh
  have hround : round places (.fin x) = ofRat ((m : ℚ) / 10 ^ places) := by rw [round, hm]
  have hm_low : (0 : ℚ) ≤ m := by exact_mod_cast hlow
  have hm_high : (m : ℚ) ≤ 10 ^ places := by exact_mod_cast hhigh
  obtain ⟨y, hy, hnear⟩ := ofRat_near (x := (m : ℚ) / 10 ^ places) (by positivity)
    (((div_le_one hten).mpr hm_high).trans (by norm_num))
  refine ⟨m, y, hround, hy, ?_, ?_, hnear⟩
  · -- zero is exact, and any other decimal is far enough from it
    rcases hlow.eq_or_lt with rfl | hpos
    · rw [Int.cast_zero, zero_div, ofRat_zero] at hy
      exact (Double.fin.inj hy).le
    · have hstep : (1 : ℚ) ≤ m := by exact_mod_cast hpos
      have hfar : (1 : ℚ) / 10 ^ 4 ≤ m / 10 ^ places :=
        div_le_div₀ hm_low hstep hten hten_le
      have hbelow := (abs_le.mp hnear).1
      norm_num at hfar hbelow ⊢
      linarith
  · -- and so is one
    rcases hhigh.eq_or_lt with rfl | hless
    · rw [Int.cast_pow, Int.cast_ofNat, div_self hten.ne', ofRat_one] at hy
      exact (Double.fin.inj hy).symm.le
    · have hstep : (m : ℚ) + 1 ≤ 10 ^ places := by exact_mod_cast hless
      have hfar : (m : ℚ) / 10 ^ places ≤ 1 - 1 / 10 ^ 4 := by
        have hone_le : (1 : ℚ) / 10 ^ 4 ≤ 1 / 10 ^ places :=
          div_le_div_of_nonneg_left (by norm_num) hten hten_le
        have hsum : (m : ℚ) / 10 ^ places + 1 / 10 ^ places ≤ 1 := by
          rw [← add_div]
          exact (div_le_one hten).mpr hstep
        linarith
      have habove := (abs_le.mp hnear).2
      norm_num at hfar habove ⊢
      linarith

/-- A number of the unit interval has the percentage of its two places only if it has two places. -/
theorem percent_inj {x : ℚ} (hx : 0 ≤ x) (hone : x ≤ 1) :
    mul (round 2 (round 4 (.fin x))) (.fin 100) = mul (round 4 (.fin x)) (.fin 100) ↔
      round 2 (round 4 (.fin x)) = round 4 (.fin x) := by
  obtain ⟨m, a, hround, ha, ha_low, ha_high, ha_near⟩ := round_unit hx hone (le_refl 4)
  rw [hround, ha]
  obtain ⟨k, b, hround', hb, hb_low, hb_high, hb_near⟩ :=
    round_unit ha_low ha_high (show 2 ≤ 4 by norm_num)
  rw [hround', hb]
  constructor
  · intro hpercent
    obtain ⟨p, hp, hp_near⟩ := ofRat_near (x := b * 100) (by positivity) (by linarith)
    obtain ⟨q, hq, hq_near⟩ := ofRat_near (x := a * 100) (by positivity) (by linarith)
    have hpq : p = q := by
      rw [mul, mul, hp, hq] at hpercent
      exact Double.fin.inj hpercent
    -- the two decimals differ by less than the last of four places, so they are one
    rw [abs_le] at ha_near hb_near hp_near hq_near
    have hclose : -1 < (m : ℚ) - 100 * k ∧ (m : ℚ) - 100 * k < 1 := by
      norm_num at ha_near hb_near hp_near hq_near
      constructor <;> linarith
    have hsame : m = 100 * k := by
      have hlow : -1 < m - 100 * k := by exact_mod_cast hclose.1
      have hhigh : m - 100 * k < 1 := by exact_mod_cast hclose.2
      omega
    have hdecimal : (m : ℚ) / 10 ^ 4 = (k : ℚ) / 10 ^ 2 := by
      rw [hsame]
      push_cast
      ring
    rw [← hb, ← ha, hdecimal]
  · intro hsame
    rw [hsame]

/-- And the percentage zero only if it is zero. -/
theorem percent_zero {x : ℚ} (hx : 0 ≤ x) (hone : x ≤ 1) :
    mul (round 4 (.fin x)) (.fin 100) = .fin 0 ↔ round 4 (.fin x) = .fin 0 := by
  obtain ⟨m, a, hround, ha, ha_low, ha_high, ha_near⟩ := round_unit hx hone (le_refl 4)
  rw [hround, ha]
  constructor
  · intro hpercent
    obtain ⟨p, hp, hp_near⟩ := ofRat_near (x := a * 100) (by positivity) (by linarith)
    have hzero : p = 0 := by
      rw [mul, hp] at hpercent
      exact Double.fin.inj hpercent
    rw [abs_le] at ha_near hp_near
    have hclose : -1 < (m : ℚ) ∧ (m : ℚ) < 1 := by
      norm_num at ha_near hp_near
      constructor <;> linarith
    have hnone : m = 0 := by
      have hlow : -1 < m := by exact_mod_cast hclose.1
      have hhigh : m < 1 := by exact_mod_cast hclose.2
      omega
    rw [← ha, hnone, Int.cast_zero, zero_div, ofRat_zero]
  · intro hzero
    rw [hzero, mul, zero_mul, ofRat_zero]

end AlgoBot.Core.Double
