import AlgoBot.Core.Rounding
import AlgoBot.Portfolios.Allocation

/-!
# Equal weights

The percentages of the `equal_weight` method in decimal arithmetic: a hundred by
the number of targets is rounded to the precision of the context, then down to six
decimals, and the last target gets what is left of a hundred.

* `decimalWeights_eq`: none of the roundings of the context shows: the weights are
  whole millionths.
* `equal_weight_exact`: they are the percentages that are stored, none is negative,
  they add up to a hundred, and all but the last are the same.
-/

namespace AlgoBot.Portfolios

open AlgoBot.Core AlgoBot.Python
open Dec (DivSignal lastDigit roundTo)

/-- `quantize` to so many decimals, with `ROUND_DOWN`. -/
def quantizeDown (places : ℕ) : Dec → Except Dec.Signal Dec
  | .finite neg coeff exp =>
    let units :=
      if 0 ≤ exp + places then coeff * 10 ^ (exp + places).toNat
      else coeff / 10 ^ (-(exp + places)).toNat
    if Dec.prec < Dec.numDigits units then .error .invalidOperation
    else .ok (.finite neg units (-places))
  | .inf _ => .error .invalidOperation
  | .nan => .ok .nan
  | .snan => .error .invalidOperation

/-- The weight of all targets but the last, and that of the last, among so many. -/
def decimalWeights (n : ℕ) : Except DivSignal (Dec × Dec) := do
  let share ← Dec.div (.finite false 100 0) (.finite false n 0)
  let weight ← (quantizeDown 6 share).mapError .signal
  let others ← (Dec.mul weight (.finite false (n - 1) 0)).mapError .signal
  let last ← (Dec.sub (.finite false 100 0) others).mapError .signal
  return (weight, last)

/-! ## The share -/

section Share

variable {n : ℕ}

/-- A hundred by a number of targets, rounded, is between the same millionths. -/
theorem roundTo_share (hn : 1 ≤ n) :
    ((hundred / n : ℕ) : ℚ) / 10 ^ 6 ≤ roundTo (100 / n) ∧
      roundTo (100 / n) < ((hundred / n : ℕ) + 1 : ℚ) / 10 ^ 6 := by
  have hpos : (0 : ℚ) < n := by exact_mod_cast hn
  have hdiv : n * (hundred / n) + hundred % n = hundred := Nat.div_add_mod hundred n
  have hrest : hundred % n < n := Nat.mod_lt _ hn
  have hhundred : hundred = 10 ^ 8 := rfl
  constructor
  · -- a number of millionths has few digits, and rounding is monotone
    have hfew : roundTo ((hundred / n : ℕ) * 10 ^ (-6 : ℤ)) = (hundred / n : ℕ) * 10 ^ (-6 : ℤ) := by
      refine Dec.roundTo_of_digits (lt_of_le_of_lt (Nat.div_le_self _ _) ?_)
      decide
    have hscale : ((hundred / n : ℕ) : ℚ) / 10 ^ 6 = (hundred / n : ℕ) * 10 ^ (-6 : ℤ) := by
      rw [zpow_neg, div_eq_mul_inv]
      norm_cast
    rw [hscale, ← hfew]
    refine Dec.roundTo_mono (by positivity) ?_
    rw [← hscale, div_le_div_iff₀ (by positivity) hpos]
    have hle : n * (hundred / n) ≤ 10 ^ 8 := by omega
    have hcast : (n : ℚ) * (hundred / n : ℕ) ≤ 10 ^ 8 := by exact_mod_cast hle
    linarith
  · -- the distance to the next millionth is more than the error
    have herror := Dec.roundTo_error (show (0 : ℚ) < 100 / n by positivity)
    have hnext : (10 : ℚ) ^ 8 + 1 ≤ ((hundred / n : ℕ) + 1) * n := by
      have hle : 10 ^ 8 + 1 ≤ (hundred / n + 1) * n := by
        rw [Nat.add_mul, Nat.mul_comm, Nat.one_mul]
        omega
      exact_mod_cast hle
    refine lt_of_le_of_lt herror ?_
    have hsum : (100 : ℚ) / n + 100 / n / 10 ^ 27 = (100 + 100 / 10 ^ 27) / n := by ring
    rw [hsum, div_lt_div_iff₀ hpos (by positivity)]
    have hsmall : (100 + 100 / 10 ^ 27 : ℚ) * 10 ^ 6 < 10 ^ 8 + 1 := by norm_num
    linarith

/-- The last digit of a share. -/
theorem lastDigit_share (hn : 1 ≤ n) : lastDigit (100 / n) ≤ -25 := by
  have hpos : (0 : ℚ) < n := by exact_mod_cast hn
  have hle : (100 : ℚ) / n ≤ 100 := by
    rw [div_le_iff₀ hpos]
    have hone : (1 : ℚ) ≤ n := by exact_mod_cast hn
    linarith
  have hlog : Int.log 10 ((100 : ℚ) / n) ≤ Int.log 10 (100 : ℚ) :=
    Int.log_mono_right (by positivity) hle
  have htwo : Int.log 10 (100 : ℚ) = 2 := by
    have hpow : (100 : ℚ) = ((10 : ℕ) : ℚ) ^ (2 : ℤ) := by norm_num
    rw [hpow, Int.log_zpow (by norm_num)]
  unfold lastDigit
  omega

/-- The share, as the context returns it. -/
theorem div_share (hn : 1 ≤ n) : ∃ coeff : ℕ,
    Dec.div (.finite false 100 0) (.finite false n 0) =
        .ok (.finite false coeff (lastDigit (100 / n))) ∧
      (coeff : ℚ) * 10 ^ lastDigit (100 / n) = roundTo (100 / n) := by
  have hpos : (0 : ℚ) < n := by exact_mod_cast hn
  have hlast := lastDigit_share hn
  obtain ⟨coeff, hcoeff⟩ : ∃ coeff : ℕ,
      coeff = (Double.roundEven ((100 : ℚ) / n / 10 ^ lastDigit (100 / n))).toNat := ⟨_, rfl⟩
  have hv : ((100 : ℕ) : ℚ) / n * 10 ^ ((0 : ℤ) - 0) = 100 / n := by simp
  have hzero : n ≠ 0 := by omega
  have hscaled := (Dec.scaled_bounds (show (0 : ℚ) < 100 / n by positivity)).2
  have hround : Double.roundEven ((100 : ℚ) / n / 10 ^ lastDigit (100 / n)) ≤ 10 ^ 28 := by
    rw [← Double.roundEven_intCast (10 ^ 28)]
    exact Double.roundEven_mono (by exact_mod_cast hscaled.le)
  have hnonneg : 0 ≤ Double.roundEven ((100 : ℚ) / n / 10 ^ lastDigit (100 / n)) := by
    rw [← Double.roundEven_intCast 0]
    refine Double.roundEven_mono ?_
    push_cast
    positivity
  have hdigits : Dec.numDigits coeff ≤ 29 := by
    rw [Dec.numDigits_le_iff (by decide)]
    omega
  have hfits : ¬ Dec.emax < lastDigit (100 / n) + Dec.numDigits coeff - 1 := by
    have hcast : (Dec.numDigits coeff : ℤ) ≤ 29 := by exact_mod_cast hdigits
    unfold Dec.emax
    omega
  refine ⟨coeff, ?_, ?_⟩
  · simp only [Dec.div]
    rw [if_neg hzero, if_neg (by decide), hv, ← hcoeff, if_neg hfits]
    rfl
  · rw [roundTo, hcoeff, ← Int.cast_natCast, Int.toNat_of_nonneg hnonneg]

/-- Rounded down, it is a whole number of millionths. -/
theorem quantize_share {coeff : ℕ} (hn : 1 ≤ n)
    (hcoeff : (coeff : ℚ) * 10 ^ lastDigit (100 / n) = roundTo (100 / n)) :
    quantizeDown 6 (.finite false coeff (lastDigit (100 / n))) =
      .ok (.finite false (hundred / n) (-6)) := by
  have hlast := lastDigit_share hn
  obtain ⟨k, hk⟩ := Int.eq_ofNat_of_zero_le (by omega : 0 ≤ -(lastDigit (100 / n) + ((6 : ℕ) : ℤ)))
  have hexp : lastDigit (100 / n) = -6 - k := by
    push_cast at hk
    omega
  obtain ⟨hlow, hhigh⟩ := roundTo_share hn
  have hscale : (10 : ℚ) ^ lastDigit (100 / n) = 1 / (10 ^ 6 * 10 ^ k) := by
    rw [hexp, sub_eq_add_neg, zpow_add₀ (by norm_num), zpow_neg, zpow_neg, zpow_natCast]
    norm_num
    ring
  rw [← hcoeff, hscale, mul_one_div] at hlow hhigh
  -- the bounds of the rounded share leave one number of millionths
  have hunits : coeff / 10 ^ k = hundred / n := by
    apply Nat.div_eq_of_lt_le
    · rw [div_le_div_iff₀ (by positivity) (by positivity)] at hlow
      have hle : ((hundred / n : ℕ) : ℚ) * 10 ^ k ≤ coeff := by
        have hsplit : ((hundred / n : ℕ) : ℚ) * (10 ^ 6 * 10 ^ k) =
          ((hundred / n : ℕ) : ℚ) * 10 ^ k * 10 ^ 6 := by ring
        rw [hsplit] at hlow
        exact le_of_mul_le_mul_right hlow (by positivity)
      exact_mod_cast hle
    · rw [div_lt_div_iff₀ (by positivity) (by positivity)] at hhigh
      have hlt : (coeff : ℚ) < ((hundred / n : ℕ) + 1) * 10 ^ k := by
        have hsplit : ((hundred / n : ℕ) + 1 : ℚ) * (10 ^ 6 * 10 ^ k) =
          ((hundred / n : ℕ) + 1 : ℚ) * 10 ^ k * 10 ^ 6 := by ring
        rw [hsplit] at hhigh
        exact lt_of_mul_lt_mul_right hhigh (by positivity)
      exact_mod_cast hlt
  have hfits : ¬ Dec.prec < Dec.numDigits (hundred / n) := by
    rw [not_lt, Dec.numDigits_le_iff (by decide)]
    exact lt_of_le_of_lt (Nat.div_le_self _ _) (by decide)
  have hneg : ¬ 0 ≤ lastDigit (100 / n) + ((6 : ℕ) : ℤ) := by
    push_cast
    omega
  simp only [quantizeDown]
  rw [if_neg hneg, hk, Int.toNat_natCast, hunits, if_neg hfits]
  rfl

/-- The weights are whole millionths: the rounded share, and the rest of a hundred. -/
theorem decimalWeights_eq (hn : 1 ≤ n) :
    decimalWeights n = .ok (.finite false (hundred / n) (-6),
      .finite false (hundred - hundred / n * (n - 1)) (-6)) := by
  obtain ⟨coeff, hshare, hcoeff⟩ := div_share hn
  have hothers : hundred / n * (n - 1) ≤ hundred := by
    calc hundred / n * (n - 1) ≤ hundred / n * n := Nat.mul_le_mul_left _ (Nat.sub_le _ _)
      _ ≤ hundred := Nat.div_mul_le_self _ _
  have hprec : hundred < 10 ^ Dec.prec := by decide
  have hmul : Dec.mul (.finite false (hundred / n) (-6)) (.finite false (n - 1) 0) =
      .ok (.finite false (hundred / n * (n - 1)) (-6)) :=
    Dec.mulFinite_of_lt (by omega) (by omega)
  have hsub : Dec.sub (.finite false 100 0) (.finite false (hundred / n * (n - 1)) (-6)) =
      .ok (.finite false (hundred - hundred / n * (n - 1)) (-6)) := by
    obtain ⟨others, ho⟩ : ∃ others, others = hundred / n * (n - 1) := ⟨_, rfl⟩
    rw [← ho] at hothers ⊢
    have hhundred : hundred = 100000000 := rfl
    have hless : decide (((100 : ℕ) : ℤ) * 10 ^ 6 < others) = false := by
      rw [decide_eq_false_iff_not]
      omega
    have hdiff : (((100 : ℕ) : ℤ) * 10 ^ 6 - others).natAbs = hundred - others := by omega
    have hfinite : Dec.sub (.finite false 100 0) (.finite false others (-6)) =
        Dec.mulFinite (decide (((100 : ℕ) : ℤ) * 10 ^ 6 < others))
          (((100 : ℕ) : ℤ) * 10 ^ 6 - others).natAbs (-6) := by
      simp [Dec.sub]
    rw [hfinite, hless, hdiff]
    exact Dec.mulFinite_of_lt (by omega) (by omega)
  refine bind_ok.mpr ⟨_, hshare, bind_ok.mpr ⟨_, mapError_ok.mpr (quantize_share hn hcoeff),
    bind_ok.mpr ⟨_, mapError_ok.mpr hmul, bind_ok.mpr ⟨_, mapError_ok.mpr hsub, rfl⟩⟩⟩⟩

end Share

/-! ## The percentages -/

/-- The percentages of some targets, as numbers. -/
def percentages (targets : List Clean) : List ℚ :=
  targets.map fun target => (target.allocation_percent : ℚ) / 10 ^ 6

/-- The percentages of the equal weight method are those of the decimals: all the same but the
last, none negative, and a hundred together. -/
theorem equal_weight_exact (targets : List Clean) (h : targets ≠ []) :
    ∃ weight last : Dec, ∃ w l : ℚ, decimalWeights targets.length = .ok (weight, last) ∧
      weight.toRat = some w ∧ last.toRat = some l ∧
        percentages (equalWeight targets) = List.replicate (targets.length - 1) w ++ [l] ∧
          0 ≤ w ∧ 0 ≤ l ∧ (percentages (equalWeight targets)).sum = 100 := by
  have hn : 1 ≤ targets.length := List.length_pos_iff.mpr h
  obtain ⟨n, hlength⟩ : ∃ n, n = targets.length := ⟨_, rfl⟩
  rw [← hlength] at hn ⊢
  have hothers : hundred / n * (n - 1) ≤ hundred := by
    calc hundred / n * (n - 1) ≤ hundred / n * n := Nat.mul_le_mul_left _ (Nat.sub_le _ _)
      _ ≤ hundred := Nat.div_mul_le_self _ _
  have hvalue : ∀ m : ℕ, (Dec.finite false m (-6)).toRat = some ((m : ℚ) / 10 ^ 6) := by
    intro m
    rw [Dec.toRat, zpow_neg, div_eq_mul_inv]
    simp
  have hlist : percentages (equalWeight targets) =
      List.replicate (n - 1) ((hundred / n : ℕ) / 10 ^ 6 : ℚ) ++
        [((hundred - hundred / n * (n - 1) : ℕ) : ℚ) / 10 ^ 6] := by
    rcases List.eq_nil_or_concat targets with rfl | ⟨front, last, rfl⟩
    · exact absurd rfl h
    · rw [hlength]
      simp [equalWeight, percentages, Function.comp_def]
  refine ⟨_, _, _, _, decimalWeights_eq hn, hvalue _, hvalue _, hlist, by positivity,
    by positivity, ?_⟩
  rw [hlist, List.sum_append, List.sum_replicate, List.sum_singleton, nsmul_eq_mul,
    mul_div_assoc', ← add_div, div_eq_iff (by positivity)]
  have hsum : (n - 1) * (hundred / n) + (hundred - hundred / n * (n - 1)) = 100 * 10 ^ 6 := by
    rw [Nat.mul_comm, Nat.add_sub_cancel' hothers]
    rfl
  exact_mod_cast hsum

/-- Three targets: 33.333333 twice, and 33.333334. -/
theorem equal_weight_three :
    percentages (equalWeight [⟨"a", "", 0, 0⟩, ⟨"b", "", 0, 0⟩, ⟨"c", "", 0, 0⟩]) =
        [33333333 / 10 ^ 6, 33333333 / 10 ^ 6, 33333334 / 10 ^ 6] ∧
      (percentages (equalWeight [⟨"a", "", 0, 0⟩, ⟨"b", "", 0, 0⟩, ⟨"c", "", 0, 0⟩])).sum = 100 := by
  obtain ⟨_, _, _, _, _, _, _, _, _, _, hsum⟩ :=
    equal_weight_exact [⟨"a", "", 0, 0⟩, ⟨"b", "", 0, 0⟩, ⟨"c", "", 0, 0⟩] (by simp)
  exact ⟨by decide +kernel, hsum⟩

end AlgoBot.Portfolios
