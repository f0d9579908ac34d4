import Mathlib.Data.Int.Log
import AlgoBot.Core.Decimal
import AlgoBot.Core.Double

/-!
# Rounding to so many digits

What the operations of a decimal context return, as a function on exact numbers:
the nearest number with the digits of the precision, ties to even.

* `roundTo_mono`: the rounding is monotone.
* `roundTo_of_digits`: what has no more digits is not rounded.
* `mulFinite_value`: the rounding of coefficients is this one; `mul_value`,
  `sub_value` and `div_value` follow.
* `mulFinite_of_lt_pow`: a result below the largest power of ten does not overflow.
-/

namespace AlgoBot.Core

namespace Double

theorem roundEven_bounds (x : ℚ) :
    (roundEven x : ℚ) - 1 / 2 ≤ x ∧ x ≤ roundEven x + 1 / 2 := by
  have hfloor : (⌊x⌋ : ℚ) ≤ x := Int.floor_le x
  have hnext : x < ⌊x⌋ + 1 := Int.lt_floor_add_one x
  unfold roundEven
  dsimp only
  split
  · constructor <;> linarith
  · split
    · push_cast
      constructor <;> linarith
    · -- half way, to one of the neighbours
      rcases Int.emod_two_eq_zero_or_one ⌊x⌋ with heven | hodd
      · rw [heven]
        push_cast
        constructor <;> linarith
      · rw [hodd]
        push_cast
        constructor <;> linarith

theorem roundEven_mono {x y : ℚ} (h : x ≤ y) : roundEven x ≤ roundEven y := by
  by_contra hnot
  have hstep : (roundEven y : ℚ) + 1 ≤ roundEven x := by
    exact_mod_cast Int.add_one_le_of_lt (not_le.mp hnot)
  have hx := (roundEven_bounds x).1
  have hy := (roundEven_bounds y).2
  -- both are the same half
  obtain rfl : x = y := by linarith
  exact hnot (le_refl _)

theorem roundEven_intCast (n : ℤ) : roundEven n = n := by
  have hhalf : (n : ℚ) - (n : ℤ) < 1 / 2 := by norm_num
  simp [roundEven]

end Double

namespace Dec

open Double (roundEven roundEven_bounds roundEven_mono roundEven_intCast)

/-! ## Division of natural numbers -/

theorem roundDiv_eq_roundEven {n d : ℕ} (hd : 0 < d) :
    (roundDiv n d : ℤ) = roundEven ((n : ℚ) / d) := by
  have hpos : (0 : ℚ) < d := by exact_mod_cast hd
  have hfloor : ⌊(n : ℚ) / d⌋ = ((n / d : ℕ) : ℤ) := by
    rw [Rat.floor_natCast_div_natCast]
    rfl
  have hsplit : (d : ℚ) * (n / d : ℕ) + (n % d : ℕ) = n := by exact_mod_cast Nat.div_add_mod n d
  have hrest : (n : ℚ) / d - ((n / d : ℕ) : ℤ) = (n % d : ℕ) / d := by
    rw [Int.cast_natCast, ← hsplit]
    field_simp
    ring
  unfold roundDiv roundEven
  dsimp only
  rw [hfloor, hrest]
  by_cases hlow : 2 * (n % d) < d
  · have hlow' : ((n % d : ℕ) : ℚ) / d < 1 / 2 := by
      rw [div_lt_div_iff₀ hpos (by norm_num)]
      exact_mod_cast (by omega : n % d * 2 < 1 * d)
    rw [if_pos hlow, if_pos hlow']
  · have hlow' : ¬ ((n % d : ℕ) : ℚ) / d < 1 / 2 := by
      rw [not_lt, div_le_div_iff₀ (by norm_num) hpos]
      exact_mod_cast (by omega : 1 * d ≤ n % d * 2)
    rw [if_neg hlow, if_neg hlow']
    -- the rest is at least a half: more than it, or the tie that goes to the even neighbour
    by_cases hhigh : d < 2 * (n % d)
    · have hhigh' : 1 / 2 < ((n % d : ℕ) : ℚ) / d := by
        rw [div_lt_div_iff₀ (by norm_num) hpos]
        exact_mod_cast (by omega : 1 * d < n % d * 2)
      rw [if_pos hhigh, if_pos hhigh']
      push_cast
      rfl
    · have hhigh' : ¬ 1 / 2 < ((n % d : ℕ) : ℚ) / d := by
        rw [not_lt, div_le_div_iff₀ hpos (by norm_num)]
        exact_mod_cast (by omega : n % d * 2 ≤ 1 * d)
      rw [if_neg hhigh, if_neg hhigh']
      by_cases heven : n / d % 2 = 0
      · rw [if_pos heven]
        omega
      · rw [if_neg heven]
        push_cast
        omega

/-! ## The specification -/

/-- The exponent of the last digit that the precision leaves a positive number. -/
def lastDigit (v : ℚ) : ℤ := Int.log 10 v - 27

/-- The nearest number with so many digits; of zero, zero. -/
def roundTo (v : ℚ) : ℚ := roundEven (v / 10 ^ lastDigit v) * 10 ^ lastDigit v

section Spec

variable {v w : ℚ}

theorem scaled_bounds (hv : 0 < v) :
    (10 : ℚ) ^ 27 ≤ v / 10 ^ lastDigit v ∧ v / 10 ^ lastDigit v < 10 ^ 28 := by
  have hlow : (10 : ℚ) ^ Int.log 10 v ≤ v := by
    exact_mod_cast Int.zpow_log_le_self (b := 10) (by norm_num) hv
  have hhigh : v < (10 : ℚ) ^ (Int.log 10 v + 1) := by
    exact_mod_cast Int.lt_zpow_succ_log_self (b := 10) (by norm_num) v
  have hpos : (0 : ℚ) < 10 ^ lastDigit v := by positivity
  constructor
  · rw [le_div_iff₀ hpos, ← zpow_natCast, ← zpow_add₀ (by norm_num), lastDigit]
    simpa using hlow
  · rw [div_lt_iff₀ hpos, ← zpow_natCast, ← zpow_add₀ (by norm_num), lastDigit]
    have hexp : ((28 : ℕ) : ℤ) + (Int.log 10 v - 27) = Int.log 10 v + 1 := by
      push_cast
      ring
    rw [hexp]
    exact hhigh

/-- A number with few enough digits is not rounded. -/
theorem roundTo_of_digits {m : ℕ} {j : ℤ} (hm : m < 10 ^ 28) :
    roundTo (m * 10 ^ j) = m * 10 ^ j := by
  by_cases hzero : m = 0
  · have hround : roundEven 0 = 0 := roundEven_intCast 0
    simp [roundTo, hzero, hround]
  · have hone : (1 : ℚ) ≤ m := by exact_mod_cast Nat.one_le_iff_ne_zero.mpr hzero
    have hv : (0 : ℚ) < m * 10 ^ j := by positivity
    -- the last digit is at least that of the number
    have hexp : lastDigit (m * 10 ^ j) ≤ j := by
      have hlt : (m : ℚ) * 10 ^ j < 10 ^ (j + 28) := by
        rw [zpow_add₀ (by norm_num), mul_comm]
        have hcast : (m : ℚ) < 10 ^ (28 : ℤ) := by exact_mod_cast hm
        exact mul_lt_mul_of_pos_left hcast (by positivity)
      have hlog : Int.log 10 ((m : ℚ) * 10 ^ j) < j + 28 := by
        rw [← Int.lt_zpow_iff_log_lt (by norm_num) hv]
        exact_mod_cast hlt
      unfold lastDigit
      omega
    obtain ⟨k, hk⟩ := Int.eq_ofNat_of_zero_le (by omega : 0 ≤ j - lastDigit (m * 10 ^ j))
    have hint : (m : ℚ) * 10 ^ j / 10 ^ lastDigit (m * 10 ^ j) = ((m * 10 ^ k : ℕ) : ℤ) := by
      rw [mul_div_assoc, ← zpow_sub₀ (by norm_num), hk]
      push_cast
      rw [zpow_natCast]
    rw [roundTo, hint, roundEven_intCast, ← hint, div_mul_cancel₀ _ (by positivity)]

theorem roundTo_zero : roundTo 0 = 0 := by
  have h : roundTo ((0 : ℕ) * 10 ^ (0 : ℤ)) = (0 : ℕ) * 10 ^ (0 : ℤ) :=
    roundTo_of_digits (by norm_num)
  simpa using h

/-- The bounds of a decade are kept. -/
theorem roundTo_decade (hv : 0 < v) :
    (10 : ℚ) ^ Int.log 10 v ≤ roundTo v ∧ roundTo v ≤ 10 ^ (Int.log 10 v + 1) := by
  obtain ⟨hlow, hhigh⟩ := scaled_bounds hv
  have hpos : (0 : ℚ) < 10 ^ lastDigit v := by positivity
  have hfrom : (10 : ℤ) ^ 27 ≤ roundEven (v / 10 ^ lastDigit v) := by
    rw [← roundEven_intCast (10 ^ 27)]
    exact roundEven_mono (by exact_mod_cast hlow)
  have hto : roundEven (v / 10 ^ lastDigit v) ≤ (10 : ℤ) ^ 28 := by
    rw [← roundEven_intCast (10 ^ 28)]
    exact roundEven_mono (by exact_mod_cast hhigh.le)
  have hfrom' : (10 : ℚ) ^ 27 ≤ roundEven (v / 10 ^ lastDigit v) := by exact_mod_cast hfrom
  have hto' : (roundEven (v / 10 ^ lastDigit v) : ℚ) ≤ 10 ^ 28 := by exact_mod_cast hto
  have hlog : Int.log 10 v = 27 + lastDigit v := by
    unfold lastDigit
    ring
  constructor
  · rw [hlog, zpow_add₀ (by norm_num)]
    exact mul_le_mul_of_nonneg_right (by exact_mod_cast hfrom') hpos.le
  · have hnext : Int.log 10 v + 1 = 28 + lastDigit v := by
      rw [hlog]
      ring
    rw [hnext, zpow_add₀ (by norm_num)]
    exact mul_le_mul_of_nonneg_right (by exact_mod_cast hto') hpos.le

theorem roundTo_pos (hv : 0 < v) : 0 < roundTo v :=
  lt_of_lt_of_le (by positivity) (roundTo_decade hv).1

theorem roundTo_nonneg (hv : 0 ≤ v) : 0 ≤ roundTo v := by
  rcases hv.eq_or_lt with rfl | hpos
  · rw [roundTo_zero]
  · exact (roundTo_pos hpos).le

/-- Rounding is monotone. -/
theorem roundTo_mono (hv : 0 ≤ v) (h : v ≤ w) : roundTo v ≤ roundTo w := by
  rcases hv.eq_or_lt with rfl | hpos
  · rw [roundTo_zero]
    exact roundTo_nonneg h
  · have hw : 0 < w := lt_of_lt_of_le hpos h
    rcases (Int.log_mono_right (b := 10) hpos h).eq_or_lt with hsame | hlater
    · -- in one decade the last digit is the same
      have hexp : lastDigit v = lastDigit w := by rw [lastDigit, lastDigit, hsame]
      have hscale : (0 : ℚ) < 10 ^ lastDigit w := by positivity
      have hround : roundEven (v / 10 ^ lastDigit w) ≤ roundEven (w / 10 ^ lastDigit w) :=
        roundEven_mono (div_le_div_of_nonneg_right h hscale.le)
      rw [roundTo, roundTo, hexp]
      exact mul_le_mul_of_nonneg_right (by exact_mod_cast hround) hscale.le
    · calc roundTo v ≤ 10 ^ (Int.log 10 v + 1) := (roundTo_decade hpos).2
        _ ≤ 10 ^ Int.log 10 w := zpow_le_zpow_right₀ (by norm_num) (by omega)
        _ ≤ roundTo w := (roundTo_decade hw).1

/-- The error is half a unit of the last digit at most. -/
theorem roundTo_error (hv : 0 < v) : roundTo v ≤ v + v / 10 ^ 27 := by
  have hpos : (0 : ℚ) < 10 ^ lastDigit v := by positivity
  have hbound := (roundEven_bounds (v / 10 ^ lastDigit v)).1
  have hlow := (scaled_bounds hv).1
  have hscaled : (roundEven (v / 10 ^ lastDigit v) : ℚ) ≤
      v / 10 ^ lastDigit v + v / 10 ^ lastDigit v / 10 ^ 27 := by
    have hone : (1 : ℚ) ≤ v / 10 ^ lastDigit v / 10 ^ 27 := by
      rw [le_div_iff₀ (by positivity)]
      linarith
    linarith
  calc roundTo v ≤ (v / 10 ^ lastDigit v + v / 10 ^ lastDigit v / 10 ^ 27) * 10 ^ lastDigit v :=
        mul_le_mul_of_nonneg_right hscaled hpos.le
    _ = v + v / 10 ^ 27 := by
        field_simp

end Spec

/-- Rounding of a number with a sign. -/
def rounded (v : ℚ) : ℚ := if v < 0 then -roundTo (-v) else roundTo v

theorem rounded_of_nonneg {v : ℚ} (hv : 0 ≤ v) : rounded v = roundTo v := if_neg (not_lt.mpr hv)

theorem rounded_neg (v : ℚ) : rounded (-v) = -rounded v := by
  unfold rounded
  rcases lt_trichotomy v 0 with hneg | rfl | hpos
  · rw [if_neg (by linarith), if_pos hneg, neg_neg]
  · simp [roundTo_zero]
  · rw [if_pos (by linarith), if_neg (by linarith), neg_neg]

theorem rounded_nonneg {v : ℚ} (hv : 0 ≤ v) : 0 ≤ rounded v := by
  rw [rounded_of_nonneg hv]
  exact roundTo_nonneg hv

theorem rounded_mono {v w : ℚ} (h : v ≤ w) : rounded v ≤ rounded w := by
  rcases lt_or_ge v 0 with hneg | hv
  · rcases lt_or_ge w 0 with hneg' | hw
    · have hmono : roundTo (-w) ≤ roundTo (-v) := roundTo_mono (by linarith) (by linarith)
      rw [rounded, rounded, if_pos hneg, if_pos hneg']
      linarith
    · have hpos : 0 ≤ roundTo (-v) := roundTo_nonneg (by linarith)
      have hnonneg := rounded_nonneg hw
      rw [rounded, if_pos hneg]
      linarith
  · rw [rounded_of_nonneg hv, rounded_of_nonneg (le_trans hv h)]
    exact roundTo_mono hv h

/-- The number with a sign and a value that is not negative. -/
theorem rounded_sign (neg : Bool) {v : ℚ} (hv : 0 ≤ v) :
    rounded ((if neg then -1 else 1) * v) = (if neg then -1 else 1) * roundTo v := by
  cases neg with
  | false => simp [rounded_of_nonneg hv]
  | true =>
    have hround := rounded_neg v
    rw [rounded_of_nonneg hv] at hround
    simpa using hround

theorem rounded_of_digits {neg : Bool} {m : ℕ} {j : ℤ} (hm : m < 10 ^ 28) :
    rounded ((if neg then -1 else 1) * (m * 10 ^ j)) = (if neg then -1 else 1) * (m * 10 ^ j) := by
  rw [rounded_sign neg (by positivity), roundTo_of_digits hm]

/-! ## The operations -/

/-- Rounding a coefficient is rounding its number. -/
theorem roundCoeff_value {coeff : ℕ} (hcoeff : coeff ≠ 0) (exp : ℤ) :
    ((roundCoeff coeff exp).1 : ℚ) * 10 ^ (roundCoeff coeff exp).2 = roundTo (coeff * 10 ^ exp) := by
  by_cases hfits : coeff < 10 ^ 28
  · rw [roundCoeff_of_lt (by exact hfits), roundTo_of_digits hfits]
  · obtain ⟨k, hk⟩ : ∃ k, k = numDigits coeff - prec := ⟨_, rfl⟩
    have hprec : prec = 28 := rfl
    have hmany : ¬ numDigits coeff ≤ 28 := fun hle => hfits ((numDigits_le_iff (by decide)).mp hle)
    have hdigits : numDigits coeff = 28 + k := by omega
    have hlow : 10 ^ (27 + k) ≤ coeff := by
      rw [← not_lt, ← numDigits_le_iff (by omega)]
      omega
    have hhigh : coeff < 10 ^ (28 + k) := (numDigits_le_iff (by omega)).mp hdigits.le
    have hpos : (0 : ℚ) < coeff := by exact_mod_cast Nat.pos_of_ne_zero hcoeff
    have hv : (0 : ℚ) < coeff * 10 ^ exp := by positivity
    -- so the last digit is that of the digits that are dropped
    have hlast : lastDigit (coeff * 10 ^ exp) = exp + k := by
      have hfrom : ((27 + k : ℕ) : ℤ) + exp ≤ Int.log 10 ((coeff : ℚ) * 10 ^ exp) := by
        rw [← Int.zpow_le_iff_le_log (by norm_num) hv]
        push_cast
        rw [zpow_add₀ (by norm_num)]
        refine mul_le_mul_of_nonneg_right ?_ (by positivity)
        exact_mod_cast hlow
      have hto : Int.log 10 ((coeff : ℚ) * 10 ^ exp) < ((28 + k : ℕ) : ℤ) + exp := by
        rw [← Int.lt_zpow_iff_log_lt (by norm_num) hv]
        push_cast
        rw [zpow_add₀ (by norm_num)]
        refine mul_lt_mul_of_pos_right ?_ (by positivity)
        exact_mod_cast hhigh
      unfold lastDigit
      push_cast at hfrom hto
      omega
    have hscaled : (coeff : ℚ) * 10 ^ exp / 10 ^ (exp + (k : ℤ)) = coeff / (10 ^ k : ℕ) := by
      rw [zpow_add₀ (by norm_num), mul_div_mul_comm, mul_comm]
      push_cast
      rw [zpow_natCast]
      field_simp
    have hround : ((roundDiv coeff (10 ^ k) : ℕ) : ℤ) = roundEven (coeff / (10 ^ k : ℕ)) :=
      roundDiv_eq_roundEven (Nat.pow_pos (by omega))
    have hvalue : roundTo (coeff * 10 ^ exp) = roundDiv coeff (10 ^ k) * 10 ^ (exp + (k : ℤ)) := by
      rw [roundTo, hlast, hscaled, ← hround]
      push_cast
      rfl
    rw [hvalue]
    unfold roundCoeff
    rw [← hk]
    dsimp only
    split
    · rfl
    · next hcarry =>
      -- the rounded coefficient is a power of ten
      have hle : roundDiv coeff (10 ^ k) ≤ 10 ^ 28 := by
        refine roundDiv_le (Nat.pow_pos (by omega)) ?_
        rw [← Nat.pow_add]
        exact hhigh.le
      have hge : 10 ^ 28 ≤ roundDiv coeff (10 ^ k) := by
        by_contra hlt
        exact hcarry ((numDigits_le_iff (by decide)).mpr (not_le.mp hlt))
      have heq : roundDiv coeff (10 ^ k) = 10 ^ 28 := le_antisymm hle hge
      rw [heq, zpow_add_one₀ (by norm_num)]
      norm_num
      ring

/-- What a result rounded to the precision stands for. -/
theorem mulFinite_value {neg : Bool} {coeff : ℕ} {exp : ℤ} {d : Dec}
    (h : mulFinite neg coeff exp = .ok d) :
    d.toRat = some ((if neg then -1 else 1) * roundTo (coeff * 10 ^ exp)) := by
  unfold mulFinite at h
  split at h
  · next hzero =>
    cases h
    simp [toRat, hzero, roundTo_zero]
  · next hcoeff =>
    dsimp only at h
    split at h
    · cases h
    · cases h
      rw [toRat, mul_assoc, roundCoeff_value hcoeff]

/-- The first digit of a coefficient. -/
theorem pow_numDigits_le {n : ℕ} (hn : n ≠ 0) : 10 ^ (numDigits n - 1) ≤ n := by
  by_contra hlt
  rcases Nat.eq_zero_or_pos (numDigits n - 1) with hone | hmore
  · rw [hone] at hlt
    omega
  · have hle := (numDigits_le_iff hmore).mpr (not_le.mp hlt)
    omega

/-- A result below a power of ten within the exponents does not overflow. -/
theorem mulFinite_of_lt_pow {neg : Bool} {coeff : ℕ} {exp k : ℤ}
    (hlt : (coeff : ℚ) * 10 ^ exp < 10 ^ k) (hk : k ≤ emax) :
    ∃ d, mulFinite neg coeff exp = .ok d := by
  unfold mulFinite
  split
  · exact ⟨_, rfl⟩
  · next hcoeff =>
    have hv : (0 : ℚ) < coeff * 10 ^ exp := by
      have hpos : (0 : ℚ) < coeff := by exact_mod_cast Nat.pos_of_ne_zero hcoeff
      positivity
    have hvalue := roundCoeff_value hcoeff exp
    obtain ⟨r, hr⟩ : ∃ r, r = roundCoeff coeff exp := ⟨_, rfl⟩
    rw [← hr] at hvalue
    have hnonzero : r.1 ≠ 0 := by
      intro hzero
      rw [hzero, Nat.cast_zero, zero_mul] at hvalue
      exact (roundTo_pos hv).ne hvalue
    have hdigits : 0 < numDigits r.1 := Nat.length_toDigits_pos
    -- the place of the first digit, which is what overflows
    have hlead : ((10 : ℚ) ^ (r.2 + numDigits r.1 - 1)) ≤ 10 ^ k := by
      calc (10 : ℚ) ^ (r.2 + numDigits r.1 - 1)
          = (10 ^ (numDigits r.1 - 1) : ℕ) * 10 ^ r.2 := by
            rw [Nat.cast_pow, ← zpow_natCast, Nat.cast_ofNat, ← zpow_add₀ (by norm_num)]
            congr 1
            omega
        _ ≤ r.1 * 10 ^ r.2 := by
            have hle : ((10 ^ (numDigits r.1 - 1) : ℕ) : ℚ) ≤ r.1 := by
              exact_mod_cast pow_numDigits_le hnonzero
            gcongr
        _ = roundTo (coeff * 10 ^ exp) := hvalue
        _ ≤ 10 ^ (Int.log 10 ((coeff : ℚ) * 10 ^ exp) + 1) := (roundTo_decade hv).2
        _ ≤ 10 ^ k := by
            have hlog : Int.log 10 ((coeff : ℚ) * 10 ^ exp) < k :=
              (Int.lt_zpow_iff_log_lt (by norm_num) hv).mp (by exact_mod_cast hlt)
            exact zpow_le_zpow_right₀ (by norm_num) hlog
    have hexp : r.2 + numDigits r.1 - 1 ≤ k := (zpow_le_zpow_iff_right₀ (by norm_num)).mp hlead
    refine ⟨.finite neg r.1 r.2, ?_⟩
    dsimp only
    rw [← hr, if_neg (by omega)]

/-! ## Columns -/

/-- Rounding to units leaves out less than one unit. -/
theorem lt_unitsAt (places coeff : ℕ) (exp : ℤ) :
    (coeff : ℚ) * 10 ^ exp < (unitsAt places coeff exp + 1) / 10 ^ places := by
  have hpos : (0 : ℚ) < 10 ^ places := by positivity
  rw [lt_div_iff₀ hpos, mul_assoc, ← zpow_natCast, ← zpow_add₀ (by norm_num)]
  unfold unitsAt
  split
  · next hexp =>
    obtain ⟨k, hk⟩ := Int.eq_ofNat_of_zero_le hexp
    rw [hk, zpow_natCast, Int.toNat_natCast]
    push_cast
    linarith
  · next hexp =>
    obtain ⟨k, hk⟩ := Int.eq_ofNat_of_zero_le (by omega : (0 : ℤ) ≤ -(exp + places))
    have hneg : exp + places = -(k : ℤ) := by omega
    rw [hneg, zpow_neg, zpow_natCast, ← div_eq_mul_inv, div_lt_iff₀ (by positivity), neg_neg,
      Int.toNat_natCast]
    have hdiv : 10 ^ k * (coeff / 10 ^ k) + coeff % 10 ^ k = coeff := Nat.div_add_mod _ _
    have hrest : coeff % 10 ^ k < 10 ^ k := Nat.mod_lt _ (by positivity)
    have hround : coeff / 10 ^ k ≤ roundDiv coeff (10 ^ k) := by
      unfold roundDiv
      split_ifs <;> omega
    have hnat : coeff < (roundDiv coeff (10 ^ k) + 1) * 10 ^ k := by
      have hstep : (coeff / 10 ^ k + 1) * 10 ^ k ≤ (roundDiv coeff (10 ^ k) + 1) * 10 ^ k := by
        gcongr
      rw [Nat.add_mul, Nat.mul_comm (coeff / 10 ^ k)] at hstep
      omega
    exact_mod_cast hnat

/-- What fits a column is below the power of ten of its digits. -/
theorem lt_of_toColumn {digits places : ℕ} (hdigits : 0 < digits) {neg : Bool} {coeff : ℕ} {exp : ℤ}
    {r : ℚ} (hr : (finite neg coeff exp).toColumn digits places = some r) :
    (coeff : ℚ) * 10 ^ exp < 10 ^ digits := by
  simp only [toColumn] at hr
  split at hr
  · cases hr
  · next hfits =>
    have hunits : unitsAt places coeff exp + 1 ≤ 10 ^ digits :=
      (numDigits_le_iff hdigits).mp (not_lt.mp hfits)
    have hcast : (unitsAt places coeff exp + 1 : ℚ) ≤ 10 ^ digits := by exact_mod_cast hunits
    refine lt_of_lt_of_le (lt_unitsAt places coeff exp) ?_
    refine le_trans (div_le_self (by positivity) ?_) hcast
    exact one_le_pow₀ (by norm_num)

/-- A number is at most one that fits a column, its sign apart, and fits it. -/
theorem toColumn_isSome {digits places m coeff : ℕ} {neg : Bool} {exp : ℤ} (hdigits : 0 < digits)
    (hm : m < 10 ^ digits) (hle : (coeff : ℚ) * 10 ^ exp ≤ m / 10 ^ places) :
    ((finite neg coeff exp).toColumn digits places).isSome = true := by
  have hunits : unitsAt places coeff exp < 10 ^ digits := (unitsAt_le hle).trans_lt hm
  have hfits : ¬ digits < numDigits (unitsAt places coeff exp) :=
    not_lt.mpr ((numDigits_le_iff hdigits).mpr hunits)
  simp [toColumn, hfits]

theorem mul_value {x y z : Dec} {p q : ℚ} (hx : x.toRat = some p) (hy : y.toRat = some q)
    (h : mul x y = .ok z) : z.toRat = some (rounded (p * q)) := by
  cases x with
  | finite n c e =>
    cases y with
    | finite m d f =>
      have hvalue := mulFinite_value (show mulFinite (n != m) (c * d) (e + f) = .ok z from h)
      rw [hvalue, ← Option.some.inj hx, ← Option.some.inj hy, ← rounded_sign _ (by positivity)]
      congr 2
      rw [zpow_add₀ (by norm_num)]
      push_cast
      cases n <;> cases m <;> simp <;> ring
    | _ => cases hy
  | _ => cases hx

/-- A difference is rounded as the integer that is left when the exponents are made equal. -/
theorem sub_eq_mulFinite {x y : Dec} {p q : ℚ} (hx : x.toRat = some p) (hy : y.toRat = some q) :
    ∃ a exp : ℤ, sub x y = mulFinite (decide (a < 0)) a.natAbs exp ∧ p - q = a * 10 ^ exp := by
  cases x with
  | finite n c e =>
    cases y with
    | finite m d f =>
      let exp := min e f
      let a : ℤ := (if n then -1 else 1) * c * 10 ^ (e - exp).toNat
      let b : ℤ := (if m then -1 else 1) * d * 10 ^ (f - exp).toNat
      have hscale : ∀ g : ℤ, exp ≤ g → (10 : ℚ) ^ g = (10 : ℚ) ^ (g - exp).toNat * 10 ^ exp := by
        intro g hg
        obtain ⟨j, hj⟩ := Int.eq_ofNat_of_zero_le (by omega : 0 ≤ g - exp)
        rw [hj, Int.toNat_natCast, ← zpow_natCast, ← zpow_add₀ (by norm_num), ← hj]
        congr 1
        ring
      refine ⟨a - b, exp, ?_, ?_⟩
      · have hsign : decide (a < b) = decide (a - b < 0) := decide_eq_decide.mpr (by omega)
        rw [← hsign]
        rfl
      · rw [← Option.some.inj hx, ← Option.some.inj hy, hscale e (min_le_left _ _),
          hscale f (min_le_right _ _)]
        push_cast [a, b]
        cases n <;> cases m <;> simp <;> ring
    | _ => cases hy
  | _ => cases hx

theorem sub_value {x y z : Dec} {p q : ℚ} (hx : x.toRat = some p) (hy : y.toRat = some q)
    (h : sub x y = .ok z) : z.toRat = some (rounded (p - q)) := by
  obtain ⟨a, exp, hsub, hdiff⟩ := sub_eq_mulFinite hx hy
  rw [hsub] at h
  rw [mulFinite_value h, ← rounded_sign _ (by positivity), hdiff]
  congr 2
  rw [← mul_assoc]
  congr 1
  by_cases hneg : a < 0
  · have habs : (a.natAbs : ℤ) = -a := by omega
    have hcast : (a.natAbs : ℚ) = (-a : ℤ) := by rw [← Int.cast_natCast, habs]
    rw [hcast]
    simp [hneg]
  · have habs : (a.natAbs : ℤ) = a := by omega
    have hcast : (a.natAbs : ℚ) = (a : ℤ) := by rw [← Int.cast_natCast, habs]
    rw [hcast]
    simp [hneg]

/-- What is below a power of ten within the exponents does not overflow. -/
theorem sub_ok {x y : Dec} {p q : ℚ} {k : ℤ} (hx : x.toRat = some p) (hy : y.toRat = some q)
    (hlt : |p - q| < 10 ^ k) (hk : k ≤ emax) : ∃ z, sub x y = .ok z := by
  obtain ⟨a, exp, hsub, hdiff⟩ := sub_eq_mulFinite hx hy
  rw [hsub]
  refine mulFinite_of_lt_pow ?_ hk
  have hpos : (0 : ℚ) ≤ 10 ^ exp := by positivity
  rwa [hdiff, abs_mul, abs_of_nonneg hpos, ← Int.cast_abs, ← Nat.cast_natAbs] at hlt

theorem mul_ok {x y : Dec} {p q : ℚ} {k : ℤ} (hx : x.toRat = some p) (hy : y.toRat = some q)
    (hlt : |p * q| < 10 ^ k) (hk : k ≤ emax) : ∃ z, mul x y = .ok z := by
  cases x with
  | finite n c e =>
    cases y with
    | finite m d f =>
      refine mulFinite_of_lt_pow ?_ hk
      have hsize : |p * q| = ((c * d : ℕ) : ℚ) * 10 ^ (e + f) := by
        have hnonneg : (0 : ℚ) ≤ ((c * d : ℕ) : ℚ) * 10 ^ (e + f) := by positivity
        rw [← abs_of_nonneg hnonneg, ← Option.some.inj hx, ← Option.some.inj hy,
          zpow_add₀ (by norm_num)]
        push_cast
        cases n <;> cases m <;> simp [abs_mul, mul_comm, mul_left_comm, mul_assoc]
      rwa [hsize] at hlt
    | _ => cases hy
  | _ => cases hx

/-- What is rounded once is not rounded again. -/
theorem roundTo_roundTo {v : ℚ} (hv : 0 ≤ v) : roundTo (roundTo v) = roundTo v := by
  rcases hv.eq_or_lt with rfl | hpos
  · rw [roundTo_zero, roundTo_zero]
  · obtain ⟨hlow, hhigh⟩ := scaled_bounds hpos
    obtain ⟨m, hm⟩ : ∃ m, m = roundEven (v / 10 ^ lastDigit v) := ⟨_, rfl⟩
    have hfrom : (10 : ℤ) ^ 27 ≤ m := by
      rw [hm, ← roundEven_intCast (10 ^ 27)]
      exact roundEven_mono (by exact_mod_cast hlow)
    have hto : m ≤ (10 : ℤ) ^ 28 := by
      rw [hm, ← roundEven_intCast (10 ^ 28)]
      exact roundEven_mono (by exact_mod_cast hhigh.le)
    have hvalue : roundTo v = m * 10 ^ lastDigit v := by rw [roundTo, hm]
    rw [hvalue]
    rcases hto.lt_or_eq with hfits | hcarry
    · obtain ⟨j, hj⟩ := Int.eq_ofNat_of_zero_le (by omega : 0 ≤ m)
      rw [hj, Int.cast_natCast]
      exact roundTo_of_digits (by omega)
    · -- the carry is a power of ten
      have hten : (m : ℚ) * 10 ^ lastDigit v = ((10 ^ 27 : ℕ) : ℚ) * 10 ^ (lastDigit v + 1) := by
        rw [hcarry, zpow_add_one₀ (by norm_num)]
        push_cast
        ring
      rw [hten]
      exact roundTo_of_digits (by norm_num)

/-! ## Division -/

/-- The signals of a division. -/
inductive DivSignal where
  | divisionByZero
  | signal (s : Signal)
deriving DecidableEq

/-- The quotient of two numbers. A finite one is the nearest number; where fewer digits would do,
it is the same number with zeros at its end. -/
def div : Dec → Dec → Except DivSignal Dec
  | .snan, _ => .error (.signal .invalidOperation)
  | _, .snan => .error (.signal .invalidOperation)
  | .nan, _ => .ok .nan
  | _, .nan => .ok .nan
  | .inf _, .inf _ => .error (.signal .invalidOperation)
  | .inf n, .finite m _ _ => .ok (.inf (n != m))
  | .finite n _ _, .inf m => .ok (.finite (n != m) 0 0)
  | .finite n c e, .finite m d f =>
    if d = 0 then .error (if c = 0 then .signal .invalidOperation else .divisionByZero)
    else if c = 0 then .ok (.finite (n != m) 0 (e - f))
    else
      let v : ℚ := c / d * 10 ^ (e - f)
      let coeff := (roundEven (v / 10 ^ lastDigit v)).toNat
      if emax < lastDigit v + numDigits coeff - 1 then .error (.signal .overflow)
      else .ok (.finite (n != m) coeff (lastDigit v))

theorem div_value {x y z : Dec} {p q : ℚ} (hx : x.toRat = some p) (hy : y.toRat = some q)
    (h : div x y = .ok z) : z.toRat = some (rounded (p / q)) := by
  cases x with
  | finite n c e =>
    cases y with
    | finite m d f =>
      simp only [div] at h
      split at h
      · cases h
      · next hd =>
        have hquotient : p / q = (if n != m then -1 else 1) * (c / d * 10 ^ (e - f)) := by
          rw [← Option.some.inj hx, ← Option.some.inj hy, zpow_sub₀ (by norm_num)]
          have hpos : (d : ℚ) ≠ 0 := by exact_mod_cast hd
          cases n <;> cases m <;> simp <;> field_simp
        rw [hquotient, rounded_sign _ (by positivity)]
        split at h
        · next hc =>
          cases h
          simp [toRat, hc, roundTo_zero]
        · next hc =>
          split at h
          · cases h
          · cases h
            have hv : (0 : ℚ) < c / d * 10 ^ (e - f) := by
              have hcpos : (0 : ℚ) < c := by exact_mod_cast Nat.pos_of_ne_zero hc
              have hdpos : (0 : ℚ) < d := by exact_mod_cast Nat.pos_of_ne_zero hd
              positivity
            have hnonneg : 0 ≤ roundEven ((c : ℚ) / d * 10 ^ (e - f) /
                10 ^ lastDigit (c / d * 10 ^ (e - f))) := by
              rw [← roundEven_intCast 0]
              refine roundEven_mono ?_
              push_cast
              positivity
            rw [toRat, roundTo, mul_assoc, ← Int.cast_natCast, Int.toNat_of_nonneg hnonneg]
    | _ => cases hy
  | _ => cases hx

end Dec

end AlgoBot.Core
