import Mathlib.Algebra.Order.Field.Power
import Mathlib.Data.Rat.Cast.Order
import Mathlib.Tactic.Linarith
import Mathlib.Tactic.Ring
import Mathlib.Tactic.Positivity

/-!
# Decimal floating point

The part of decimal arithmetic that turning an amount into an integer number of
minor units needs: reading a numeric string, multiplying in a context of fixed
precision, and rounding to an integer, all with ties going to the even
neighbour. An operation that raises a trapped signal is an `Except`.

A number is exact: sign, coefficient and exponent. A result too small for the
exponent range keeps its digits here; the signals that would report it are not
trapped, and it rounds to the integer zero either way.
-/

namespace AlgoBot.Core

/-- A decimal number. -/
inductive Dec where
  | finite (neg : Bool) (coeff : ℕ) (exp : ℤ)
  | inf (neg : Bool)
  | nan
  | snan
deriving DecidableEq, Repr

namespace Dec

/-- The trapped signals. -/
inductive Signal where
  | invalidOperation
  | overflow
deriving DecidableEq, Repr

/-- Precision of the context. -/
def prec : ℕ := 28

/-- Largest adjusted exponent of the context. -/
def emax : ℤ := 999999

/-- Largest exponent a decimal can be built with. -/
def maxEmax : ℤ := 999999999999999999

/-- Number of decimal digits. -/
def numDigits (n : ℕ) : ℕ := (Nat.toDigits 10 n).length

/-- `n / d` to the nearest integer, ties to even. -/
def roundDiv (n d : ℕ) : ℕ :=
  if 2 * (n % d) < d then n / d
  else if d < 2 * (n % d) then n / d + 1
  else if n / d % 2 = 0 then n / d else n / d + 1

/-- Round a nonzero coefficient to the precision of the context. -/
def roundCoeff (coeff : ℕ) (exp : ℤ) : ℕ × ℤ :=
  let k := numDigits coeff - prec
  let c := roundDiv coeff (10 ^ k)
  -- rounding up can carry into one more digit
  if numDigits c ≤ prec then (c, exp + k) else (c / 10, exp + k + 1)

/-- Product of two finite numbers in the context. -/
def mulFinite (neg : Bool) (coeff : ℕ) (exp : ℤ) : Except Signal Dec :=
  if coeff = 0 then .ok (.finite neg 0 exp)
  else
    let r := roundCoeff coeff exp
    if emax < r.2 + numDigits r.1 - 1 then .error .overflow else .ok (.finite neg r.1 r.2)

/-- Multiply by a positive integer. -/
def mulNat (x : Dec) (n : ℕ) : Except Signal Dec :=
  match x with
  | .finite neg coeff exp => mulFinite neg (coeff * n) exp
  | .inf neg => .ok (.inf neg)
  | .nan => .ok .nan
  | .snan => .error .invalidOperation

/-- The product of two numbers. -/
def mul : Dec → Dec → Except Signal Dec
  | .snan, _ => .error .invalidOperation
  | _, .snan => .error .invalidOperation
  | .nan, _ => .ok .nan
  | _, .nan => .ok .nan
  | .inf n, .inf m => .ok (.inf (n != m))
  | .inf n, .finite m c _ => if c = 0 then .error .invalidOperation else .ok (.inf (n != m))
  | .finite n c _, .inf m => if c = 0 then .error .invalidOperation else .ok (.inf (n != m))
  | .finite n c e, .finite m d f => mulFinite (n != m) (c * d) (e + f)

/-- Round to an integer: `quantize(Decimal("1"))`. -/
def quantizeOne : Dec → Except Signal Dec
  | .finite neg coeff exp =>
    let c := if 0 ≤ exp then coeff * 10 ^ exp.toNat else roundDiv coeff (10 ^ (-exp).toNat)
    if prec < numDigits c then .error .invalidOperation else .ok (.finite neg c 0)
  | .inf _ => .error .invalidOperation
  | .nan => .ok .nan
  | .snan => .error .invalidOperation

/-- A coefficient and an exponent as a number of units of `10 ^ -places`, ties to even. -/
def unitsAt (places coeff : ℕ) (exp : ℤ) : ℕ :=
  if 0 ≤ exp + places then coeff * 10 ^ (exp + places).toNat
  else roundDiv coeff (10 ^ (-(exp + places)).toNat)

/-- Whether a coefficient and an exponent are at most `n`. -/
def atMost (n coeff : ℕ) (exp : ℤ) : Bool :=
  if 0 ≤ exp then coeff * 10 ^ exp.toNat ≤ n else coeff ≤ n * 10 ^ (-exp).toNat

/-- The exact value of a finite number. -/
def toRat : Dec → Option ℚ
  | .finite neg coeff exp => some ((if neg then -1 else 1) * coeff * (10 : ℚ) ^ exp)
  | _ => none

/-- Whether a number is greater than a finite one; a NaN cannot be ordered. -/
def exceeds (x : Dec) (q : ℚ) : Except Signal Bool :=
  match x with
  | .finite neg coeff exp => .ok (q < (if neg then -1 else 1) * coeff * (10 : ℚ) ^ exp)
  | .inf neg => .ok !neg
  | .nan => .error .invalidOperation
  | .snan => .error .invalidOperation

/-- Whether two numbers differ. A quiet NaN differs from everything. -/
def ne : Dec → Dec → Except Signal Bool
  | .snan, _ => .error .invalidOperation
  | _, .snan => .error .invalidOperation
  | .finite n c e, .finite m d f => .ok (toRat (.finite n c e) ≠ toRat (.finite m d f))
  | .inf n, .inf m => .ok (n != m)
  | _, _ => .ok true

/-- The difference of two numbers. -/
def sub : Dec → Dec → Except Signal Dec
  | .snan, _ => .error .invalidOperation
  | _, .snan => .error .invalidOperation
  | .nan, _ => .ok .nan
  | _, .nan => .ok .nan
  | .inf n, .inf m => if n = m then .error .invalidOperation else .ok (.inf n)
  | .inf n, .finite _ _ _ => .ok (.inf n)
  | .finite _ _ _, .inf m => .ok (.inf !m)
  | .finite n c e, .finite m d f =>
    let exp := min e f
    let x : ℤ := (if n then -1 else 1) * c * 10 ^ (e - exp).toNat
    let y : ℤ := (if m then -1 else 1) * d * 10 ^ (f - exp).toNat
    -- rounded as a product is
    mulFinite (x < y) (x - y).natAbs exp

/-- Minus the number. -/
def neg : Dec → Dec
  | .finite n c e => .finite (!n) c e
  | .inf n => .inf !n
  | x => x

/-- The sum of two numbers. -/
def add (x y : Dec) : Except Signal Dec := sub x (neg y)

/-- Whether the first number is greater; a NaN cannot be ordered. -/
def gt : Dec → Dec → Except Signal Bool
  | .snan, _ => .error .invalidOperation
  | _, .snan => .error .invalidOperation
  | .nan, _ => .error .invalidOperation
  | _, .nan => .error .invalidOperation
  | .inf n, .inf m => .ok (!n && m)
  | .inf n, .finite _ _ _ => .ok !n
  | .finite _ _ _, .inf m => .ok m
  | .finite n c e, .finite m d f =>
    .ok ((if m then -1 else 1) * d * (10 : ℚ) ^ f < (if n then -1 else 1) * c * (10 : ℚ) ^ e)

/-- A power with a natural exponent, to the nearest. -/
def pow : Dec → ℕ → Except Signal Dec
  | .snan, _ => .error .invalidOperation
  | .finite _ c _, 0 => if c = 0 then .error .invalidOperation else .ok (.finite false 1 0)
  | _, 0 => .ok (.finite false 1 0)
  | .nan, _ => .ok .nan
  | .inf n, k => .ok (.inf (n && k % 2 == 1))
  | .finite n c e, k => mulFinite (n && k % 2 == 1) (c ^ k) (e * k)

/-- What a database column of so many digits and decimals keeps of a number; `none` where it has
no room. -/
def toColumn (digits places : ℕ) : Dec → Option ℚ
  | .finite neg coeff exp =>
    let units := unitsAt places coeff exp
    if digits < numDigits units then none else some ((if neg then -1 else 1) * units / 10 ^ places)
  | _ => none

/-! ## Reading a numeric string -/

/-- Split off the leading decimal digits. -/
def takeDigits : List Char → List ℕ × List Char
  | [] => ([], [])
  | c :: cs =>
    if c.isDigit then ((c.toNat - 48) :: (takeDigits cs).1, (takeDigits cs).2) else ([], c :: cs)

/-- Value of a digit string. -/
def ofDigits (ds : List ℕ) : ℕ := ds.foldl (fun acc d => 10 * acc + d) 0

/-- An optional sign; `true` for minus. -/
def takeSign : List Char → Bool × List Char
  | '-' :: cs => (true, cs)
  | '+' :: cs => (false, cs)
  | cs => (false, cs)

/-- The exponent part: nothing, or `e` with an integer. -/
def readExponent : List Char → Option ℤ
  | [] => some 0
  | c :: cs =>
    if c.toLower = 'e' then
      let (neg, cs) := takeSign cs
      match takeDigits cs with
      | ([], _) => none
      | (ds, []) => some (if neg then -(ofDigits ds : ℤ) else ofDigits ds)
      | (_, _ :: _) => none
    else none

/-- Digits, an optional fraction and an optional exponent. -/
def readFinite (neg : Bool) (cs : List Char) : Option Dec :=
  let (whole, rest) := takeDigits cs
  let (frac, rest) := match rest with
    | '.' :: rest => takeDigits rest
    | rest => ([], rest)
  if whole = [] ∧ frac = [] then none
  else
    match readExponent rest with
    | none => none
    | some e =>
      let exp := e - frac.length
      if maxEmax < exp + (whole ++ frac).length - 1 ∨ exp < -(2 * maxEmax) then none
      else some (.finite neg (ofDigits (whole ++ frac)) exp)

/-- A numeric string: a finite number, an infinity or a NaN with optional digits. -/
def ofChars (cs : List Char) : Option Dec :=
  let (neg, body) := takeSign cs
  let low := body.map Char.toLower
  if low = "inf".toList ∨ low = "infinity".toList then some (.inf neg)
  else if low.take 3 = "nan".toList ∧ (low.drop 3).all Char.isDigit then some .nan
  else if low.take 4 = "snan".toList ∧ (low.drop 4).all Char.isDigit then some .snan
  else readFinite neg body

/-! ## Rounding bounds -/

theorem roundDiv_le {n d k : ℕ} (hd : 0 < d) (h : n ≤ k * d) : roundDiv n d ≤ k := by
  have hdiv : d * (n / d) + n % d = n := Nat.div_add_mod n d
  have hq : n / d ≤ k := Nat.div_le_of_le_mul (by rwa [Nat.mul_comm] at h)
  by_cases hk : n / d = k
  · -- the quotient already reaches the bound, so nothing is left to round up
    have hr : n % d = 0 := by
      rw [hk, Nat.mul_comm] at hdiv
      omega
    simp [roundDiv, hr, hd, hk]
  · have hlt : n / d + 1 ≤ k := by omega
    unfold roundDiv
    split_ifs <;> omega

/-- Rounding to units keeps a bound that is a number of units. -/
theorem unitsAt_le {places coeff m : ℕ} {exp : ℤ}
    (h : (coeff : ℚ) * 10 ^ exp ≤ m / 10 ^ places) : unitsAt places coeff exp ≤ m := by
  have hpos : (0 : ℚ) < 10 ^ places := by positivity
  have hscaled : (coeff : ℚ) * (10 : ℚ) ^ (exp + places) ≤ m := by
    rw [zpow_add₀ (by norm_num), zpow_natCast, ← mul_assoc]
    exact (le_div_iff₀ hpos).mp h
  unfold unitsAt
  split
  · next hexp =>
    obtain ⟨k, hk⟩ := Int.eq_ofNat_of_zero_le hexp
    rw [hk, zpow_natCast] at hscaled
    rw [hk, Int.toNat_natCast]
    exact_mod_cast hscaled
  · next hexp =>
    obtain ⟨k, hk⟩ := Int.eq_ofNat_of_zero_le (by omega : (0 : ℤ) ≤ -(exp + places))
    have hneg : exp + places = -(k : ℤ) := by omega
    rw [hneg, zpow_neg, zpow_natCast, ← div_eq_mul_inv, div_le_iff₀ (by positivity)] at hscaled
    rw [hk, Int.toNat_natCast]
    exact roundDiv_le (Nat.pow_pos (by omega)) (by exact_mod_cast hscaled)

/-- A column keeps a bound with as many decimals that is not negative. -/
theorem toColumn_le {digits places m : ℕ} {x : Dec} {r : ℚ}
    (hx : x.exceeds (m / 10 ^ places) = .ok false) (hr : x.toColumn digits places = some r) :
    r ≤ m / 10 ^ places := by
  have hpos : (0 : ℚ) < 10 ^ places := by positivity
  cases x with
  | finite neg coeff exp =>
    simp only [exceeds, Except.ok.injEq, decide_eq_false_iff_not, not_lt] at hx
    simp only [toColumn] at hr
    split at hr
    · cases hr
    · cases hr
      cases neg with
      | true =>
        have hunits : (0 : ℚ) ≤ unitsAt places coeff exp := by positivity
        have hm : (0 : ℚ) ≤ m := by positivity
        rw [div_le_div_iff_of_pos_right hpos]
        simp only [if_true]
        linarith
      | false =>
        have hvalue : (coeff : ℚ) * 10 ^ exp ≤ m / 10 ^ places := by simpa using hx
        have hunits : (unitsAt places coeff exp : ℚ) ≤ m := by exact_mod_cast unitsAt_le hvalue
        rw [div_le_div_iff_of_pos_right hpos]
        simpa using hunits
  | inf neg => cases hr
  | nan => cases hr
  | snan => cases hr

theorem numDigits_le_iff {n k : ℕ} (hk : 0 < k) : numDigits n ≤ k ↔ n < 10 ^ k :=
  Nat.length_toDigits_le_iff (by omega) hk

/-- Finite numbers are compared as they are. -/
theorem gt_of_toRat {x y : Dec} {p q : ℚ} (hx : x.toRat = some p) (hy : y.toRat = some q) :
    gt x y = .ok (decide (q < p)) := by
  cases x with
  | finite n c e =>
    cases y with
    | finite m d f =>
      rw [← Option.some.inj hx, ← Option.some.inj hy]
      rfl
    | _ => cases hy
  | _ => cases hx

/-- What fits into the precision is not rounded. -/
theorem roundCoeff_of_lt {coeff : ℕ} {exp : ℤ} (hfits : coeff < 10 ^ prec) :
    roundCoeff coeff exp = (coeff, exp) := by
  have hdigits : numDigits coeff ≤ prec := (numDigits_le_iff (by decide)).mpr hfits
  unfold roundCoeff
  have hdrop : numDigits coeff - prec = 0 := Nat.sub_eq_zero_of_le hdigits
  have hsame : roundDiv coeff (10 ^ 0) = coeff := by simp [roundDiv, Nat.mod_one]
  rw [hdrop]
  dsimp only
  rw [hsame, if_pos hdigits]
  simp

/-- A number that fits and has no positive exponent is returned as it is. -/
theorem mulFinite_of_lt {n : Bool} {coeff : ℕ} {exp : ℤ} (hfits : coeff < 10 ^ prec)
    (hexp : exp ≤ 0) : mulFinite n coeff exp = .ok (.finite n coeff exp) := by
  unfold mulFinite
  split
  · next hzero => rw [hzero]
  · have hdigits : numDigits coeff ≤ prec := (numDigits_le_iff (by decide)).mpr hfits
    have hsmall : ¬ emax < exp + numDigits coeff - 1 := by
      have hcast : (numDigits coeff : ℤ) ≤ 28 := by exact_mod_cast hdigits
      unfold emax
      omega
    rw [roundCoeff_of_lt hfits]
    exact if_neg hsmall

/-- Rounding to the precision keeps the number at most one. -/
theorem roundCoeff_le_one {c m : ℕ} (h : c ≤ 10 ^ m) :
    ∃ m' : ℕ, (roundCoeff c (-m)).2 = -(m' : ℤ) ∧ (roundCoeff c (-m)).1 ≤ 10 ^ m' := by
  have hdig : numDigits c ≤ m + 1 := by
    rw [numDigits_le_iff (Nat.succ_pos m), Nat.pow_succ]
    have hpos : 0 < 10 ^ m := Nat.pow_pos (by omega)
    omega
  have hk : numDigits c - prec ≤ m := by
    unfold prec
    omega
  obtain ⟨j, hj⟩ := Nat.exists_eq_add_of_le hk
  have hround : roundDiv c (10 ^ (numDigits c - prec)) ≤ 10 ^ j := by
    refine roundDiv_le (Nat.pow_pos (by omega)) ?_
    calc c ≤ 10 ^ m := h
      _ = 10 ^ j * 10 ^ (numDigits c - prec) := by rw [← Nat.pow_add, Nat.add_comm, ← hj]
  simp only [roundCoeff]
  split_ifs with hcarry
  · exact ⟨j, by push_cast [hj]; ring, hround⟩
  · -- the carry needs more digits than the precision, so there is an exponent left to raise
    have hj0 : j ≠ 0 := by
      rintro rfl
      refine hcarry ((numDigits_le_iff (by decide)).mpr ?_)
      calc roundDiv c (10 ^ (numDigits c - prec)) ≤ 10 ^ 0 := hround
        _ < 10 ^ prec := Nat.pow_lt_pow_right (by omega) (by decide)
    obtain ⟨i, rfl⟩ := Nat.exists_eq_succ_of_ne_zero hj0
    refine ⟨i, by push_cast [hj]; ring, ?_⟩
    rw [Nat.pow_succ] at hround
    omega

/-- A number at most one rounds to zero or one. -/
theorem quantizeOne_le_one {neg : Bool} {c m : ℕ} {d : Dec} (h : c ≤ 10 ^ m)
    (hq : quantizeOne (.finite neg c (-m)) = .ok d) : ∃ r ≤ 1, d = .finite neg r 0 := by
  simp only [quantizeOne] at hq
  by_cases hm : (0 : ℤ) ≤ -(m : ℤ)
  · obtain rfl : m = 0 := by omega
    have hc : c ≤ 1 := by simpa using h
    split_ifs at hq
    cases hq
    exact ⟨c, hc, by simp⟩
  · have hr : roundDiv c (10 ^ m) ≤ 1 := roundDiv_le (Nat.pow_pos (by omega)) (by simpa using h)
    rw [if_neg hm] at hq
    split_ifs at hq
    cases hq
    exact ⟨roundDiv c (10 ^ m), hr, by simp⟩

/-- `n` times a number of value at most `1 / n` rounds to zero or one. -/
theorem quantizeOne_mulNat_le_one {neg : Bool} {c n : ℕ} {e : ℤ} {d r : Dec}
    (h : (c * n : ℚ) * (10 : ℚ) ^ e ≤ 1) (hm : mulNat (.finite neg c e) n = .ok d)
    (hq : quantizeOne d = .ok r) : ∃ k ≤ 1, r = .finite neg k 0 := by
  by_cases hc : c * n = 0
  · obtain rfl : d = .finite neg 0 e := by
      simpa [mulNat, mulFinite, hc] using hm.symm
    have hz : roundDiv 0 (10 ^ (-e).toNat) = 0 :=
      Nat.le_zero.mp (roundDiv_le (Nat.pow_pos (by omega)) (by simp))
    refine ⟨0, by omega, ?_⟩
    have hdig : ¬ prec < numDigits 0 := by decide
    simpa [quantizeOne, hz, hdig] using hq.symm
  · -- a nonzero coefficient forces a nonpositive exponent
    have hone : (1 : ℚ) ≤ c * n := by exact_mod_cast Nat.one_le_iff_ne_zero.mpr hc
    have he : e ≤ 0 := by
      by_contra hpos
      have h10 : (1 : ℚ) < (10 : ℚ) ^ e := one_lt_zpow₀ (by norm_num) (by omega)
      nlinarith
    obtain ⟨m, rfl⟩ : ∃ m : ℕ, e = -(m : ℤ) := ⟨(-e).toNat, by omega⟩
    have hle : c * n ≤ 10 ^ m := by
      rw [zpow_neg, zpow_natCast, ← div_eq_mul_inv, div_le_one (by positivity)] at h
      exact_mod_cast h
    obtain ⟨m', hexp, hcoeff⟩ := roundCoeff_le_one hle
    obtain rfl : d = .finite neg (roundCoeff (c * n) (-m)).1 (-m') := by
      simp only [mulNat, mulFinite, hc, if_false] at hm
      split_ifs at hm
      cases hm
      rw [hexp]
    exact quantizeOne_le_one hcoeff hq

/-- Multiplying and rounding keep the sign. -/
theorem sign_of_minor {neg sign : Bool} {c n k : ℕ} {e e' : ℤ} {d : Dec}
    (hm : mulNat (.finite neg c e) n = .ok d) (hq : quantizeOne d = .ok (.finite sign k e')) :
    sign = neg := by
  unfold mulNat mulFinite at hm
  by_cases hc : c * n = 0
  · simp only [hc, if_true] at hm
    cases hm
    simp only [quantizeOne] at hq
    split_ifs at hq <;> cases hq <;> rfl
  · simp only [hc, if_false] at hm
    split_ifs at hm
    cases hm
    simp only [quantizeOne] at hq
    split_ifs at hq <;> cases hq <;> rfl

end Dec

end AlgoBot.Core
