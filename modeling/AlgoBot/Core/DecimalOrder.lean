import Mathlib.Order.WithBot
import AlgoBot.Core.Rounding

/-!
# The order of decimals

Decimals that can be compared are the rational numbers with two infinities. The
maximum and the minimum that are built from single comparisons are those of this
order, and the rounded operations keep it.

* `gt_eq_ok_iff`: a comparison succeeds on such numbers, and compares them.
* `ext_maxOf`, `ext_minOf`, `atMost_of_foldlM`: what maxima and minima return.
* `mul_mono`, `div_mono`: a product and a quotient with a number that is not negative.
-/

namespace AlgoBot.Core.Dec

/-- Rational numbers and two infinities. -/
abbrev Ext := WithBot (WithTop ℚ)

/-- The place of a number in the order; a NaN has none. -/
def ext : Dec → Option Ext
  | .finite n c e => some (((if n then -1 else 1) * c * (10 : ℚ) ^ e : ℚ) : WithTop ℚ)
  | .inf false => some ⊤
  | .inf true => some ⊥
  | _ => none

variable {x y z : Dec} {p q : ℚ}

theorem ext_of_toRat (hx : x.toRat = some p) : x.ext = some ((p : WithTop ℚ) : Ext) := by
  cases x with
  | finite n c e => rw [← Option.some.inj hx, ext]
  | _ => cases hx

theorem coe_lt_top (p : ℚ) : ((p : WithTop ℚ) : Ext) < ⊤ :=
  WithBot.coe_lt_coe.mpr (WithTop.coe_lt_top p)

theorem gt_eq_ok_iff {b : Bool} :
    gt x y = .ok b ↔ ∃ p q, x.ext = some p ∧ y.ext = some q ∧ b = decide (q < p) := by
  cases x with
  | finite n c e =>
    cases y with
    | finite m d f => simp [gt, ext, eq_comm]
    | inf m => cases m <;> simp [gt, ext, eq_comm]
    | _ => simp [gt, ext]
  | inf n =>
    cases y with
    | finite m d f =>
      cases n with
      | true => simp [gt, ext, eq_comm]
      | false =>
        have hlt := decide_eq_true (coe_lt_top ((if m then -1 else 1) * d * (10 : ℚ) ^ f))
        constructor
        · intro h
          cases h
          exact ⟨⊤, _, rfl, rfl, hlt.symm⟩
        · rintro ⟨p, q, hp, hq, rfl⟩
          cases hp
          cases hq
          exact congrArg Except.ok hlt.symm
    | inf m => cases n <;> cases m <;> simp [gt, ext, eq_comm]
    | _ => simp [gt, ext]
  | _ => cases y <;> simp [gt, ext]

/-- `max(x, y)`: the first one, unless the second is greater. -/
def maxOf (x y : Dec) : Except Signal Dec := do
  if ← gt y x then return y else return x

/-- `min(x, y)`. -/
def minOf (x y : Dec) : Except Signal Dec := do
  if ← gt x y then return y else return x

theorem ext_maxOf (h : maxOf x y = .ok z) :
    ∃ p q, x.ext = some p ∧ y.ext = some q ∧ z.ext = some (max p q) := by
  unfold maxOf at h
  cases hgt : gt y x with
  | error e =>
    rw [hgt] at h
    cases h
  | ok b =>
    rw [hgt] at h
    obtain ⟨q, p, hy, hx, hb⟩ := gt_eq_ok_iff.mp hgt
    refine ⟨p, q, hx, hy, ?_⟩
    cases b with
    | true =>
      cases h
      rw [hy, max_eq_right (of_decide_eq_true hb.symm).le]
    | false =>
      cases h
      rw [hx, max_eq_left (not_lt.mp (of_decide_eq_false hb.symm))]

theorem ext_minOf (h : minOf x y = .ok z) :
    ∃ p q, x.ext = some p ∧ y.ext = some q ∧ z.ext = some (min p q) := by
  unfold minOf at h
  cases hgt : gt x y with
  | error e =>
    rw [hgt] at h
    cases h
  | ok b =>
    rw [hgt] at h
    obtain ⟨p, q, hx, hy, hb⟩ := gt_eq_ok_iff.mp hgt
    refine ⟨p, q, hx, hy, ?_⟩
    cases b with
    | true =>
      cases h
      rw [hy, min_eq_right (of_decide_eq_true hb.symm).le]
    | false =>
      cases h
      rw [hx, min_eq_left (not_lt.mp (of_decide_eq_false hb.symm))]

theorem maxOf_value (hx : x.toRat = some p) (hy : y.toRat = some q) (h : maxOf x y = .ok z) :
    z.toRat = some (max p q) := by
  rw [maxOf, gt_of_toRat hy hx] at h
  by_cases hlt : p < q
  · obtain rfl : y = z := by simpa [hlt, bind, Except.bind, pure, Except.pure] using h
    rw [hy, max_eq_right hlt.le]
  · obtain rfl : x = z := by simpa [hlt, bind, Except.bind, pure, Except.pure] using h
    rw [hx, max_eq_left (not_lt.mp hlt)]

theorem minOf_value (hx : x.toRat = some p) (hy : y.toRat = some q) (h : minOf x y = .ok z) :
    z.toRat = some (min p q) := by
  rw [minOf, gt_of_toRat hx hy] at h
  by_cases hlt : q < p
  · obtain rfl : y = z := by simpa [hlt, bind, Except.bind, pure, Except.pure] using h
    rw [hy, min_eq_right hlt.le]
  · obtain rfl : x = z := by simpa [hlt, bind, Except.bind, pure, Except.pure] using h
    rw [hx, min_eq_left (not_lt.mp hlt)]

theorem maxOf_ok (hx : x.toRat = some p) (hy : y.toRat = some q) :
    ∃ z, maxOf x y = .ok z ∧ z.toRat = some (max p q) := by
  have hz : ∃ z, maxOf x y = .ok z := by
    rw [maxOf, gt_of_toRat hy hx]
    by_cases hlt : p < q
    · exact ⟨y, by simp [hlt, bind, Except.bind, pure, Except.pure]⟩
    · exact ⟨x, by simp [hlt, bind, Except.bind, pure, Except.pure]⟩
  obtain ⟨z, hz⟩ := hz
  exact ⟨z, hz, maxOf_value hx hy hz⟩

theorem minOf_ok (hx : x.toRat = some p) (hy : y.toRat = some q) :
    ∃ z, minOf x y = .ok z ∧ z.toRat = some (min p q) := by
  have hz : ∃ z, minOf x y = .ok z := by
    rw [minOf, gt_of_toRat hx hy]
    by_cases hlt : q < p
    · exact ⟨y, by simp [hlt, bind, Except.bind, pure, Except.pure]⟩
    · exact ⟨x, by simp [hlt, bind, Except.bind, pure, Except.pure]⟩
  obtain ⟨z, hz⟩ := hz
  exact ⟨z, hz, minOf_value hx hy hz⟩

/-! ## At most -/

/-- The first number is found not to be greater. -/
def AtMost (x y : Dec) : Prop := gt x y = .ok false

theorem atMost_iff : AtMost x y ↔ ∃ p q, x.ext = some p ∧ y.ext = some q ∧ p ≤ q := by
  simp [AtMost, gt_eq_ok_iff]

theorem AtMost.trans (hxy : AtMost x y) (hyz : AtMost y z) : AtMost x z := by
  obtain ⟨p, q, hx, hy, hle⟩ := atMost_iff.mp hxy
  obtain ⟨q', r, hy', hz, hle'⟩ := atMost_iff.mp hyz
  obtain rfl := Option.some.inj (hy.symm.trans hy')
  exact atMost_iff.mpr ⟨p, r, hx, hz, hle.trans hle'⟩

theorem atMost_of_toRat (hx : x.toRat = some p) (hy : y.toRat = some q) :
    AtMost x y ↔ p ≤ q := by
  simp [AtMost, gt_of_toRat hx hy]

theorem atMost_minOf (h : minOf x y = .ok z) : AtMost z x ∧ AtMost z y := by
  obtain ⟨p, q, hx, hy, hz⟩ := ext_minOf h
  exact ⟨atMost_iff.mpr ⟨_, _, hz, hx, min_le_left p q⟩,
    atMost_iff.mpr ⟨_, _, hz, hy, min_le_right p q⟩⟩

theorem atMost_maxOf (h : maxOf x y = .ok z) : AtMost x z ∧ AtMost y z := by
  obtain ⟨p, q, hx, hy, hz⟩ := ext_maxOf h
  exact ⟨atMost_iff.mpr ⟨_, _, hx, hz, le_max_left p q⟩,
    atMost_iff.mpr ⟨_, _, hy, hz, le_max_right p q⟩⟩

/-- A maximum is at most what both numbers are at most. -/
theorem maxOf_atMost {w : Dec} (h : maxOf x y = .ok z) (hx : AtMost x w) (hy : AtMost y w) :
    AtMost z w := by
  unfold maxOf at h
  cases hgt : gt y x with
  | error e =>
    rw [hgt] at h
    cases h
  | ok b =>
    rw [hgt] at h
    cases b with
    | true =>
      cases h
      exact hy
    | false =>
      cases h
      exact hx

/-- The minimum of a list, taken one by one: at most the start, if anything is compared with it,
and at most each number of the list. -/
theorem atMost_of_foldlM {l : List Dec} (h : l.foldlM minOf x = .ok z) :
    (z = x ∨ AtMost z x) ∧ ∀ c ∈ l, AtMost z c := by
  induction l generalizing x with
  | nil =>
    cases h
    exact ⟨Or.inl rfl, fun c hc => absurd hc List.not_mem_nil⟩
  | cons d l ih =>
    rw [List.foldlM_cons] at h
    cases hmin : minOf x d with
    | error e =>
      rw [hmin] at h
      cases h
    | ok y =>
      rw [hmin] at h
      obtain ⟨hstart, hrest⟩ := ih h
      obtain ⟨hyx, hyd⟩ := atMost_minOf hmin
      -- what the first minimum is at most, the last one is, too
      have hbelow : ∀ {w}, AtMost y w → AtMost z w := by
        intro w hw
        rcases hstart with rfl | hzy
        · exact hw
        · exact hzy.trans hw
      refine ⟨Or.inr (hbelow hyx), ?_⟩
      intro c hc
      rcases List.mem_cons.mp hc with rfl | hc
      · exact hbelow hyd
      · exact hrest c hc

/-! ## Rounded operations -/

section Mono

variable {x' z' : Dec} {p' : ℚ}

theorem mul_mono (hx : x.toRat = some p) (hx' : x'.toRat = some p') (hle : p ≤ p')
    (hy : y.toRat = some q) (hq : 0 ≤ q) (h : mul y x = .ok z) (h' : mul y x' = .ok z') :
    AtMost z z' := by
  rw [atMost_of_toRat (mul_value hy hx h) (mul_value hy hx' h')]
  exact rounded_mono (mul_le_mul_of_nonneg_left hle hq)

theorem div_inf {n : Bool} (hx : x.toRat = some p) (h : div x (.inf n) = .ok z) :
    z.toRat = some 0 := by
  cases x with
  | finite m c e =>
    cases h
    simp [toRat]
  | _ => cases hx

/-- The divisor is greater than zero, or infinite. -/
theorem div_mono {e : Ext} (hx : x.toRat = some p) (hx' : x'.toRat = some p') (hle : p ≤ p')
    (hy : y.ext = some e) (he : ((0 : ℚ) : WithTop ℚ) < e) (h : div x y = .ok z)
    (h' : div x' y = .ok z') : AtMost z z' := by
  cases y with
  | finite n c f =>
    obtain ⟨q, hq⟩ : ∃ q, (finite n c f).toRat = some q := ⟨_, rfl⟩
    rw [ext_of_toRat hq] at hy
    obtain rfl := Option.some.inj hy
    have hpos : 0 < q := by simpa using he
    rw [atMost_of_toRat (div_value hx hq h) (div_value hx' hq h')]
    exact rounded_mono (div_le_div_of_nonneg_right hle hpos.le)
  | inf n => exact (atMost_of_toRat (div_inf hx h) (div_inf hx' h')).mpr le_rfl
  | _ => cases hy

/-- Only zero is divided by. -/
theorem toRat_of_divisionByZero (h : div x y = .error .divisionByZero) : y.toRat = some 0 := by
  cases y with
  | finite n c f =>
    cases x with
    | finite m d e =>
      simp only [div] at h
      split at h
      · next hc => simp [toRat, hc]
      · split at h
        · cases h
        · split at h <;> cases h
    | _ => cases h
  | _ => cases x <;> cases h

end Mono

end AlgoBot.Core.Dec
