import Mathlib.Data.Rat.Floor
import Mathlib.Algebra.Order.Archimedean.Basic
import Mathlib.Tactic.Linarith

/-!
# Double precision floating point

Doubles by their values: a rational for each finite one, the two infinities and
a NaN. An operation is the exact one, rounded to the nearest double with ties
going to the even neighbour. The two zeros are one here, since they compare
equal, and no NaN is told from another.

* `lt_of_le_fin`: what is at most a finite number is less than a greater one.
-/

namespace AlgoBot.Core

inductive Double where
  | nan
  | inf (neg : Bool)
  | fin (x : ℚ)
deriving DecidableEq, Repr

namespace Double

/-! ## Rounding -/

/-- The nearest integer, ties to even. -/
def roundEven (x : ℚ) : ℤ :=
  let k := ⌊x⌋
  if x - k < 1 / 2 then k
  else if 1 / 2 < x - k then k + 1
  else k + k % 2

/-- The exponent of the leading binary digit of a positive rational. -/
def floorLog2 (x : ℚ) : ℤ :=
  let e : ℤ := (Nat.log2 x.num.natAbs : ℤ) - Nat.log2 x.den
  if (2 : ℚ) ^ e ≤ x then e else e - 1

/-- The exponent of the last binary digit a double near `x` has. -/
def lastPlace (x : ℚ) : ℤ := max (floorLog2 |x| - 52) (-1074)

/-- The nearest double. -/
def ofRat (x : ℚ) : Double :=
  let y := (roundEven (x / 2 ^ lastPlace x) : ℚ) * 2 ^ lastPlace x
  if (2 : ℚ) ^ 1024 ≤ |y| then .inf (x < 0) else .fin y

/-! ## Comparisons -/

def lt : Double → Double → Bool
  | .nan, _ => false
  | _, .nan => false
  | .inf neg, .inf neg' => neg && !neg'
  | .inf neg, .fin _ => neg
  | .fin _, .inf neg => !neg
  | .fin x, .fin y => x < y

def eq : Double → Double → Bool
  | .nan, _ => false
  | _, .nan => false
  | .inf neg, .inf neg' => neg == neg'
  | .fin x, .fin y => x == y
  | _, _ => false

def le (x y : Double) : Bool := lt x y || eq x y

def isFinite : Double → Bool
  | .fin _ => true
  | _ => false

/-- `max(x, y)` of Python: the first unless the second is greater. -/
def pyMax (x y : Double) : Double := if lt x y then y else x

/-- `min(x, y)` of Python. -/
def pyMin (x y : Double) : Double := if lt y x then y else x

/-! ## Arithmetic -/

def neg : Double → Double
  | .nan => .nan
  | .inf neg => .inf !neg
  | .fin x => .fin (-x)

def abs : Double → Double
  | .nan => .nan
  | .inf _ => .inf false
  | .fin x => .fin |x|

def add : Double → Double → Double
  | .nan, _ => .nan
  | _, .nan => .nan
  | .inf neg, .inf neg' => if neg = neg' then .inf neg else .nan
  | .inf neg, .fin _ => .inf neg
  | .fin _, .inf neg => .inf neg
  | .fin x, .fin y => ofRat (x + y)

def sub (x y : Double) : Double := add x y.neg

def mul : Double → Double → Double
  | .nan, _ => .nan
  | _, .nan => .nan
  | .inf neg, .inf neg' => .inf (neg != neg')
  | .inf neg, .fin y => if y = 0 then .nan else .inf (neg != decide (y < 0))
  | .fin x, .inf neg => if x = 0 then .nan else .inf (neg != decide (x < 0))
  | .fin x, .fin y => ofRat (x * y)

/-- Division by a number that is not zero. -/
def div : Double → Double → Double
  | .nan, _ => .nan
  | _, .nan => .nan
  | .inf _, .inf _ => .nan
  | .inf neg, .fin y => .inf (neg != decide (y < 0))
  | .fin _, .inf _ => .fin 0
  | .fin x, .fin y => ofRat (x / y)

/-- `round(x, places)`: the nearest decimal of so many places, as a double. -/
def round (places : ℕ) : Double → Double
  | .fin x => ofRat ((roundEven (x * 10 ^ places) : ℚ) / 10 ^ places)
  | x => x

example : ofRat (1 / 10) = .fin (3602879701896397 / 36028797018963968) := by decide +kernel
example : mul (ofRat (13 / 20)) (.fin 100) = .fin 65 := by decide +kernel

/-! ## Order -/

theorem le_fin {x y : ℚ} : le (.fin x) (.fin y) = true ↔ x ≤ y := by
  simp [le, lt, eq, le_iff_lt_or_eq]

theorem lt_fin {x y : ℚ} : lt (.fin x) (.fin y) = true ↔ x < y := by
  simp [lt]

/-- What is at most a finite number is less than a greater one. -/
theorem lt_of_le_fin {x : Double} {a b : ℚ} (h : le x (.fin a) = true) (hab : a < b) :
    lt x (.fin b) = true := by
  cases x with
  | nan => cases h
  | inf neg =>
    cases neg with
    | true => rfl
    | false => cases h
  | fin x => exact lt_fin.mpr (lt_of_le_of_lt (le_fin.mp h) hab)

end Double

end AlgoBot.Core
