import AlgoBot.Billing.Models

/-!
# Provider statuses and amounts

How the reconciler reads what a provider reports: the status text, the rank
order in which a stored status may move (`merge`), and the amount in minor
units.

* `rank_le_merge`, `merge_of_terminal`: a merge never lowers the rank, and a
  completed or refunded payment keeps its status.
* `merge_merge`: a report merged twice counts once.
* `minorUnits_le_one`: an amount below one minor unit is read as at most one.
-/

namespace AlgoBot.Billing

open AlgoBot.Core AlgoBot.Python

/-! ## Status text -/

/-- `PaymentReconciler.SUCCESS`. -/
def SUCCESS : List String := ["COMPLETE", "COMPLETED", "SUCCESS", "SUCCEEDED", "PAID"]

/-- `PaymentReconciler.FAILED`. -/
def FAILED : List String := ["FAILED", "FAILURE", "INVALID", "REVERSED"]

/-- `PaymentReconciler.PROCESSING`. -/
def PROCESSING : List String := ["PROCESSING", "IN_PROGRESS", "IN-PROGRESS"]

def normalizeStatus (h : Host) (value : Value) : PaymentStatus :=
  let value := upper h (strip (textOr h value ""))
  if value ∈ SUCCESS then .completed
  else if value ∈ FAILED then .failed
  else if value ∈ PROCESSING then .processing
  else if value ∈ ["CANCELLED", "CANCELED"] then .cancelled
  else .pending

/-! ## The status merge -/

def shouldIgnoreTransition (current incoming : PaymentStatus) : Bool :=
  if current ∈ [PaymentStatus.completed, .refunded] ∧ incoming ≠ current then true
  else if current ∈ [PaymentStatus.failed, .cancelled] ∧
      incoming ∈ [PaymentStatus.pending, .processing] then true
  else if current = .processing ∧ incoming = .pending then true
  else false

/-- The status a payment has after a report: the stored one where the report is ignored. -/
def merge (current incoming : PaymentStatus) : PaymentStatus :=
  if shouldIgnoreTransition current incoming then current else incoming

/-- The order in which a status may move. -/
def rank : PaymentStatus → ℕ
  | .pending => 0
  | .processing => 1
  | .failed => 2
  | .cancelled => 2
  | .completed => 3
  | .refunded => 3

/-- The states no report moves a payment out of. -/
def Terminal (st : PaymentStatus) : Prop := st = .completed ∨ st = .refunded

theorem rank_le_merge (current incoming : PaymentStatus) :
    rank current ≤ rank (merge current incoming) := by
  cases current <;> cases incoming <;> decide

theorem merge_of_terminal {current : PaymentStatus} (incoming : PaymentStatus)
    (h : Terminal current) : merge current incoming = current := by
  rcases h with rfl | rfl
  · cases incoming <;> decide
  · cases incoming <;> decide

/-- Nothing is ignored by a payment that has only been created. -/
@[simp] theorem merge_pending (incoming : PaymentStatus) : merge .pending incoming = incoming := by
  cases incoming <;> decide

/-- Reporting a status again changes nothing. -/
@[simp] theorem merge_merge (current incoming : PaymentStatus) :
    merge (merge current incoming) incoming = merge current incoming := by
  cases current <;> cases incoming <;> decide

/-! ## Amounts -/

/-- `_minor_units`: hundredths, to the nearest integer. Text that is no number
and numbers that are not finite or too large for the precision count as zero;
only an exponent overflow of the multiplication escapes. -/
def minorUnits (h : Host) (value : Value) : Except PyError ℤ :=
  match decimalOfText h ((value.or (.int 0)).toStr h) with
  | none => .ok 0
  | some x =>
    match x.mulNat 100 with
    | .error .overflow => .error .DecimalOverflow
    | .error .invalidOperation => .ok 0
    | .ok y =>
      match y.quantizeOne with
      | .error _ => .ok 0
      | .ok (.finite neg c _) => .ok (if neg then -(c : ℤ) else c)
      | .ok _ => .ok 0

/-- The number an amount stands for, where it stands for one. -/
def exactAmount (h : Host) (value : Value) : Option ℚ :=
  (decimalOfText h ((value.or (.int 0)).toStr h)).bind Dec.toRat

/-- The amount is malformed, not finite, or less than one minor unit. -/
def Worthless (h : Host) (value : Value) : Prop :=
  ∀ q, exactAmount h value = some q → q * 100 < 1

theorem minorUnits_le_one {h : Host} {value : Value} {m : ℤ} (hw : Worthless h value)
    (hm : minorUnits h value = .ok m) : m ≤ 1 := by
  unfold minorUnits at hm
  cases hd : decimalOfText h ((value.or (.int 0)).toStr h) with
  | none =>
    simp only [hd] at hm
    cases hm
    omega
  | some x =>
    simp only [hd] at hm
    cases x with
    | finite neg c e =>
      have hq : ((if neg then -1 else 1) * c * (10 : ℚ) ^ e) * 100 < 1 := by
        apply hw
        simp [exactAmount, hd, Dec.toRat]
      cases hmul : (Dec.finite neg c e).mulNat 100 with
      | error sig =>
        cases sig with
        | overflow =>
          simp only [hmul] at hm
          cases hm
        | invalidOperation =>
          simp only [hmul] at hm
          cases hm
          omega
      | ok y =>
        simp only [hmul] at hm
        cases hquant : y.quantizeOne with
        | error sig =>
          simp only [hquant] at hm
          cases hm
          omega
        | ok z =>
          simp only [hquant] at hm
          cases z with
          | finite sign k e' =>
            cases neg with
            | true =>
              -- a negative amount stays negative through the rounding
              have hsign : sign = true := Dec.sign_of_minor hmul hquant
              simp only [hsign, if_true] at hm
              cases hm
              omega
            | false =>
              have hle : (c * (100 : ℕ) : ℚ) * (10 : ℚ) ^ e ≤ 1 := by
                push_cast
                simp only [Bool.false_eq_true, if_false, one_mul] at hq
                linarith
              rcases Dec.quantizeOne_mulNat_le_one hle hmul hquant with ⟨r, hr, heq⟩
              cases heq
              simp only [Bool.false_eq_true, if_false] at hm
              cases hm
              omega
          | _ => cases hm; omega
    | _ =>
      simp [Dec.mulNat, Dec.quantizeOne] at hm
      omega

end AlgoBot.Billing
