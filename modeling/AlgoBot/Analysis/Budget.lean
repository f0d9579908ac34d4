import AlgoBot.Brokers.Submit
import AlgoBot.Core.DecimalOrder
import AlgoBot.Portfolios.EqualWeight
import AlgoBot.Python.Value

/-!
# The risk budget of an account

`build_account_risk_context` takes the least of four amounts: a share of the balance,
what is left of the daily loss, what is left of the exposure, and the available funds.
What cannot be read counts as zero. The exposure adds up open positions and open
orders, and tells them apart by their order ids.

* `build_spec`: the stake is a number of units within the four amounts.
* `zero_of_unsynced`: an account of which nothing is known has no stake.
* `counted_iff`: when every open trade is counted once.
* `conservative_iff`: the budget is conservative exactly if an unreadable margin does
  not stand in for the available funds, and the rows of each trade have ids that match.
* `counted_twice`: a purchase with its position.

The risk score, which is computed from the result, is left out.
-/

namespace AlgoBot.Analysis

open AlgoBot.Core AlgoBot.Python

/-! ## Funds -/

/-- A value as the broker gives it, or a column of the account. -/
inductive Raw where
  | value (v : Value)
  | decimal (x : Dec)

/-- `value is None`. -/
def Raw.isNone : Raw → Bool
  | .value .none => true
  | _ => false

structure Funds where
  balance : Raw
  equity : Raw
  margin : Raw
  free_margin : Raw

structure Account where
  last_synced_at : Option ℕ
  funds : Funds

/-- What is known of the funds: the fresh data, if there are any, else what was synchronized. -/
def rawFunds (account : Account) (broker_data : Option Funds) : Funds :=
  match broker_data, account.last_synced_at with
  | some fresh, _ => fresh
  | none, some _ => account.funds
  | none, none => ⟨.value .none, .value .none, .value .none, .value .none⟩

/-! ## Rows -/

/-- An order; `trade` is the trade at the broker that it is about. -/
structure BrokerOrder where
  trade : ℕ
  status : Brokers.OrderStatus
  broker_order_id : String
  stake : Dec

structure Position where
  trade : ℕ
  status : String
  broker_order_id : String
  stake : Option Dec

/-- A row of the history; it is settled if it has a date. -/
structure BrokerTradeHistory where
  trade : ℕ
  broker_order_id : Option String
  settlement_date : Option ℕ
  profit_loss : Option Dec

/-- The rows of an account. -/
structure Book where
  orders : List BrokerOrder
  positions : List Position
  history : List BrokerTradeHistory

def OPEN_ORDER_STATUSES : List Brokers.OrderStatus :=
  [.created, .validated, .approved, .queued, .submitted, .pending, .executed, .partially_filled,
    .filled]

structure RiskProfile where
  max_risk_per_trade : Dec
  max_daily_loss : Dec
  max_exposure : Dec

/-! ## Reading -/

def ZERO : Dec := .finite false 0 0

/-- The number, if it is finite. -/
def finite : Dec → Option Dec
  | .finite n c e => some (.finite n c e)
  | _ => none

/-- `_decimal` without its default. -/
def Raw.read (h : Host) : Raw → Option Dec
  | .value v => (decimalOfText h (v.toStr h)).bind finite
  | .decimal x => finite x

/-- `_decimal`. -/
def Raw.toDecimal (h : Host) (raw : Raw) : Dec := (raw.read h).getD ZERO

/-- `_money`, of a finite number. -/
def money (x : Dec) : Except Dec.Signal Dec := Portfolios.quantizeDown 8 x

namespace Book

variable (b : Book)

/-! ## The exposure -/

def settledOrderIds : List String :=
  b.history.filterMap fun t =>
    if t.settlement_date.isSome then t.broker_order_id.filter (· ≠ "") else none

def openOrders : List BrokerOrder :=
  b.orders.filter fun o => o.status ∈ OPEN_ORDER_STATUSES && !(o.broker_order_id ∈ b.settledOrderIds)

def openPositions : List Position := b.positions.filter fun p => p.status ∈ ["open", "active"]

def positionOrderIds : List String :=
  (b.openPositions.map Position.broker_order_id).filter (· ≠ "")

def ordersWithoutPosition : List BrokerOrder :=
  b.openOrders.filter fun o => !(o.broker_order_id ∈ b.positionOrderIds)

def exposure_unknown : Bool :=
  (b.openPositions.any fun p => p.stake.isNone) ||
    b.ordersWithoutPosition.any fun o => o.stake.toRat.any (· ≤ 0)

/-- `sum(..., ZERO)`. -/
def total (xs : List Dec) : Except Dec.Signal Dec :=
  xs.foldlM (fun acc x => acc.add ((finite x).getD ZERO)) ZERO

def open_stake : Except Dec.Signal Dec := do
  let positions ← total (b.openPositions.filterMap Position.stake)
  let orders ← total (b.ordersWithoutPosition.map BrokerOrder.stake)
  positions.add orders

/-! ## The loss of the day -/

def settledOn (today : ℕ) : List BrokerTradeHistory :=
  b.history.filter fun t => t.settlement_date == some today

def daily_loss_known (today : ℕ) : Bool := !(b.settledOn today).any fun t => t.profit_loss.isNone

/-- `realized_loss`. -/
def realizedLoss (today : ℕ) : Except Dec.Signal Dec :=
  ((b.settledOn today).filterMap BrokerTradeHistory.profit_loss).foldlM
    (fun loss x => do
      let profit := (finite x).getD ZERO
      if profit.toRat.any (· < 0) then loss.add (← ZERO.sub profit) else return loss)
    ZERO

end Book

/-! ## The budget -/

/-- The context, as far as the stake depends on it. -/
structure Context where
  risk_budget : Dec
  daily_remaining : Dec
  exposure_remaining : Dec
  available_funds : Dec
  recommended_stake : Dec

section Build

variable (h : Host)

/-- `available_funds`; none if it is not known. -/
def availableFunds (f : Funds) : Except Dec.Signal (Option Dec) :=
  if !f.free_margin.isNone then (ZERO.maxOf (f.free_margin.toDecimal h)).map some
  else if !f.balance.isNone && !f.margin.isNone then do
    let free ← (f.balance.toDecimal h).sub (f.margin.toDecimal h)
    let free ← ZERO.maxOf free
    return some free
  else .ok none

/-- `max(ZERO, _decimal(fraction, default))`. -/
def fractionOf (fraction dflt : Dec) : Except Dec.Signal Dec :=
  ZERO.maxOf ((finite fraction).getD dflt)

/-- A share of the balance, where it is known. -/
def shareOf (f : Funds) (balance fraction : Dec) : Except Dec.Signal Dec :=
  if f.balance.isNone then .ok ZERO else balance.mul fraction

/-- What is left of a limit, where all is known. -/
def remainingOf (known : Bool) (limit used : Dec) : Except Dec.Signal Dec :=
  if known then limit.sub used >>= ZERO.maxOf else .ok ZERO

/-- `confidence_multiplier`. -/
def confidenceMultiplier (confidence : Raw) (volatility : Value) : Dec :=
  let half : Dec := .finite false 50 (-2)
  let value := if confidence.isNone then none else (confidence.toDecimal h).toRat
  let multiplier : Dec :=
    if value.all (· < 60) then half
    else if value.any (· < 75) then .finite false 75 (-2)
    else .finite false 100 (-2)
  -- no multiplier is below a half
  if h.lower (textOr h volatility "") ∈ ["high", "extreme"] then half else multiplier

/-- The amounts that are shown, rounded with the stake. -/
def shown (f : Funds) (available : Option Dec) (amounts : List Dec) : List Dec :=
  ([f.balance, f.equity, f.margin, f.free_margin].filter fun raw => !raw.isNone).map
      (fun raw => raw.toDecimal h) ++ available.toList ++ amounts

/-- `build_account_risk_context`. -/
def build (profile : RiskProfile) (f : Funds) (b : Book) (today : ℕ) (confidence : Raw)
    (volatility : Value) : Except Dec.Signal Context := do
  let balance := f.balance.toDecimal h
  let available ← availableFunds h f
  let loss ← b.realizedLoss today
  let open_stake ← b.open_stake
  let open_stake := if b.exposure_unknown then ZERO else open_stake
  let risk_fraction ← fractionOf profile.max_risk_per_trade (.finite false 2 (-2))
  let loss_fraction ← fractionOf profile.max_daily_loss (.finite false 4 (-2))
  let exposure_fraction ← fractionOf profile.max_exposure (.finite false 35 (-2))
  let risk_budget ← shareOf f balance risk_fraction
  let daily_limit ← shareOf f balance loss_fraction
  let daily_remaining ←
    remainingOf (b.daily_loss_known today && !f.balance.isNone) daily_limit loss
  let exposure_limit ← shareOf f balance exposure_fraction
  let exposure_remaining ←
    remainingOf (!f.balance.isNone && !b.exposure_unknown) exposure_limit open_stake
  let available_funds := available.getD ZERO
  let least ← [daily_remaining, exposure_remaining, available_funds].foldlM Dec.minOf risk_budget
  let recommended ← ZERO.maxOf least
  let scaled ← recommended.mul (confidenceMultiplier h confidence volatility)
  let adjusted ← scaled.minOf recommended
  let loss := if b.daily_loss_known today then loss else ZERO
  let _ ← (shown h f available [risk_budget, daily_limit, loss, daily_remaining, exposure_limit,
    open_stake, exposure_remaining]).mapM money
  let recommended_stake ← money adjusted
  return { risk_budget, daily_remaining, exposure_remaining, available_funds, recommended_stake }

/-- The amount that `broker_proposal` lets the broker price, for the `amount` of the payload. -/
def proposalAmount (recommended_stake : Dec) (amount : Raw) : Option Dec :=
  let requested : Option Dec :=
    match amount with
    | .value .none | .value (.str "") => some recommended_stake
    | amount => amount.read h
  requested.filter fun x =>
    x.toRat.any (0 < ·) && (x.gt recommended_stake).toOption == some false

end Build

/-! ## The amounts -/

section Amounts

variable {h : Host}

theorem zero_value : ZERO.toRat = some 0 := by simp [ZERO, Dec.toRat]

theorem finite_value {x y : Dec} (hx : finite x = some y) : ∃ q, y.toRat = some q := by
  cases x with
  | finite n c e =>
    cases hx
    exact ⟨_, rfl⟩
  | _ => cases hx

theorem read_value {raw : Raw} {y : Dec} (hy : raw.read h = some y) : ∃ q, y.toRat = some q := by
  cases raw with
  | value v =>
    obtain ⟨x, _, hx⟩ := Option.bind_eq_some_iff.mp hy
    exact finite_value hx
  | decimal x => exact finite_value hy

theorem toDecimal_value (raw : Raw) : ∃ q, (raw.toDecimal h).toRat = some q := by
  unfold Raw.toDecimal
  cases hread : raw.read h with
  | none => exact ⟨0, zero_value⟩
  | some y => exact read_value hread

/-- What cannot be read counts as zero. -/
theorem toDecimal_of_unread {raw : Raw} (hraw : raw.read h = none) : raw.toDecimal h = ZERO := by
  rw [Raw.toDecimal, hraw]
  rfl

theorem finite_or_value {x d : Dec} (hd : ∃ q, d.toRat = some q) :
    ∃ q, ((finite x).getD d).toRat = some q := by
  cases hx : finite x with
  | none => exact hd
  | some y => exact finite_value hx

theorem add_value {x y z : Dec} {p q : ℚ} (hx : x.toRat = some p) (hy : y.toRat = some q)
    (h : x.add y = .ok z) : z.toRat = some (Dec.rounded (p + q)) := by
  have hneg : y.neg.toRat = some (-q) := by
    cases y with
    | finite n c e =>
      rw [← Option.some.inj hy]
      cases n <;> simp [Dec.neg, Dec.toRat]
    | _ => cases hy
  rw [Dec.sub_value hx hneg h, sub_neg_eq_add]

theorem foldlM_value {step : Dec → Dec → Except Dec.Signal Dec} {xs : List Dec} {acc z : Dec}
    (hstep : ∀ acc x z, (∃ q, acc.toRat = some q) → step acc x = .ok z → ∃ q, z.toRat = some q)
    (hacc : ∃ q, acc.toRat = some q) (hz : xs.foldlM step acc = .ok z) : ∃ q, z.toRat = some q := by
  induction xs generalizing acc with
  | nil =>
    cases hz
    exact hacc
  | cons x xs ih =>
    rw [List.foldlM_cons] at hz
    rcases bind_ok.mp hz with ⟨next, hnext, hz⟩
    exact ih (hstep acc x next hacc hnext) hz

theorem total_value {xs : List Dec} {z : Dec} (hz : Book.total xs = .ok z) :
    ∃ q, z.toRat = some q := by
  refine foldlM_value ?_ ⟨0, zero_value⟩ hz
  rintro acc x z ⟨p, hp⟩ hadd
  obtain ⟨q, hq⟩ := finite_or_value (x := x) ⟨0, zero_value⟩
  exact ⟨_, add_value hp hq hadd⟩

theorem open_stake_value {b : Book} {z : Dec} (hz : b.open_stake = .ok z) :
    ∃ q, z.toRat = some q := by
  rcases bind_ok.mp hz with ⟨positions, hpositions, hz⟩
  rcases bind_ok.mp hz with ⟨orders, horders, hz⟩
  obtain ⟨p, hp⟩ := total_value hpositions
  obtain ⟨q, hq⟩ := total_value horders
  exact ⟨_, add_value hp hq hz⟩

theorem realizedLoss_value {b : Book} {today : ℕ} {z : Dec} (hz : b.realizedLoss today = .ok z) :
    ∃ q, z.toRat = some q := by
  refine foldlM_value ?_ ⟨0, zero_value⟩ hz
  rintro acc x z ⟨p, hp⟩ hstep
  obtain ⟨q, hq⟩ := finite_or_value (x := x) ⟨0, zero_value⟩
  dsimp only at hstep
  split at hstep
  · rcases bind_ok.mp hstep with ⟨loss, hloss, hadd⟩
    exact ⟨_, add_value hp (Dec.sub_value zero_value hq hloss) hadd⟩
  · cases hstep
    exact ⟨p, hp⟩

theorem fractionOf_value {x d z : Dec} (hd : ∃ q, d.toRat = some q) (hz : fractionOf x d = .ok z) :
    ∃ q, 0 ≤ q ∧ z.toRat = some q := by
  obtain ⟨q, hq⟩ := finite_or_value (x := x) hd
  exact ⟨_, le_max_left _ _, Dec.maxOf_value zero_value hq hz⟩

theorem rounded_zero : Dec.rounded 0 = 0 := by
  have hdigits := @Dec.rounded_of_digits false 0 0 (by norm_num)
  simpa using hdigits

theorem shareOf_value {f : Funds} {balance fraction z : Dec} {B F : ℚ}
    (hB : balance.toRat = some B) (hF : fraction.toRat = some F)
    (hz : shareOf f balance fraction = .ok z) :
    ∃ q, z.toRat = some q ∧ (f.balance.isNone = true ∨ B = 0 → q = 0) := by
  unfold shareOf at hz
  split at hz
  · cases hz
    exact ⟨0, zero_value, fun _ => rfl⟩
  · next hknown =>
    refine ⟨_, Dec.mul_value hB hF hz, ?_⟩
    rintro (hnone | rfl)
    · exact absurd hnone hknown
    · rw [zero_mul, rounded_zero]

theorem remainingOf_value {known : Bool} {limit used z : Dec} {p q : ℚ}
    (hp : limit.toRat = some p) (hq : used.toRat = some q) (hz : remainingOf known limit used = .ok z) :
    ∃ r, z.toRat = some r ∧ 0 ≤ r ∧ (known = false → r = 0) := by
  unfold remainingOf at hz
  split at hz
  · next hknown =>
    rcases bind_ok.mp hz with ⟨d, hd, hz⟩
    refine ⟨_, Dec.maxOf_value zero_value (Dec.sub_value hp hq hd) hz, le_max_left _ _, ?_⟩
    intro hnot
    rw [hknown] at hnot
    cases hnot
  · cases hz
    exact ⟨0, zero_value, le_rfl, fun _ => rfl⟩

/-- The balance and a margin that is not a number stand in for the free margin. -/
def Funds.marginUnread (h : Host) (f : Funds) : Prop :=
  f.free_margin.isNone = true ∧ f.margin.isNone = false ∧ f.margin.read h = none ∧
    f.balance.isNone = false

/-- The funds are zero where the free margin cannot be read, and where neither it nor the margin is
given. A margin that cannot be read counts as none. -/
theorem availableFunds_value {f : Funds} {a : Option Dec} {B : ℚ} (ha : availableFunds h f = .ok a)
    (hB : (f.balance.toDecimal h).toRat = some B) :
    ∃ q, (a.getD ZERO).toRat = some q ∧ 0 ≤ q ∧
      (f.free_margin.isNone = false → f.free_margin.read h = none → q = 0) ∧
      (f.free_margin.isNone = true → f.margin.isNone = true → q = 0) ∧
      (f.marginUnread h → q = max 0 (Dec.rounded B) ∧ a.isSome = true) := by
  unfold availableFunds at ha
  split at ha
  · next hfree =>
    obtain ⟨z, hz, rfl⟩ := map_ok.mp ha
    obtain ⟨p, hp⟩ := toDecimal_value (h := h) f.free_margin
    have hvalue := Dec.maxOf_value zero_value hp hz
    refine ⟨_, hvalue, le_max_left _ _, ?_, ?_, ?_⟩
    · intro _ hunread
      rw [toDecimal_of_unread hunread, zero_value] at hp
      rw [← Option.some.inj hp, max_self]
    · intro hnone
      rw [hnone] at hfree
      cases hfree
    · intro hmargin
      rw [hmargin.1] at hfree
      cases hfree
  · next hfree =>
    have hnone : f.free_margin.isNone = true := by simpa using hfree
    split at ha
    · next hknown =>
      -- the balance less the margin
      rcases bind_ok.mp ha with ⟨d, hd, ha⟩
      rcases bind_ok.mp ha with ⟨z, hz, ha⟩
      cases ha
      obtain ⟨q, hq⟩ := toDecimal_value (h := h) f.margin
      refine ⟨_, Dec.maxOf_value zero_value (Dec.sub_value hB hq hd) hz, le_max_left _ _, ?_, ?_, ?_⟩
      · intro hgiven
        rw [hnone] at hgiven
        cases hgiven
      · intro _ hmargin
        rw [hmargin] at hknown
        simp at hknown
      · intro hmargin
        rw [toDecimal_of_unread hmargin.2.2.1, zero_value] at hq
        rw [← Option.some.inj hq, sub_zero]
        exact ⟨rfl, rfl⟩
    · next hknown =>
      cases ha
      refine ⟨0, zero_value, le_rfl, fun _ _ => rfl, fun _ _ => rfl, ?_⟩
      rintro ⟨_, hmargin, _, hbalance⟩
      rw [hmargin, hbalance] at hknown
      simp at hknown

/-! ## The units of `_money` -/

/-- The units that a coefficient and an exponent have, cut off. -/
def units (coeff : ℕ) (exp : ℤ) : ℕ :=
  if 0 ≤ exp + (8 : ℕ) then coeff * 10 ^ (exp + (8 : ℕ)).toNat
  else coeff / 10 ^ (-(exp + (8 : ℕ))).toNat

theorem units_bounds (coeff : ℕ) (exp : ℤ) :
    (units coeff exp : ℚ) ≤ coeff * 10 ^ exp * 10 ^ 8 ∧
      (coeff : ℚ) * 10 ^ exp * 10 ^ 8 < units coeff exp + 1 := by
  have hscale : (coeff : ℚ) * 10 ^ exp * 10 ^ 8 = coeff * 10 ^ (exp + (8 : ℕ)) := by
    rw [zpow_add₀ (by norm_num), zpow_natCast, mul_assoc]
  rw [hscale]
  unfold units
  split
  · next hexp =>
    obtain ⟨k, hk⟩ := Int.eq_ofNat_of_zero_le hexp
    rw [hk, zpow_natCast, Int.toNat_natCast]
    push_cast
    exact ⟨le_rfl, lt_add_one _⟩
  · next hexp =>
    obtain ⟨k, hk⟩ := Int.eq_ofNat_of_zero_le (by omega : (0 : ℤ) ≤ -(exp + (8 : ℕ)))
    have hneg : exp + (8 : ℕ) = -(k : ℤ) := by omega
    rw [hneg, zpow_neg, zpow_natCast, ← div_eq_mul_inv, neg_neg, Int.toNat_natCast,
      le_div_iff₀ (by positivity), div_lt_iff₀ (by positivity)]
    have hdiv : 10 ^ k * (coeff / 10 ^ k) + coeff % 10 ^ k = coeff := Nat.div_add_mod _ _
    have hrest : coeff % 10 ^ k < 10 ^ k := Nat.mod_lt _ (by positivity)
    constructor
    · exact_mod_cast Nat.div_mul_le_self coeff (10 ^ k)
    · have hlt : coeff < (coeff / 10 ^ k + 1) * 10 ^ k := by
        rw [Nat.add_mul, Nat.mul_comm (coeff / 10 ^ k)]
        omega
      exact_mod_cast hlt

/-- Of an amount that is not negative, `_money` keeps the whole units, if they fit. -/
theorem money_spec {x : Dec} {q : ℚ} (hx : x.toRat = some q) (hq : 0 ≤ q) :
    (q < 10 ^ 20 ↔ ∃ z, money x = .ok z) ∧
      ∀ z, money x = .ok z → ∃ k : ℕ, z.toRat = some ((k : ℚ) / 10 ^ 8) ∧
        (k : ℚ) ≤ q * 10 ^ 8 ∧ q * 10 ^ 8 < k + 1 := by
  cases x with
  | finite n c e =>
    have hsigned := Option.some.inj hx
    -- a negative sign stands before a zero
    have hsize : q = c * 10 ^ e ∧ (n = true → c = 0) := by
      cases n with
      | false => exact ⟨by rw [← hsigned]; simp, nofun⟩
      | true =>
        have hneg : q = -(c * 10 ^ e) := by rw [← hsigned]; simp
        have hnonneg : (0 : ℚ) ≤ c * 10 ^ e := by positivity
        have hzero : (c : ℚ) * 10 ^ e = 0 := by linarith
        have hc : c = 0 := by
          have hpow : (10 : ℚ) ^ e ≠ 0 := by positivity
          exact_mod_cast (mul_eq_zero.mp hzero).resolve_right hpow
        exact ⟨by linarith, fun _ => hc⟩
    obtain ⟨hlow, hhigh⟩ := units_bounds c e
    rw [← hsize.1] at hlow hhigh
    have hmoney : money (.finite n c e) = if Dec.prec < Dec.numDigits (units c e) then
        .error .invalidOperation else .ok (.finite n (units c e) (-(8 : ℕ))) := rfl
    have hfits : ¬ Dec.prec < Dec.numDigits (units c e) ↔ q < 10 ^ 20 := by
      rw [not_lt, Dec.numDigits_le_iff (by decide)]
      constructor
      · intro hlt
        have hcast : (units c e : ℚ) + 1 ≤ 10 ^ 28 := by exact_mod_cast hlt
        linarith
      · intro hlt
        have hcast : (units c e : ℚ) < 10 ^ 28 := by linarith
        exact_mod_cast hcast
    rw [hmoney, ← hfits]
    constructor
    · by_cases hlarge : Dec.prec < Dec.numDigits (units c e) <;> simp [hlarge]
    · intro z hz
      split at hz
      · cases hz
      · cases hz
        refine ⟨units c e, ?_, hlow, hhigh⟩
        have hunits : n = true → units c e = 0 := by
          intro hn
          simp [units, hsize.2 hn]
        cases n with
        | false => simp [Dec.toRat, zpow_neg, div_eq_mul_inv]
        | true => simp [Dec.toRat, hunits rfl]
  | _ => cases hx

end Amounts

/-! ## The stake -/

section Stake

variable {h : Host} {profile : RiskProfile} {f : Funds} {b : Book} {today : ℕ} {confidence : Raw}
  {volatility : Value} {ctx : Context}

theorem confidenceMultiplier_value :
    ∃ q, (confidenceMultiplier h confidence volatility).toRat = some q ∧ 0 ≤ q := by
  have hunsigned : ∀ c e, ∃ q, (Dec.finite false c e).toRat = some q ∧ 0 ≤ q := by
    intro c e
    exact ⟨c * 10 ^ e, by simp [Dec.toRat], by positivity⟩
  unfold confidenceMultiplier
  dsimp only
  split_ifs <;> exact hunsigned _ _

/-- All amounts that are rounded fit. -/
theorem money_of_mapM {xs zs : List Dec} (hz : xs.mapM money = .ok zs) :
    ∀ x ∈ xs, ∃ z, money x = .ok z := by
  induction xs generalizing zs with
  | nil => exact fun x hx => absurd hx List.not_mem_nil
  | cons y ys ih =>
    rw [List.mapM_cons] at hz
    rcases bind_ok.mp hz with ⟨z, hy, hz⟩
    rcases bind_ok.mp hz with ⟨rest, hys, _⟩
    intro x hx
    rcases List.mem_cons.mp hx with rfl | hx
    · exact ⟨z, hy⟩
    · exact ih hys x hx

theorem mapM_money_ok {xs : List Dec} (hxs : ∀ x ∈ xs, ∃ z, money x = .ok z) :
    ∃ zs, xs.mapM money = .ok zs := by
  induction xs with
  | nil => exact ⟨[], rfl⟩
  | cons y ys ih =>
    obtain ⟨z, hz⟩ := hxs y List.mem_cons_self
    obtain ⟨zs, hzs⟩ := ih fun x hx => hxs x (List.mem_cons_of_mem y hx)
    refine ⟨z :: zs, ?_⟩
    rw [List.mapM_cons]
    exact bind_ok.mpr ⟨z, hz, bind_ok.mpr ⟨zs, hzs, rfl⟩⟩

/-- What the values of the context are: the four amounts are zero where they are not known, and the
stake is a number of units that is within them. -/
structure Within (h : Host) (f : Funds) (b : Book) (today : ℕ) (ctx : Context)
    (risk daily exposure funds : ℚ) (k : ℕ) : Prop where
  risk_value : ctx.risk_budget.toRat = some risk
  daily_value : ctx.daily_remaining.toRat = some daily
  exposure_value : ctx.exposure_remaining.toRat = some exposure
  funds_value : ctx.available_funds.toRat = some funds
  stake_value : ctx.recommended_stake.toRat = some ((k : ℚ) / 10 ^ 8)
  stake_le : (k : ℚ) / 10 ^ 8 ≤ max 0 (min (min (min risk daily) exposure) funds)
  risk_zero : f.balance.isNone = true ∨ f.balance.read h = none → risk = 0
  daily_zero : b.daily_loss_known today = false → daily = 0
  exposure_zero : b.exposure_unknown = true → exposure = 0
  funds_unread : f.free_margin.isNone = false → f.free_margin.read h = none → funds = 0
  funds_missing : f.free_margin.isNone = true → f.margin.isNone = true → funds = 0
  funds_margin : f.marginUnread h →
    ∃ B, (f.balance.toDecimal h).toRat = some B ∧ funds = max 0 (Dec.rounded B) ∧ funds < 10 ^ 20
  equity_fits : f.equity.isNone = true ∨ ∃ z, money (f.equity.toDecimal h) = .ok z

theorem build_spec (hbuild : build h profile f b today confidence volatility = .ok ctx) :
    ∃ risk daily exposure funds k, Within h f b today ctx risk daily exposure funds k := by
  obtain ⟨B, hB⟩ := toDecimal_value (h := h) f.balance
  unfold build at hbuild
  rcases bind_ok.mp hbuild with ⟨available, havailable, hbuild⟩
  rcases bind_ok.mp hbuild with ⟨loss, hloss, hbuild⟩
  rcases bind_ok.mp hbuild with ⟨open_stake, hopen, hbuild⟩
  rcases bind_ok.mp hbuild with ⟨risk_fraction, hriskf, hbuild⟩
  rcases bind_ok.mp hbuild with ⟨loss_fraction, hlossf, hbuild⟩
  rcases bind_ok.mp hbuild with ⟨exposure_fraction, hexposuref, hbuild⟩
  rcases bind_ok.mp hbuild with ⟨risk_budget, hrisk, hbuild⟩
  rcases bind_ok.mp hbuild with ⟨daily_limit, hlimit, hbuild⟩
  rcases bind_ok.mp hbuild with ⟨daily_remaining, hdaily, hbuild⟩
  rcases bind_ok.mp hbuild with ⟨exposure_limit, hexplimit, hbuild⟩
  rcases bind_ok.mp hbuild with ⟨exposure_remaining, hexposure, hbuild⟩
  rcases bind_ok.mp hbuild with ⟨least, hleast, hbuild⟩
  rcases bind_ok.mp hbuild with ⟨recommended, hrec, hbuild⟩
  rcases bind_ok.mp hbuild with ⟨scaled, hscaled, hbuild⟩
  rcases bind_ok.mp hbuild with ⟨adjusted, hadjusted, hbuild⟩
  rcases bind_ok.mp hbuild with ⟨amounts, hamounts, hbuild⟩
  rcases bind_ok.mp hbuild with ⟨stake, hstake, hbuild⟩
  cases hbuild
  have hdefault : ∀ c e, ∃ q, (Dec.finite false c e).toRat = some q := fun c e => ⟨_, rfl⟩
  obtain ⟨rf, _, hrf⟩ := fractionOf_value (hdefault _ _) hriskf
  obtain ⟨lf, _, hlf⟩ := fractionOf_value (hdefault _ _) hlossf
  obtain ⟨ef, _, hef⟩ := fractionOf_value (hdefault _ _) hexposuref
  obtain ⟨risk, hriskv, hrisk0⟩ := shareOf_value hB hrf hrisk
  obtain ⟨limit, hlimitv, _⟩ := shareOf_value hB hlf hlimit
  obtain ⟨explimit, hexplimitv, _⟩ := shareOf_value hB hef hexplimit
  obtain ⟨lossq, hlossv⟩ := realizedLoss_value hloss
  obtain ⟨openq, hopenv⟩ := open_stake_value hopen
  obtain ⟨daily, hdailyv, _, hdaily0⟩ := remainingOf_value hlimitv hlossv hdaily
  have hused : ∃ q, (if b.exposure_unknown then ZERO else open_stake).toRat = some q := by
    split
    · exact ⟨0, zero_value⟩
    · exact ⟨openq, hopenv⟩
  obtain ⟨used, hused⟩ := hused
  obtain ⟨exposure, hexposurev, _, hexposure0⟩ := remainingOf_value hexplimitv hused hexposure
  obtain ⟨funds, hfundsv, hfunds0, hunread, hmissing, hmargin⟩ := availableFunds_value havailable hB
  -- the least of the four amounts, and what the multiplier leaves of it
  rw [List.foldlM_cons] at hleast
  rcases bind_ok.mp hleast with ⟨m₁, hm₁, hleast⟩
  rw [List.foldlM_cons] at hleast
  rcases bind_ok.mp hleast with ⟨m₂, hm₂, hleast⟩
  rw [List.foldlM_cons] at hleast
  rcases bind_ok.mp hleast with ⟨m₃, hm₃, hleast⟩
  cases hleast
  have hmin := Dec.minOf_value (Dec.minOf_value (Dec.minOf_value hriskv hdailyv hm₁) hexposurev hm₂)
    hfundsv hm₃
  have hrecv := Dec.maxOf_value zero_value hmin hrec
  obtain ⟨mult, hmult, hpos⟩ : ∃ q,
      (confidenceMultiplier h confidence volatility).toRat = some q ∧ 0 ≤ q :=
    confidenceMultiplier_value
  have hadjustedv := Dec.minOf_value (Dec.mul_value hrecv hmult hscaled) hrecv hadjusted
  have hnonneg : 0 ≤ min (Dec.rounded (max 0 (min (min (min risk daily) exposure) funds) * mult))
      (max 0 (min (min (min risk daily) exposure) funds)) :=
    le_min (Dec.rounded_nonneg (mul_nonneg (le_max_left _ _) hpos)) (le_max_left _ _)
  obtain ⟨k, hk, hle, _⟩ := (money_spec hadjustedv hnonneg).2 stake hstake
  have hfits := money_of_mapM hamounts
  refine ⟨risk, daily, exposure, funds, k, hriskv, hdailyv, hexposurev, hfundsv, hk, ?_, ?_, ?_, ?_,
    hunread, hmissing, ?_, ?_⟩
  · rw [div_le_iff₀ (by norm_num)]
    exact hle.trans (mul_le_mul_of_nonneg_right (min_le_right _ _) (by norm_num))
  · rintro (hnone | hread)
    · exact hrisk0 (Or.inl hnone)
    · refine hrisk0 (Or.inr ?_)
      rw [toDecimal_of_unread hread, zero_value] at hB
      exact (Option.some.inj hB).symm
  · intro hknown
    exact hdaily0 (by rw [hknown, Bool.false_and])
  · intro hunknown
    exact hexposure0 (by rw [hunknown]; simp)
  · intro hunreadable
    obtain ⟨hvalue, hsome⟩ := hmargin hunreadable
    obtain ⟨a, rfl⟩ := Option.isSome_iff_exists.mp hsome
    refine ⟨B, hB, hvalue, (money_spec hfundsv hfunds0).1.mpr (hfits a ?_)⟩
    simp [shown]
  · cases hequity : f.equity.isNone with
    | true => exact Or.inl rfl
    | false =>
      refine Or.inr (hfits _ (List.mem_append_left _ (List.mem_append_left _ ?_)))
      exact List.mem_map_of_mem (List.mem_filter.mpr ⟨by simp, by rw [hequity]; rfl⟩)

end Stake

/-! ## The trades that are counted -/

namespace Book

variable {b : Book}

/-- The trades of the rows whose stakes are added up. -/
def countedTrades (b : Book) : List ℕ :=
  b.openPositions.map Position.trade ++ b.ordersWithoutPosition.map BrokerOrder.trade

/-- The orders about a trade whose status is an open one. -/
def ordersOf (b : Book) (trade : ℕ) : List BrokerOrder :=
  b.orders.filter fun o => o.status ∈ OPEN_ORDER_STATUSES && o.trade == trade

def positionsOf (b : Book) (trade : ℕ) : List Position :=
  b.openPositions.filter fun p => p.trade == trade

/-- The broker has reported the outcome. -/
def Settled (b : Book) (trade : ℕ) : Prop :=
  ∃ t ∈ b.history, t.trade = trade ∧ t.settlement_date.isSome = true

/-- The trade is open: some row says so, and it is not settled. -/
def Open (b : Book) (trade : ℕ) : Prop :=
  ¬ b.Settled trade ∧ (b.positionsOf trade ≠ [] ∨ b.ordersOf trade ≠ [])

/-- The id of the order is that of a settled trade, or of an open position. -/
def listed (b : Book) (o : BrokerOrder) : Bool :=
  o.broker_order_id ∈ b.settledOrderIds || o.broker_order_id ∈ b.positionOrderIds

/-- The rows about a trade match: of a settled trade, no position is open, and its orders are
listed; of another one, a single position is open and its orders are listed, or none is, and a
single order is not listed, if there are any. -/
def LinkedAt (b : Book) (trade : ℕ) : Prop :=
  (b.Settled trade → b.positionsOf trade = [] ∧ ∀ o ∈ b.ordersOf trade, b.listed o = true) ∧
    (¬ b.Settled trade →
      (b.positionsOf trade).length = 1 ∧ (∀ o ∈ b.ordersOf trade, b.listed o = true) ∨
        b.positionsOf trade = [] ∧
          (b.ordersOf trade = [] ∨ (b.ordersOf trade).countP (fun o => !b.listed o) = 1))

def Linked (b : Book) : Prop := ∀ trade, b.LinkedAt trade

theorem count_countedTrades (trade : ℕ) :
    b.countedTrades.count trade =
      (b.positionsOf trade).length + (b.ordersOf trade).countP (fun o => !b.listed o) := by
  have horders : b.ordersWithoutPosition.countP (fun o => o.trade == trade) =
      (b.ordersOf trade).countP fun o => !b.listed o := by
    simp only [ordersWithoutPosition, openOrders, ordersOf, listed, List.countP_filter]
    refine List.countP_congr fun o _ => ?_
    simp only [Bool.and_eq_true, Bool.not_eq_true', Bool.or_eq_false_iff]
    tauto
  have hpositions : b.openPositions.countP (fun p => p.trade == trade) =
      (b.positionsOf trade).length := List.countP_eq_length_filter
  rw [countedTrades, List.count_append, List.count_eq_countP, List.count_eq_countP, List.countP_map,
    List.countP_map, ← hpositions, ← horders]
  rfl

/-- A trade is counted once if it is open, and else not, exactly if its rows match. -/
theorem counted_iff (trade : ℕ) :
    ((b.Open trade → b.countedTrades.count trade = 1) ∧
      (¬ b.Open trade → b.countedTrades.count trade = 0)) ↔ b.LinkedAt trade := by
  have hall : (b.ordersOf trade).countP (fun o => !b.listed o) = 0 ↔
      ∀ o ∈ b.ordersOf trade, b.listed o = true := by
    rw [List.countP_eq_zero]
    simp
  have hnone : (b.positionsOf trade).length = 0 ↔ b.positionsOf trade = [] := List.length_eq_zero_iff
  rw [count_countedTrades, Open, LinkedAt, ← hall, ← hnone]
  -- a settled trade is not open; another one is exactly if it has a row
  by_cases hsettled : b.Settled trade
  · have hclosed : ¬ (¬ b.Settled trade ∧ (b.positionsOf trade ≠ [] ∨ b.ordersOf trade ≠ [])) :=
      fun hopen => hopen.1 hsettled
    constructor
    · intro hcount
      have hzero := hcount.2 hclosed
      exact ⟨fun _ => by omega, fun hnot => absurd hsettled hnot⟩
    · intro hlinked
      have hzero := hlinked.1 hsettled
      exact ⟨fun hopen => absurd hopen hclosed, fun _ => by omega⟩
  · by_cases hempty : b.ordersOf trade = []
    · have hcount : (b.ordersOf trade).countP (fun o => !b.listed o) = 0 := by rw [hempty]; rfl
      rw [hcount]
      simp only [hsettled, hempty, not_false_eq_true, true_and, ne_eq, not_true, or_false,
        forall_const, false_implies, ← hnone, not_not, true_or, and_true]
      omega
    · simp only [hsettled, hempty, not_false_eq_true, true_and, ne_eq, or_true, forall_const,
        not_true, false_implies, false_or, and_true]
      omega

end Book

/-! ## A conservative budget -/

/-- An input of the stake is missing, or is not a number. -/
def Unknown (h : Host) (f : Funds) (b : Book) (today : ℕ) : Prop :=
  (f.balance.isNone = true ∨ f.balance.read h = none) ∨
    (f.free_margin.isNone = false ∧ f.free_margin.read h = none) ∨
    (f.free_margin.isNone = true ∧ (f.margin.isNone = true ∨ f.margin.read h = none)) ∨
    b.daily_loss_known today = false ∨ b.exposure_unknown = true

/-- What the stake is for the funds, whatever the rows are, and how the rows are counted. A stake
of zero is within all amounts, those of a negative balance too. -/
structure Conservative (h : Host) (f : Funds) (b : Book) : Prop where
  capped : ∀ profile rows today confidence volatility ctx,
    build h profile f rows today confidence volatility = .ok ctx →
      ctx.recommended_stake.toRat = some 0 ∨
        ∀ x ∈ [ctx.risk_budget, ctx.daily_remaining, ctx.exposure_remaining, ctx.available_funds],
          ctx.recommended_stake.AtMost x
  zero : ∀ profile rows today confidence volatility ctx,
    build h profile f rows today confidence volatility = .ok ctx →
      Unknown h f rows today → ctx.recommended_stake.toRat = some 0
  once : b.exposure_unknown = false → ∀ trade, (b.Open trade → b.countedTrades.count trade = 1) ∧
    (¬ b.Open trade → b.countedTrades.count trade = 0)
  priced : ∀ profile rows today confidence volatility ctx,
    build h profile f rows today confidence volatility = .ok ctx →
      ∀ amount x, proposalAmount h ctx.recommended_stake amount = some x →
        x.AtMost ctx.recommended_stake

/-- The balance stands in for the available funds, is worth a unit, and all amounts can be shown. -/
def StandIn (h : Host) (f : Funds) : Prop :=
  f.marginUnread h ∧ (f.equity.isNone = true ∨ ∃ z, money (f.equity.toDecimal h) = .ok z) ∧
    ∃ B, (f.balance.toDecimal h).toRat = some B ∧ 1 / 10 ^ 8 ≤ Dec.rounded B ∧
      Dec.rounded B < 10 ^ 20

section Conservative

variable {h : Host} {f : Funds} {b : Book} {today : ℕ} {ctx : Context}
  {risk daily exposure funds : ℚ} {k : ℕ}

/-- A stake that is not zero is a unit at least, and so are the amounts that it is within. -/
theorem Within.zero_or (hctx : Within h f b today ctx risk daily exposure funds k) :
    ctx.recommended_stake.toRat = some 0 ∨
      1 / 10 ^ 8 ≤ (k : ℚ) / 10 ^ 8 ∧ (k : ℚ) / 10 ^ 8 ≤ risk ∧ (k : ℚ) / 10 ^ 8 ≤ daily ∧
        (k : ℚ) / 10 ^ 8 ≤ exposure ∧ (k : ℚ) / 10 ^ 8 ≤ funds := by
  rcases Nat.eq_zero_or_pos k with rfl | hk
  · left
    rw [hctx.stake_value]
    simp
  · right
    have hone : (1 : ℚ) ≤ k := by exact_mod_cast hk
    have hunit : 1 / 10 ^ 8 ≤ (k : ℚ) / 10 ^ 8 := div_le_div_of_nonneg_right hone (by positivity)
    have hpos : (0 : ℚ) < (k : ℚ) / 10 ^ 8 := lt_of_lt_of_le (by positivity) hunit
    have hmin : (k : ℚ) / 10 ^ 8 ≤ min (min (min risk daily) exposure) funds :=
      (le_max_iff.mp hctx.stake_le).resolve_left (not_le.mpr hpos)
    rw [le_min_iff, le_min_iff, le_min_iff] at hmin
    exact ⟨hunit, hmin.1.1.1, hmin.1.1.2, hmin.1.2, hmin.2⟩

theorem Within.capped (hctx : Within h f b today ctx risk daily exposure funds k) :
    ctx.recommended_stake.toRat = some 0 ∨
      ∀ x ∈ [ctx.risk_budget, ctx.daily_remaining, ctx.exposure_remaining, ctx.available_funds],
        ctx.recommended_stake.AtMost x := by
  refine hctx.zero_or.imp_right ?_
  rintro ⟨_, hrisk, hdaily, hexposure, hfunds⟩ x hx
  simp only [List.mem_cons, List.not_mem_nil, or_false] at hx
  rcases hx with rfl | rfl | rfl | rfl
  · exact (Dec.atMost_of_toRat hctx.stake_value hctx.risk_value).mpr hrisk
  · exact (Dec.atMost_of_toRat hctx.stake_value hctx.daily_value).mpr hdaily
  · exact (Dec.atMost_of_toRat hctx.stake_value hctx.exposure_value).mpr hexposure
  · exact (Dec.atMost_of_toRat hctx.stake_value hctx.funds_value).mpr hfunds

/-- The stake is zero where an input is not known, unless the balance stands in for the funds. -/
theorem Within.zero (hctx : Within h f b today ctx risk daily exposure funds k)
    (hunknown : Unknown h f b today) (hf : ¬ StandIn h f) :
    ctx.recommended_stake.toRat = some 0 := by
  refine hctx.zero_or.resolve_right ?_
  rintro ⟨hunit, hrisk, hdaily, hexposure, hfunds⟩
  have hpos : (0 : ℚ) < 1 / 10 ^ 8 := by positivity
  rcases hunknown with hbalance | hfree | ⟨hfree, hmargin⟩ | hdays | hstakes
  · have hzero := hctx.risk_zero hbalance
    linarith
  · have hzero := hctx.funds_unread hfree.1 hfree.2
    linarith
  · cases hgiven : f.margin.isNone with
    | true =>
      have hzero := hctx.funds_missing hfree hgiven
      linarith
    | false =>
      cases hbalance : f.balance.isNone with
      | true =>
        have hzero := hctx.risk_zero (Or.inl hbalance)
        linarith
      | false =>
        have hunread : f.margin.read h = none := hmargin.resolve_left (by rw [hgiven]; nofun)
        have hstand : f.marginUnread h := ⟨hfree, hgiven, hunread, hbalance⟩
        obtain ⟨B, hB, hvalue, hlt⟩ := hctx.funds_margin hstand
        have hmax : 1 / 10 ^ 8 ≤ max 0 (Dec.rounded B) := by rw [← hvalue]; linarith
        have hlarge := (le_max_iff.mp hmax).resolve_left (not_le.mpr hpos)
        refine hf ⟨hstand, hctx.equity_fits, B, hB, hlarge, ?_⟩
        exact lt_of_le_of_lt (le_max_right _ _) (hvalue ▸ hlt)
  · have hzero := hctx.daily_zero hdays
    linarith
  · have hzero := hctx.exposure_zero hstakes
    linarith

/-- Without fresh data, an account that was never synchronized has no stake. -/
theorem zero_of_unsynced {h : Host} {profile : RiskProfile} {saved : Funds} {rows : Book} {today : ℕ}
    {confidence : Raw} {volatility : Value} {ctx : Context}
    (hbuild : build h profile (rawFunds ⟨none, saved⟩ none) rows today confidence volatility = .ok ctx) :
    ctx.recommended_stake.toRat = some 0 := by
  obtain ⟨risk, _, _, _, k, hwithin⟩ := build_spec hbuild
  refine hwithin.zero_or.resolve_right ?_
  rintro ⟨hunit, hrisk, _⟩
  have hzero := hwithin.risk_zero (Or.inl rfl)
  have hpos : (0 : ℚ) < 1 / 10 ^ 8 := by positivity
  linarith

theorem proposalAmount_atMost {amount : Raw} {x stake : Dec}
    (hx : proposalAmount h stake amount = some x) : x.AtMost stake := by
  have hcompared := (Option.filter_eq_some_iff.mp hx).2
  rw [Bool.and_eq_true, beq_iff_eq] at hcompared
  unfold Dec.AtMost
  cases hgt : x.gt stake with
  | error e =>
    rw [hgt] at hcompared
    cases hcompared.2
  | ok greater =>
    rw [hgt] at hcompared
    exact congrArg Except.ok (Option.some.inj hcompared.2)

end Conservative

/-! ## The balance in place of the funds -/

section StandIn

variable {f : Funds} {B : ℚ}

def ONE : Dec := .finite false 1 0

def HUNDRED : Dec := .finite false 100 0

/-- No rows, and all of the balance may be at risk. -/
def emptyBook : Book := ⟨[], [], []⟩

def wholeProfile : RiskProfile := ⟨ONE, ONE, ONE⟩

theorem one_value : ONE.toRat = some 1 := by simp [ONE, Dec.toRat]

theorem fractionOf_one (dflt : Dec) : ∃ z, fractionOf ONE dflt = .ok z ∧ z.toRat = some 1 := by
  obtain ⟨z, hz, hvalue⟩ := Dec.maxOf_ok zero_value one_value
  rw [max_eq_right (by norm_num)] at hvalue
  exact ⟨z, hz, hvalue⟩

theorem rounded_rounded (hB : 0 ≤ B) : Dec.rounded (Dec.rounded B) = Dec.rounded B := by
  rw [Dec.rounded_of_nonneg hB, Dec.rounded_of_nonneg (Dec.roundTo_nonneg hB),
    Dec.roundTo_roundTo hB]

/-- Times one, a number is rounded. -/
theorem mul_one_ok {x one : Dec} (hx : x.toRat = some B) (hone : one.toRat = some 1) (hB : 0 ≤ B)
    (hlt : B < 10 ^ 20) : ∃ z, x.mul one = .ok z ∧ z.toRat = some (Dec.rounded B) := by
  have hsize : |B * 1| < 10 ^ (20 : ℤ) := by
    rw [mul_one, abs_of_nonneg hB]
    exact_mod_cast hlt
  obtain ⟨z, hz⟩ := Dec.mul_ok hx hone hsize (by decide)
  have hvalue := Dec.mul_value hx hone hz
  rw [mul_one] at hvalue
  exact ⟨z, hz, hvalue⟩

theorem sub_zero_ok {x y : Dec} (hx : x.toRat = some B) (hy : y.toRat = some 0) (hB : 0 ≤ B)
    (hlt : B < 10 ^ 20) : ∃ z, x.sub y = .ok z ∧ z.toRat = some (Dec.rounded B) := by
  have hsize : |B - 0| < 10 ^ (20 : ℤ) := by
    rw [sub_zero, abs_of_nonneg hB]
    exact_mod_cast hlt
  obtain ⟨z, hz⟩ := Dec.sub_ok hx hy hsize (by decide)
  have hvalue := Dec.sub_value hx hy hz
  rw [sub_zero] at hvalue
  exact ⟨z, hz, hvalue⟩

theorem remainingOf_ok {limit used : Dec} (hlimit : limit.toRat = some B)
    (hused : used.toRat = some 0) (hB : 0 ≤ B) (hlt : B < 10 ^ 20) :
    ∃ z, remainingOf true limit used = .ok z ∧ z.toRat = some (Dec.rounded B) := by
  obtain ⟨d, hd, hdvalue⟩ := sub_zero_ok hlimit hused hB hlt
  obtain ⟨z, hz, hvalue⟩ := Dec.maxOf_ok zero_value hdvalue
  rw [max_eq_right (Dec.rounded_nonneg hB)] at hvalue
  exact ⟨z, bind_ok.mpr ⟨d, hd, hz⟩, hvalue⟩

theorem minOf_same {x y : Dec} (hx : x.toRat = some B) (hy : y.toRat = some B) :
    ∃ z, Dec.minOf x y = .ok z ∧ z.toRat = some B := by
  obtain ⟨z, hz, hvalue⟩ := Dec.minOf_ok hx hy
  rw [min_self] at hvalue
  exact ⟨z, hz, hvalue⟩

theorem emptyBook_stake : ∃ z, emptyBook.open_stake = .ok z ∧ z.toRat = some 0 :=
  ⟨ZERO, rfl, zero_value⟩

/-- What is sure of its inputs is not halved. -/
theorem confidenceMultiplier_hundred (h : TextHost) :
    (confidenceMultiplier h.toHost (.decimal HUNDRED) .none).toRat = some 1 := by
  have hregime : h.lower (textOr h.toHost .none "") ∉ ["high", "extreme"] := by
    have hempty : textOr h.toHost .none "" = "" := rfl
    rw [hempty, h.lower_ascii "" rfl]
    decide
  have hhundred : ((Raw.decimal HUNDRED).toDecimal h.toHost).toRat = some 100 := by
    simp [Raw.toDecimal, Raw.read, HUNDRED, finite, Dec.toRat]
  unfold confidenceMultiplier
  dsimp only
  rw [if_neg hregime, hhundred]
  norm_num [Raw.isNone, Dec.toRat]

/-- A balance that rounds to a unit at least, and fits when rounded, is positive and fits. -/
theorem bounds_of_rounded (hunit : 1 / 10 ^ 8 ≤ Dec.rounded B) (hlt : Dec.rounded B < 10 ^ 20) :
    0 < B ∧ B < 10 ^ 20 := by
  constructor
  · by_contra hle
    have hrounded := Dec.rounded_mono (not_lt.mp hle)
    rw [rounded_zero] at hrounded
    exact absurd (hunit.trans hrounded) (by norm_num)
  · by_contra hle
    have hrounded := Dec.rounded_mono (not_lt.mp hle)
    -- the bound itself is not rounded
    have hdigits := @Dec.rounded_of_digits false (10 ^ 20) 0 (by norm_num)
    norm_num at hdigits hrounded hlt
    linarith

theorem availableFunds_ok {h : Host} (hmargin : f.marginUnread h)
    (hB : (f.balance.toDecimal h).toRat = some B) (hpos : 0 ≤ B) (hlt : B < 10 ^ 20) :
    ∃ av, availableFunds h f = .ok (some av) ∧ av.toRat = some (Dec.rounded B) := by
  obtain ⟨hfree, hgiven, hunread, hbalance⟩ := hmargin
  have hzero : (f.margin.toDecimal h).toRat = some 0 := by
    rw [toDecimal_of_unread hunread, zero_value]
  obtain ⟨free, hsub, hfreeValue⟩ := sub_zero_ok hB hzero hpos hlt
  obtain ⟨av, hav, havValue⟩ := Dec.maxOf_ok zero_value hfreeValue
  rw [max_eq_right (Dec.rounded_nonneg hpos)] at havValue
  refine ⟨av, ?_, havValue⟩
  unfold availableFunds
  rw [hfree, hbalance, hgiven]
  exact bind_ok.mpr ⟨free, hsub, bind_ok.mpr ⟨av, hav, rfl⟩⟩

/-- What is shown fits if the amounts do, besides the balance and the equity. -/
theorem shown_ok {h : Host} {av : Dec} {amounts : List Dec} (hmargin : f.marginUnread h)
    (hequity : f.equity.isNone = true ∨ ∃ z, money (f.equity.toDecimal h) = .ok z)
    (hbalance : ∃ z, money (f.balance.toDecimal h) = .ok z)
    (hamounts : ∀ x ∈ av :: amounts, ∃ z, money x = .ok z) :
    ∀ x ∈ shown h f (some av) amounts, ∃ z, money x = .ok z := by
  intro x hx
  rw [shown, List.append_assoc] at hx
  rcases List.mem_append.mp hx with hx | hx
  · obtain ⟨raw, hraw, rfl⟩ := List.mem_map.mp hx
    obtain ⟨hmem, hsome⟩ := List.mem_filter.mp hraw
    simp only [List.mem_cons, List.not_mem_nil, or_false] at hmem
    rcases hmem with rfl | rfl | rfl | rfl
    · exact hbalance
    · exact hequity.resolve_left (by simpa using hsome)
    · rw [toDecimal_of_unread hmargin.2.2.1]
      exact ((money_spec zero_value le_rfl).1).mp (by norm_num)
    · -- the free margin is not shown
      rw [hmargin.1] at hsome
      cases hsome
  · exact hamounts x hx

/-- Where the balance stands in for the funds, there is a stake. -/
theorem standIn_stake (h : TextHost) (hf : StandIn h.toHost f) :
    ∃ ctx, build h.toHost wholeProfile f emptyBook 0 (.decimal HUNDRED) .none = .ok ctx ∧
      ctx.recommended_stake.toRat ≠ some 0 := by
  obtain ⟨hmargin, hequity, B, hB, hunit, hlt⟩ := hf
  have hbalance : f.balance.isNone = false := hmargin.2.2.2
  obtain ⟨hpos, hsmall⟩ := bounds_of_rounded hunit hlt
  have hR : 0 ≤ Dec.rounded B := Dec.rounded_nonneg hpos.le
  -- every amount is the rounded balance
  obtain ⟨av, havailable, havValue⟩ := availableFunds_ok hmargin hB hpos.le hsmall
  obtain ⟨stakes, hstakes, hstakesValue⟩ := emptyBook_stake
  obtain ⟨one₁, hone₁, hone₁Value⟩ := fractionOf_one (.finite false 2 (-2))
  obtain ⟨one₂, hone₂, hone₂Value⟩ := fractionOf_one (.finite false 4 (-2))
  obtain ⟨one₃, hone₃, hone₃Value⟩ := fractionOf_one (.finite false 35 (-2))
  have hshare : ∀ {one : Dec}, one.toRat = some 1 → ∃ z,
      shareOf f (f.balance.toDecimal h.toHost) one = .ok z ∧ z.toRat = some (Dec.rounded B) := by
    intro one hone
    unfold shareOf
    rw [hbalance]
    exact mul_one_ok hB hone hpos.le hsmall
  obtain ⟨risk, hrisk, hriskValue⟩ := hshare hone₁Value
  obtain ⟨limit, hlimit, hlimitValue⟩ := hshare hone₂Value
  obtain ⟨exposed, hexposed, hexposedValue⟩ := hshare hone₃Value
  obtain ⟨daily, hdaily, hdailyValue⟩ := remainingOf_ok hlimitValue zero_value hR hlt
  obtain ⟨exposure, hexposure, hexposureValue⟩ := remainingOf_ok hexposedValue hstakesValue hR hlt
  rw [rounded_rounded hpos.le] at hdailyValue hexposureValue
  obtain ⟨m₁, hm₁, hm₁Value⟩ := minOf_same hriskValue hdailyValue
  obtain ⟨m₂, hm₂, hm₂Value⟩ := minOf_same hm₁Value hexposureValue
  obtain ⟨m₃, hm₃, hm₃Value⟩ := minOf_same hm₂Value havValue
  obtain ⟨recommended, hrec, hrecValue⟩ := Dec.maxOf_ok zero_value hm₃Value
  rw [max_eq_right hR] at hrecValue
  obtain ⟨scaled, hscaled, hscaledValue⟩ :=
    mul_one_ok hrecValue (confidenceMultiplier_hundred h) hR hlt
  rw [rounded_rounded hpos.le] at hscaledValue
  obtain ⟨adjusted, hadjusted, hadjustedValue⟩ := minOf_same hscaledValue hrecValue
  -- all of them can be shown
  have hfits : ∀ {x : Dec} {q : ℚ}, x.toRat = some q → 0 ≤ q → q < 10 ^ 20 → ∃ z, money x = .ok z :=
    fun hx hq hsize => (money_spec hx hq).1.mp hsize
  have hshown : ∀ x ∈ shown h.toHost f (some av)
      [risk, limit, ZERO, daily, exposed, stakes, exposure], ∃ z, money x = .ok z := by
    refine shown_ok hmargin hequity (hfits hB hpos.le hsmall) fun x hx => ?_
    simp only [List.mem_cons, List.not_mem_nil, or_false] at hx
    rcases hx with rfl | rfl | rfl | rfl | rfl | rfl | rfl | rfl
    · exact hfits havValue hR hlt
    · exact hfits hriskValue hR hlt
    · exact hfits hlimitValue hR hlt
    · exact hfits zero_value le_rfl (by norm_num)
    · exact hfits hdailyValue hR hlt
    · exact hfits hexposedValue hR hlt
    · exact hfits hstakesValue le_rfl (by norm_num)
    · exact hfits hexposureValue hR hlt
  obtain ⟨amounts, hamounts⟩ := mapM_money_ok hshown
  obtain ⟨stake, hstake⟩ := hfits hadjustedValue hR hlt
  refine ⟨⟨risk, daily, exposure, av, stake⟩, ?_, ?_⟩
  · unfold build
    refine bind_ok.mpr ⟨some av, havailable, bind_ok.mpr ⟨ZERO, rfl, bind_ok.mpr ⟨stakes, hstakes, ?_⟩⟩⟩
    refine bind_ok.mpr ⟨one₁, hone₁, bind_ok.mpr ⟨one₂, hone₂, bind_ok.mpr ⟨one₃, hone₃, ?_⟩⟩⟩
    refine bind_ok.mpr ⟨risk, hrisk, bind_ok.mpr ⟨limit, hlimit, bind_ok.mpr ⟨daily, ?_, ?_⟩⟩⟩
    · rw [hbalance]
      exact hdaily
    refine bind_ok.mpr ⟨exposed, hexposed, bind_ok.mpr ⟨exposure, ?_, ?_⟩⟩
    · rw [hbalance]
      exact hexposure
    refine bind_ok.mpr ⟨m₃, ?_, ?_⟩
    · exact bind_ok.mpr ⟨m₁, hm₁, bind_ok.mpr ⟨m₂, hm₂, bind_ok.mpr ⟨m₃, hm₃, rfl⟩⟩⟩
    refine bind_ok.mpr ⟨recommended, hrec, bind_ok.mpr ⟨scaled, hscaled, ?_⟩⟩
    refine bind_ok.mpr ⟨adjusted, hadjusted, bind_ok.mpr ⟨amounts, hamounts, ?_⟩⟩
    exact bind_ok.mpr ⟨stake, hstake, rfl⟩
  · obtain ⟨k, hk, _, hhigh⟩ := (money_spec hadjustedValue hR).2 stake hstake
    rw [hk]
    intro hnone
    have hzero : (k : ℚ) / 10 ^ 8 = 0 := Option.some.inj hnone
    have hk0 : (k : ℚ) = 0 := by simpa using hzero
    rw [hk0] at hhigh
    linarith

end StandIn

/-! ## When the budget is conservative -/

theorem conservative_iff (h : TextHost) (f : Funds) (b : Book) :
    Conservative h.toHost f b ↔
      ¬ StandIn h.toHost f ∧ (b.exposure_unknown = true ∨ b.Linked) := by
  constructor
  · intro hcons
    constructor
    · intro hf
      obtain ⟨ctx, hctx, hstake⟩ := standIn_stake h hf
      refine hstake (hcons.zero _ _ _ _ _ ctx hctx ?_)
      exact Or.inr (Or.inr (Or.inl ⟨hf.1.1, Or.inr hf.1.2.2.1⟩))
    · cases hstakes : b.exposure_unknown with
      | true => exact Or.inl rfl
      | false => exact Or.inr fun trade => (Book.counted_iff trade).mp (hcons.once hstakes trade)
  · rintro ⟨hf, hrows⟩
    constructor
    · intro profile rows today confidence volatility ctx hctx
      obtain ⟨_, _, _, _, _, hwithin⟩ := build_spec hctx
      exact hwithin.capped
    · intro profile rows today confidence volatility ctx hctx hunknown
      obtain ⟨_, _, _, _, _, hwithin⟩ := build_spec hctx
      exact hwithin.zero hunknown hf
    · intro hstakes trade
      have hlinked := hrows.resolve_left (by rw [hstakes]; nofun)
      exact (Book.counted_iff trade).mpr (hlinked trade)
    · intro profile rows today confidence volatility ctx hctx amount x hx
      exact proposalAmount_atMost hx

/-- A filled order and its position, which has no id of an order: the trade is counted twice. -/
theorem counted_twice :
    ¬ Conservative TextHost.ascii.toHost
      ⟨.value (.int 100), .value .none, .value .none, .value (.int 100)⟩
      ⟨[⟨1, .filled, "C1", .finite false 10 0⟩], [⟨1, "open", "", some (.finite false 10 0)⟩], []⟩ := by
  intro hcons
  have hopen : Book.Open ⟨[⟨1, .filled, "C1", .finite false 10 0⟩],
      [⟨1, "open", "", some (.finite false 10 0)⟩], []⟩ 1 := by
    refine ⟨?_, Or.inl (by decide)⟩
    rintro ⟨t, ht, _⟩
    cases ht
  have hknown : Book.exposure_unknown ⟨[⟨1, .filled, "C1", .finite false 10 0⟩],
      [⟨1, "open", "", some (.finite false 10 0)⟩], []⟩ = false := by
    decide +kernel
  have honce := (hcons.once hknown 1).1 hopen
  revert honce
  decide

end AlgoBot.Analysis
