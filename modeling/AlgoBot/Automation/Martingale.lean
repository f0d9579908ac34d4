import AlgoBot.Automation.Workflows

/-!
# The martingale stake

`ActionService._martingale_stake` looks back over the newest orders of a node, up to one
more than its largest number of steps, and `_execute_trade` submits what it returns.

* `martingale_submits_iff`: what is submitted, if the ignored orders do not crowd the lost
  ones out of those that are looked at: nothing while an order is unresolved, nothing
  after too many losses or above the largest stake, and otherwise the base times the power
  of the multiplier.
* `stake_refused`: a stake that is refused, and not cut to the largest one.
-/

namespace AlgoBot.Automation.Martingale

open AlgoBot.Core AlgoBot.Python
open AlgoBot.Automation.Conditions (FloatHost)
open AlgoBot.Automation.Workflows (validateMartingale martingaleNumbers orError_eq_nil)

/-! ## Orders and positions -/

/-- Where an order node trades. -/
structure Site where
  user : ℕ
  account : ℕ
  workflow_id : ℕ
  node_id : String

/-- A row of `brokers.Order`; `automation` is what its routing context says about the workflow and
the node. -/
structure Order where
  user : ℕ
  account : ℕ
  automation : Option (ℕ × String)
  status : String
  broker_order_id : String

structure Position where
  status : String
  profit : Option ℚ

/-- The position of the account with a contract id. -/
abbrev Positions := String → Option Position

/-- The orders of a node. -/
def Site.orders (site : Site) (orders : List Order) : List Order :=
  orders.filter fun order => order.user = site.user ∧ order.account = site.account ∧
    order.automation = some (site.workflow_id, site.node_id)

/-- What keeps a trade from being submitted. -/
inductive Refusal where
  | workflow (message : String)
  | signal (s : Dec.Signal)
deriving DecidableEq, Repr

/-- What an order means for the streak. -/
inductive Kind where
  | ignored
  | unresolved (message : String)
  | lost
  | notLost
deriving DecidableEq, Repr

def unresolvedStatuses : List String :=
  ["pending", "submitted", "queued", "approved", "created", "validated"]

def ignoredStatuses : List String := ["rejected", "failed", "cancelled", "expired"]

def settledStatuses : List String := ["closed", "expired", "sold", "settled", "won", "lost"]

/-- The cases of the loop. -/
def kindOf (h : Host) (positions : Positions) (previous : Order) : Kind :=
  if previous.status ∈ unresolvedStatuses then
    .unresolved "Martingale is paused because the previous broker order has unresolved execution state."
  else if previous.status ∈ ignoredStatuses then .ignored
  else
    match (positions previous.broker_order_id).filter fun position =>
      h.lower position.status ∈ settledStatuses with
    | none => .unresolved ("Martingale is waiting for the previous broker position to close and " ++
        "reconcile; no new order was submitted.")
    | some position =>
      match position.profit with
      | none => .unresolved ("Martingale is waiting for a reconciled position profit/loss; " ++
          "no new order was submitted.")
      | some profit => if profit < 0 then .lost else .notLost

/-! ## `_martingale_stake` -/

/-- The loop over the orders, from a streak. -/
def streakOf (kind : Order → Kind) (max_steps : ℕ) : ℕ → List Order → Except Refusal ℕ
  | loss_streak, [] => .ok loss_streak
  | loss_streak, previous :: orders =>
    match kind previous with
    | .unresolved message => .error (.workflow message)
    | .ignored => streakOf kind max_steps loss_streak orders
    | .lost =>
      if max_steps ≤ loss_streak + 1 then
        .error (.workflow "Martingale maximum consecutive-loss steps reached; automation stopped.")
      else streakOf kind max_steps (loss_streak + 1) orders
    -- a break-even or profitable result resets the progression
    | .notLost => .ok loss_streak

/-- The configuration, as it is read for the stake. -/
structure Settings where
  base_stake : Dec
  multiplier : Dec
  max_steps : ℕ
  max_stake : Dec
deriving DecidableEq

def orSignal {α : Type} (x : Except Dec.Signal α) : Except Refusal α := x.mapError .signal

/-- `base_stake * (multiplier ** loss_streak)`. -/
def nextStake (settings : Settings) (loss_streak : ℕ) : Except Refusal Dec := do
  let power ← orSignal (Dec.pow settings.multiplier loss_streak)
  orSignal (Dec.mul settings.base_stake power)

/-- `martingale_state`. -/
structure State where
  loss_streak : ℕ
  next_stake : Dec
  settings : Settings

/-- `_martingale_stake`; the orders come newest first. -/
def martingaleStake (h : Host) (positions : Positions) (orders : List Order) (site : Site)
    (settings : Settings) : Except Refusal State := do
  let previous_orders := (site.orders orders).take (settings.max_steps + 1)
  let loss_streak ← streakOf (kindOf h positions) settings.max_steps 0 previous_orders
  let next_stake ← nextStake settings loss_streak
  if ← orSignal (Dec.gt next_stake settings.max_stake) then
    throw (.workflow "Martingale stake would exceed max_stake; automation stopped.")
  return ⟨loss_streak, next_stake, settings⟩

/-! ## `_execute_trade` -/

/-- `Decimal(str(v))`; an `InvalidOperation` is caught for the stake only. -/
def readDecimal (h : Host) (v : Value) : Except Refusal Dec :=
  match decimalOfText h (v.toStr h) with
  | some d => .ok d
  | none => .error (.signal .invalidOperation)

/-- The stake of the action itself. -/
def ownStake (h : Host) (action : Dict) : Except Refusal Dec :=
  match decimalOfText h ((action.get "stake").toStr h) with
  | some stake =>
    match stake.toRat with
    | some q =>
      if 0 < q then .ok stake
      else .error (.workflow "execute_trade requires a valid positive stake.")
    | none => .error (.workflow "execute_trade requires a valid positive stake.")
  | none => .error (.workflow "execute_trade requires a valid positive stake.")

/-- `Decimal(str(martingale.get("base_stake", stake)))`. -/
def baseStake (h : Host) (config : Dict) (stake : Dec) : Except Refusal Dec :=
  match config.lookup "base_stake" with
  | some v => readDecimal h v
  | none => .ok stake

/-- The numbers of an accepted configuration. -/
def readSettings (h : FloatHost) (config : Dict) (stake : Dec) : Except Refusal Settings := do
  let base_stake ← baseStake h.toHost config stake
  let multiplier ← readDecimal h.toHost (config.getD "multiplier" (.int 2))
  let max_stake ← readDecimal h.toHost (config.get "max_stake")
  -- the conversion does not fail for an accepted configuration
  let max_steps := ((config.getD "max_steps" (.int 5)).toInt h.toHost).toOption.getD 0
  return ⟨base_stake, multiplier, max_steps.toNat, max_stake⟩

/-- The martingale of an action, if it has one. -/
def settingsOf (h : FloatHost) (action : Dict) (stake : Dec) : Except Refusal (Option Settings) :=
  if action.contains "martingale" then
    match action.get "martingale" with
    | .dict config =>
      if validateMartingale h config ≠ [] then
        .error (.workflow ("; ".intercalate (validateMartingale h config)))
      else (readSettings h config stake).map some
    | _ => .error (.workflow "martingale configuration must be an object.")
  else .ok none

/-- The stake that `_execute_trade` submits, once the account and the instrument are checked. -/
def submittedStake (h : FloatHost) (positions : Positions) (orders : List Order) (site : Site)
    (action : Dict) : Except Refusal Dec := do
  let stake ← ownStake h.toHost action
  match ← settingsOf h action stake with
  | none => return stake
  | some settings =>
    let state ← martingaleStake h.toHost positions orders site settings
    return state.next_stake

/-! ## The streak of a history -/

section Streak

variable (kind : Order → Kind)

/-- The orders that count. -/
def counted (history : List Order) : List Order := history.filter fun order => kind order ≠ .ignored

/-- The number of lost orders since the last one that counts and is not lost. -/
def lossStreak (history : List Order) : ℕ :=
  ((counted kind history).takeWhile fun order => kind order = .lost).length

/-- The last order that counts and is not lost, if there is one. -/
def lastOther (history : List Order) : Option Order :=
  ((counted kind history).dropWhile fun order => kind order = .lost).head?

/-- No order since the last settled one that is not lost waits for its result. -/
def Resolved (history : List Order) : Prop :=
  ∀ order ∈ lastOther kind history, kind order = .notLost

/-- The ignored orders do not crowd the others out of the newest `max_steps + 1`. -/
def Seen (max_steps : ℕ) (history : List Order) : Prop :=
  counted kind (history.drop (max_steps + 1)) = [] ∨
    (lastOther kind (history.take (max_steps + 1))).isSome ∨
    max_steps ≤ lossStreak kind (history.take (max_steps + 1))

variable {kind} {previous : Order} {history : List Order}

/-! ### One order -/

theorem counted_ignored (hkind : kind previous = .ignored) :
    counted kind (previous :: history) = counted kind history := by
  simp [counted, hkind]

theorem counted_other (hkind : kind previous ≠ .ignored) :
    counted kind (previous :: history) = previous :: counted kind history := by
  simp [counted, hkind]

theorem lossStreak_ignored (hkind : kind previous = .ignored) :
    lossStreak kind (previous :: history) = lossStreak kind history := by
  simp only [lossStreak, counted_ignored hkind]

theorem lastOther_ignored (hkind : kind previous = .ignored) :
    lastOther kind (previous :: history) = lastOther kind history := by
  simp only [lastOther, counted_ignored hkind]

theorem lossStreak_lost (hkind : kind previous = .lost) :
    lossStreak kind (previous :: history) = lossStreak kind history + 1 := by
  have hcounts : kind previous ≠ .ignored := by simp [hkind]
  simp [lossStreak, counted_other hcounts, hkind]

theorem lastOther_lost (hkind : kind previous = .lost) :
    lastOther kind (previous :: history) = lastOther kind history := by
  have hcounts : kind previous ≠ .ignored := by simp [hkind]
  simp [lastOther, counted_other hcounts, hkind]

theorem lossStreak_other (hcounts : kind previous ≠ .ignored) (hkind : kind previous ≠ .lost) :
    lossStreak kind (previous :: history) = 0 := by
  simp [lossStreak, counted_other hcounts, hkind]

theorem lastOther_other (hcounts : kind previous ≠ .ignored) (hkind : kind previous ≠ .lost) :
    lastOther kind (previous :: history) = some previous := by
  simp [lastOther, counted_other hcounts, hkind]

/-! ### The loop -/

/-- The loop finds the streak of the orders that it is given, unless it is too long or an order
waits for its result. -/
theorem streakOf_ok_iff {max_steps start streak : ℕ} (hstart : start < max_steps) :
    streakOf kind max_steps start history = .ok streak ↔
      Resolved kind history ∧ start + lossStreak kind history < max_steps ∧
        streak = start + lossStreak kind history := by
  -- the streak of the rest counts on from the streak so far
  induction history generalizing start with
  | nil =>
    have hnone : Resolved kind [] := by
      intro order horder
      cases horder
    simp [streakOf, lossStreak, counted, hnone, hstart, eq_comm]
  | cons previous history ih =>
    cases hkind : kind previous with
    | ignored =>
      simp only [streakOf, hkind, Resolved, lastOther_ignored hkind, lossStreak_ignored hkind]
      exact ih hstart
    | unresolved message =>
      have hcounts : kind previous ≠ .ignored := by simp [hkind]
      have hother : kind previous ≠ .lost := by simp [hkind]
      have hwaits : ¬ Resolved kind (previous :: history) := by
        intro hresolved
        have hsettled := hresolved previous (lastOther_other hcounts hother)
        rw [hkind] at hsettled
        cases hsettled
      simp [streakOf, hkind, hwaits]
    | lost =>
      simp only [streakOf, hkind, Resolved, lastOther_lost hkind, lossStreak_lost hkind]
      by_cases hmany : max_steps ≤ start + 1
      · -- the loop stops, with more losses perhaps to come
        rw [if_pos hmany]
        constructor
        · intro herror
          cases herror
        · rintro ⟨_, hfew, _⟩
          omega
      · rw [if_neg hmany]
        have hnext : start + 1 < max_steps := by omega
        have hrest := ih hnext
        have hshift : start + 1 + lossStreak kind history =
            start + (lossStreak kind history + 1) := by omega
        rw [hshift] at hrest
        exact hrest
    | notLost =>
      have hcounts : kind previous ≠ .ignored := by simp [hkind]
      have hother : kind previous ≠ .lost := by simp [hkind]
      have hresolved : Resolved kind (previous :: history) := by
        intro order horder
        rw [lastOther_other hcounts hother] at horder
        obtain rfl := Option.some.inj horder
        exact hkind
      simp [streakOf, hkind, hresolved, lossStreak_other hcounts hother, hstart, eq_comm]

/-! ### The newest orders -/

variable {seen rest : List Order}

theorem counted_append : counted kind (seen ++ rest) = counted kind seen ++ counted kind rest :=
  List.filter_append ..

theorem lossStreak_eq_of_counted {history' : List Order}
    (hcounted : counted kind history = counted kind history') :
    lossStreak kind history = lossStreak kind history' := by
  simp only [lossStreak, hcounted]

theorem lastOther_eq_of_counted {history' : List Order}
    (hcounted : counted kind history = counted kind history') :
    lastOther kind history = lastOther kind history' := by
  simp only [lastOther, hcounted]

/-- What comes before an order that counts and is not lost has no part in the streak. -/
theorem append_of_isSome (rest : List Order) (hother : (lastOther kind seen).isSome) :
    lossStreak kind (seen ++ rest) = lossStreak kind seen ∧
      lastOther kind (seen ++ rest) = lastOther kind seen := by
  induction seen with
  | nil => cases hother
  | cons previous seen ih =>
    rw [List.cons_append]
    by_cases hignored : kind previous = .ignored
    · rw [lastOther_ignored hignored] at hother
      simp only [lossStreak_ignored hignored, lastOther_ignored hignored]
      exact ih hother
    · by_cases hlost : kind previous = .lost
      · -- the streak has not ended yet
        rw [lastOther_lost hlost] at hother
        obtain ⟨hstreak, hlast⟩ := ih hother
        simp only [lossStreak_lost hlost, lastOther_lost hlost]
        exact ⟨by rw [hstreak], hlast⟩
      · rw [lossStreak_other hignored hlost, lossStreak_other hignored hlost,
          lastOther_other hignored hlost, lastOther_other hignored hlost]
        exact ⟨rfl, rfl⟩

theorem lossStreak_le_append : lossStreak kind seen ≤ lossStreak kind (seen ++ rest) := by
  induction seen with
  | nil => exact Nat.zero_le _
  | cons previous seen ih =>
    rw [List.cons_append]
    by_cases hignored : kind previous = .ignored
    · rw [lossStreak_ignored hignored, lossStreak_ignored hignored]
      exact ih
    · by_cases hlost : kind previous = .lost
      · rw [lossStreak_lost hlost, lossStreak_lost hlost]
        exact Nat.succ_le_succ ih
      · rw [lossStreak_other hignored hlost]
        exact Nat.zero_le _

/-- The loop over the newest orders finds the streak of all of them. -/
theorem streakOf_take_ok_iff {max_steps streak : ℕ} (hpos : 0 < max_steps)
    (hseen : Seen kind max_steps history) :
    streakOf kind max_steps 0 (history.take (max_steps + 1)) = .ok streak ↔
      Resolved kind history ∧ lossStreak kind history < max_steps ∧
        streak = lossStreak kind history := by
  rw [streakOf_ok_iff hpos, Nat.zero_add]
  have hsplit := List.take_append_drop (max_steps + 1) history
  rcases hseen with hnone | hother | hmany
  · -- nothing that counts is left out
    have hcounted : counted kind (history.take (max_steps + 1)) = counted kind history := by
      calc counted kind (history.take (max_steps + 1))
          = counted kind (history.take (max_steps + 1)) ++
              counted kind (history.drop (max_steps + 1)) := by rw [hnone, List.append_nil]
        _ = counted kind (history.take (max_steps + 1) ++ history.drop (max_steps + 1)) :=
            counted_append.symm
        _ = counted kind history := by rw [hsplit]
    simp only [Resolved, lossStreak_eq_of_counted hcounted, lastOther_eq_of_counted hcounted]
  · -- the streak ends among the newest
    have hend : lossStreak kind history = lossStreak kind (history.take (max_steps + 1)) ∧
        lastOther kind history = lastOther kind (history.take (max_steps + 1)) := by
      have happend := append_of_isSome (history.drop (max_steps + 1)) hother
      rwa [hsplit] at happend
    obtain ⟨hstreak, hlast⟩ := hend
    simp only [Resolved, hstreak, hlast]
  · -- there are too many losses already
    have hle : lossStreak kind (history.take (max_steps + 1)) ≤ lossStreak kind history :=
      calc lossStreak kind (history.take (max_steps + 1))
          ≤ lossStreak kind (history.take (max_steps + 1) ++ history.drop (max_steps + 1)) :=
            lossStreak_le_append
        _ = lossStreak kind history := by rw [hsplit]
    constructor
    · rintro ⟨_, hfew, _⟩
      omega
    · rintro ⟨_, hfew, _⟩
      omega

end Streak

/-! ## What is submitted -/

section Submitted

variable {h : FloatHost} {positions : Positions} {orders : List Order} {site : Site} {action : Dict}
  {own : Dec} {settings : Settings}

theorem orSignal_ok {α : Type} {x : Except Dec.Signal α} {a : α} :
    orSignal x = .ok a ↔ x = .ok a := by
  cases x <;> simp [orSignal, Except.mapError]

/-- An accepted configuration allows a step at least. -/
theorem max_steps_pos {config : Dict} (haccepted : validateMartingale h config = []) :
    1 ≤ ((config.getD "max_steps" (.int 5)).toInt h.toHost).toOption.getD 0 := by
  have hnumbers : ∃ base_stake multiplier max_steps max_stake,
      martingaleNumbers h config = some (base_stake, multiplier, max_steps, max_stake) ∧
        1 ≤ max_steps := by
    rw [validateMartingale, orError_eq_nil, Bool.not_eq_false'] at haccepted
    cases hread : martingaleNumbers h config with
    | none =>
      rw [hread] at haccepted
      cases haccepted
    | some numbers =>
      obtain ⟨base_stake, multiplier, max_steps, max_stake⟩ := numbers
      rw [hread] at haccepted
      refine ⟨_, _, _, _, rfl, ?_⟩
      simp only [Bool.and_eq_true, Bool.not_eq_true', Bool.or_eq_false_iff,
        decide_eq_false_iff_not] at haccepted
      omega
  obtain ⟨base_stake, multiplier, max_steps, max_stake, hread, hpos⟩ := hnumbers
  simp only [martingaleNumbers, Option.bind_eq_bind, Option.bind_eq_some_iff, Option.pure_def,
    Option.some.injEq, Prod.mk.injEq] at hread
  obtain ⟨_, _, _, _, steps, hsteps, _, _, _, _, rfl, _⟩ := hread
  rw [hsteps]
  exact hpos

theorem max_steps_of_readSettings {config : Dict}
    (hread : readSettings h config own = .ok settings) :
    settings.max_steps =
      (((config.getD "max_steps" (.int 5)).toInt h.toHost).toOption.getD 0).toNat := by
  unfold readSettings at hread
  obtain ⟨base_stake, _, hread⟩ := bind_ok.mp hread
  obtain ⟨multiplier, _, hread⟩ := bind_ok.mp hread
  obtain ⟨max_stake, _, hread⟩ := bind_ok.mp hread
  cases hread
  rfl

theorem max_steps_pos_of_settings (hsettings : settingsOf h action own = .ok (some settings)) :
    0 < settings.max_steps := by
  unfold settingsOf at hsettings
  split at hsettings
  · split at hsettings
    · next config _ =>
      split at hsettings
      · cases hsettings
      · next haccepted =>
        rw [not_not] at haccepted
        cases hread : readSettings h config own with
        | error e =>
          rw [hread] at hsettings
          cases hsettings
        | ok found =>
          rw [hread] at hsettings
          cases hsettings
          have hpos := max_steps_pos haccepted
          rw [max_steps_of_readSettings hread]
          omega
    · cases hsettings
  · cases hsettings

/-- The stake, once the streak is known. -/
theorem martingaleStake_ok_iff {state : State} :
    martingaleStake h.toHost positions orders site settings = .ok state ↔
      streakOf (kindOf h.toHost positions) settings.max_steps 0
          ((site.orders orders).take (settings.max_steps + 1)) = .ok state.loss_streak ∧
        nextStake settings state.loss_streak = .ok state.next_stake ∧
        Dec.gt state.next_stake settings.max_stake = .ok false ∧ state.settings = settings := by
  unfold martingaleStake
  constructor
  · intro hok
    obtain ⟨streak, hstreak, hok⟩ := bind_ok.mp hok
    obtain ⟨next_stake, hnext, hok⟩ := bind_ok.mp hok
    obtain ⟨above, habove, hok⟩ := bind_ok.mp hok
    cases above with
    | true => cases hok
    | false =>
      cases hok
      exact ⟨hstreak, hnext, orSignal_ok.mp habove, rfl⟩
  · rintro ⟨hstreak, hnext, habove, hsame⟩
    obtain ⟨streak, next_stake, settings'⟩ := state
    subst hsame
    refine bind_ok.mpr ⟨streak, hstreak, bind_ok.mpr ⟨next_stake, hnext, ?_⟩⟩
    exact bind_ok.mpr ⟨false, orSignal_ok.mpr habove, rfl⟩

/-- As long as the digits do not exceed the precision, the next stake is the base times the power of
the multiplier. -/
theorem nextStake_exact {b m k : ℕ} {e f : ℤ} {base multiplier : ℚ}
    (hbase : settings.base_stake = .finite false b e)
    (hmultiplier : settings.multiplier = .finite false m f)
    (hb : settings.base_stake.toRat = some base) (hm : settings.multiplier.toRat = some multiplier)
    (hpos : 0 < m) (he : e ≤ 0) (hf : f ≤ 0) (hpower : m ^ k < 10 ^ Dec.prec)
    (hfits : b * m ^ k < 10 ^ Dec.prec) :
    ∃ x, nextStake settings k = .ok x ∧ x.toRat = some (base * multiplier ^ k) := by
  have hscale : f * k ≤ 0 := mul_nonpos_of_nonpos_of_nonneg hf (Int.natCast_nonneg k)
  have hpow : Dec.pow settings.multiplier k = .ok (.finite false (m ^ k) (f * k)) := by
    rw [hmultiplier]
    cases k with
    | zero => simp [Dec.pow, hpos.ne']
    | succ k => exact Dec.mulFinite_of_lt hpower hscale
  refine ⟨.finite false (b * m ^ k) (e + f * k), ?_, ?_⟩
  · have hmul : Dec.mul settings.base_stake (.finite false (m ^ k) (f * k)) =
        .ok (.finite false (b * m ^ k) (e + f * k)) := by
      rw [hbase]
      exact Dec.mulFinite_of_lt hfits (by omega)
    exact bind_ok.mpr ⟨_, orSignal_ok.mpr hpow, orSignal_ok.mpr hmul⟩
  · rw [hbase] at hb
    rw [hmultiplier] at hm
    obtain rfl := Option.some.inj hb
    obtain rfl := Option.some.inj hm
    have hten : (10 : ℚ) ≠ 0 := by norm_num
    simp only [Dec.toRat, Option.some.injEq, Bool.false_eq_true, if_false, one_mul]
    rw [zpow_add₀ hten, zpow_mul, zpow_natCast, mul_pow]
    push_cast
    ring

/-- A martingale node submits a stake exactly if no order waits for its result, there are fewer
losses than steps and the stake is not above the largest one, and then it is the base times the
power of the multiplier, if the ignored orders do not crowd the others out. -/
theorem martingale_submits_iff (h : FloatHost) (positions : Positions) (orders : List Order)
    (site : Site) (action : Dict) (own stake : Dec) (settings : Settings)
    (hown : ownStake h.toHost action = .ok own)
    (hsettings : settingsOf h action own = .ok (some settings))
    (hseen : Seen (kindOf h.toHost positions) settings.max_steps (site.orders orders)) :
    submittedStake h positions orders site action = .ok stake ↔
      Resolved (kindOf h.toHost positions) (site.orders orders) ∧
        lossStreak (kindOf h.toHost positions) (site.orders orders) < settings.max_steps ∧
        nextStake settings (lossStreak (kindOf h.toHost positions) (site.orders orders)) =
          .ok stake ∧
        Dec.gt stake settings.max_stake = .ok false := by
  have hstreak : ∀ streak, streakOf (kindOf h.toHost positions) settings.max_steps 0
      ((site.orders orders).take (settings.max_steps + 1)) = .ok streak ↔
        Resolved (kindOf h.toHost positions) (site.orders orders) ∧
          lossStreak (kindOf h.toHost positions) (site.orders orders) < settings.max_steps ∧
          streak = lossStreak (kindOf h.toHost positions) (site.orders orders) := by
    intro streak
    exact streakOf_take_ok_iff (max_steps_pos_of_settings hsettings) hseen
  unfold submittedStake
  constructor
  · intro hok
    obtain ⟨own', hown', hok⟩ := bind_ok.mp hok
    rw [hown] at hown'
    cases hown'
    obtain ⟨found, hfound, hok⟩ := bind_ok.mp hok
    rw [hsettings] at hfound
    cases hfound
    obtain ⟨state, hstate, hok⟩ := bind_ok.mp hok
    cases hok
    obtain ⟨hloop, hnext, habove, _⟩ := martingaleStake_ok_iff.mp hstate
    obtain ⟨hresolved, hfew, hlosses⟩ := (hstreak _).mp hloop
    rw [hlosses] at hnext
    exact ⟨hresolved, hfew, hnext, habove⟩
  · rintro ⟨hresolved, hfew, hnext, habove⟩
    have hstate : martingaleStake h.toHost positions orders site settings =
        .ok ⟨_, stake, settings⟩ :=
      martingaleStake_ok_iff.mpr ⟨(hstreak _).mpr ⟨hresolved, hfew, rfl⟩, hnext, habove, rfl⟩
    refine bind_ok.mpr ⟨own, hown, bind_ok.mpr ⟨some settings, hsettings, ?_⟩⟩
    exact bind_ok.mpr ⟨_, hstate, rfl⟩

end Submitted

/-! ### A martingale -/

/-- Four steps from ten, with a largest stake. -/
def doubling (max_stake : ℤ) : Dict :=
  [("stake", .int 10),
    ("martingale", .dict [("base_stake", .int 10), ("max_steps", .int 4),
      ("max_stake", .int max_stake)])]

def doublingSettings (max_stake : ℕ) : Settings where
  base_stake := .finite false 10 0
  multiplier := .finite false 2 0
  max_steps := 4
  max_stake := .finite false max_stake 0

def site : Site := ⟨1, 1, 1, "1"⟩

/-- An order of the node. -/
def orderOf (status broker_order_id : String) : Order :=
  ⟨1, 1, some (1, "1"), status, broker_order_id⟩

/-- A loss after a rejected order and before a win, newest first. -/
def oneLoss : List Order :=
  [orderOf "rejected" "", orderOf "filled" "L", orderOf "filled" "W"]

def lostThenWon : Positions := fun contract_id =>
  if contract_id = "L" then some ⟨"sold", some (-10)⟩
  else if contract_id = "W" then some ⟨"sold", some 9⟩
  else none

/-- The second stake is twice the first one. -/
theorem martingale_submits_twenty :
    submittedStake .digits lostThenWon oneLoss site (doubling 100) = .ok (.finite false 20 0) := by
  have hown : ownStake FloatHost.digits.toHost (doubling 100) = .ok (.finite false 10 0) := by
    decide +kernel
  have hsettings : settingsOf .digits (doubling 100) (.finite false 10 0) =
      .ok (some (doublingSettings 100)) := by decide +kernel
  have hseen : Seen (kindOf FloatHost.digits.toHost lostThenWon) 4 (site.orders oneLoss) :=
    Or.inl (List.isEmpty_iff.mp (by decide +kernel))
  refine (martingale_submits_iff .digits lostThenWon oneLoss site (doubling 100)
    (.finite false 10 0) (.finite false 20 0) (doublingSettings 100) hown hsettings hseen).mpr
    ⟨?_, by decide +kernel, by decide +kernel, by decide +kernel⟩
  -- the last of the other orders is the win
  intro order horder
  have hlast : (lastOther (kindOf FloatHost.digits.toHost lostThenWon) (site.orders oneLoss)).all
      (fun order => kindOf FloatHost.digits.toHost lostThenWon order = .notLost) = true := by
    decide +kernel
  rw [horder] at hlast
  simpa using hlast

/-- After one loss the next stake is above the largest one: it is refused, and not cut. -/
theorem stake_refused :
    lossStreak (kindOf FloatHost.digits.toHost lostThenWon) (site.orders oneLoss) = 1 ∧
      settingsOf .digits (doubling 15) (.finite false 10 0) = .ok (some (doublingSettings 15)) ∧
      nextStake (doublingSettings 15) 1 = .ok (.finite false 20 0) ∧
      submittedStake .digits lostThenWon oneLoss site (doubling 15) = .error (.workflow
        "Martingale stake would exceed max_stake; automation stopped.") := by
  refine ⟨by decide +kernel, by decide +kernel, by decide +kernel, by decide +kernel⟩

end AlgoBot.Automation.Martingale
