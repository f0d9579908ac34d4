import AlgoBot.Core.Machine
import AlgoBot.Core.Table
import AlgoBot.Python.Value

/-!
# Limits of copied trades

`CopyRiskEngine.authorize` checks a signal against the limits of a follower. It takes
the number of concurrent trades from its caller, and `execute_copy` leaves it at zero.

* `limits_kept_iff`: the trades stay within the limits all along a run of signals and
  outcomes exactly if whatever makes a trade pending or open finds room for it, and
  trades are recorded only for followers whose stake limit is not negative.
* `limits_exceeded`: two signals to a follower with room for one.
-/

namespace AlgoBot.CopyTrading

open AlgoBot.Core AlgoBot.Python

/-! ## Rows -/

inductive FollowerStatus where
  | active
  | paused
  | stopped
deriving DecidableEq, Repr

/-- The limits of a follower: hundredths of a stake, trades, and ten-thousandths of a
multiplier, which is not negative. -/
structure Limits where
  max_trade_stake : ℤ
  max_concurrent_trades : ℕ
  copy_multiplier : ℕ
deriving DecidableEq, Repr

/-- A follower as its object reads at a call. -/
structure CopyFollower extends Limits where
  pk : ℕ
  status : FollowerStatus

inductive TradeStatus where
  | pending
  | accepted
  | rejected
  | opened
  | closed
  | cancelled
deriving DecidableEq, Repr

/-- Pending or open. -/
def TradeStatus.running : TradeStatus → Bool
  | .pending => true
  | .opened => true
  | _ => false

structure CopyTrade where
  pk : ℕ
  follower : ℕ
  provider_trade : String
  symbol : String
  direction : String
  stake : ℚ
  source_stake : ℚ
  status : TradeStatus
  rejection_reason : String
deriving DecidableEq

instance : HasPk CopyTrade := ⟨CopyTrade.pk⟩

@[simp] theorem pk_trade (t : CopyTrade) : HasPk.pk t = t.pk := rfl

/-! ## The services -/

/-- The largest stake, as a number. -/
def Limits.maxStake (l : Limits) : ℚ := l.max_trade_stake / 10 ^ 2

/-- The multiplier, as a decimal. -/
def Limits.multiplier (l : Limits) : Dec := .finite false l.copy_multiplier (-4)

section Services

variable (h : Host)

/-- `CopyRiskEngine.authorize`. -/
def authorize (follower : CopyFollower) (source_stake : Value) (concurrent_trades : ℕ) :
    Except Dec.Signal (Bool × String) :=
  if follower.status ≠ .active then .ok (false, "Follower is not active.")
  else
    match decimalOfText h (source_stake.toStr h) with
    | none => .ok (false, "Invalid source stake.")
    | some source => do
      if ← source.exceeds 0 then
        let stake ← source.mul follower.multiplier
        if ← stake.exceeds follower.maxStake then
          return (false, "Copied stake exceeds follower max trade stake.")
        else if follower.max_concurrent_trades ≤ concurrent_trades then
          return (false, "Maximum concurrent copied trades reached.")
        else return (true, "")
      else return (false, "Source stake must be positive.")

/-- The arguments of `execute_copy`. -/
structure Signal where
  follower : ℕ
  status : FollowerStatus
  symbol : Value
  direction : Value
  source_stake : Value
  provider_trade : Value

/-- What a column of four decimals keeps, or the error of a number that does not fit. -/
def column (x : Dec) : Except Dec.Signal ℚ :=
  match x.toColumn 14 4 with
  | some q => .ok q
  | none => .error .invalidOperation

/-- `CopyTradingEngine.execute_copy`: the row it creates, under a primary key. -/
def executeCopy (limits : ℕ → Limits) (c : Signal) : Except Dec.Signal (ℕ → CopyTrade) := do
  let follower : CopyFollower := { limits c.follower with pk := c.follower, status := c.status }
  -- the number of concurrent trades keeps its default
  let (allowed, reason) ← authorize h follower c.source_stake 0
  match decimalOfText h (c.source_stake.toStr h) with
  | none => .error .invalidOperation
  | some source =>
    let stake ← source.mul follower.multiplier
    let stake ← column (if allowed then stake else .finite false 0 0)
    let source_stake ← column source
    return fun pk =>
      { pk := pk
        follower := c.follower
        provider_trade := take 120 (c.provider_trade.toStr h)
        symbol := take 80 (c.symbol.toStr h)
        direction := take 20 (c.direction.toStr h)
        stake := stake
        source_stake := source_stake
        status := if allowed then .pending else .rejected
        rejection_reason := if allowed then "" else reason }

end Services

/-! ## Runs -/

inductive Action where
  /-- a signal of a provider reaches a follower -/
  | signal (c : Signal)
  /-- a trade gets another status -/
  | outcome (pk : ℕ) (status : TradeStatus)

/-- The trades of all followers. -/
abbrev Trades := Table CopyTrade

theorem executeCopy_pk {h : Host} {limits : ℕ → Limits} {c : Signal} {row : ℕ → CopyTrade}
    (hok : executeCopy h limits c = .ok row) (k : ℕ) : HasPk.pk (row k) = k := by
  unfold executeCopy at hok
  rcases bind_ok.mp hok with ⟨verdict, _, hok⟩
  dsimp only at hok
  split at hok
  · cases hok
  · rcases bind_ok.mp hok with ⟨stake, _, hok⟩
    rcases bind_ok.mp hok with ⟨stored, _, hok⟩
    rcases bind_ok.mp hok with ⟨source, _, hok⟩
    cases hok
    rfl

/-- A signal that raises and an outcome of no trade leave the table as it is. -/
def afterAction (h : Host) (limits : ℕ → Limits) (s : Trades) : Action → Trades
  | .signal c =>
    match hok : executeCopy h limits c with
    | .ok row => s.create row (executeCopy_pk hok)
    | .error _ => s
  | .outcome pk status =>
    match s.get? pk with
    | some trade => s.set { trade with status := status }
    | none => s

/-- Signals and outcomes in any order. -/
def copying (h : Host) (limits : ℕ → Limits) : Machine Trades Action :=
  ⟨fun s a => some (afterAction h limits s a)⟩

/-- The pending and open trades of a follower. -/
def running (s : Trades) (follower : ℕ) : ℕ :=
  s.sum fun t => if t.follower = follower ∧ t.status.running = true then 1 else 0

/-- The trades are within the limits of their followers. -/
structure Within (limits : ℕ → Limits) (s : Trades) : Prop where
  concurrent : ∀ k, running s k ≤ (limits k).max_concurrent_trades
  stake : ∀ t ∈ s, t.stake ≤ (limits t.follower).maxStake

/-- The signal is authorized by `execute_copy`. -/
def authorized (h : Host) (limits : ℕ → Limits) (c : Signal) : Bool :=
  match authorize h { limits c.follower with pk := c.follower, status := c.status }
    c.source_stake 0 with
  | .ok verdict => verdict.1
  | .error _ => false

/-- Room for one more trade of the follower. -/
def HasRoom (limits : ℕ → Limits) (s : Trades) (follower : ℕ) : Prop :=
  running s follower < (limits follower).max_concurrent_trades

/-- Whatever makes a trade pending or open finds room, and trades are recorded for followers with
a stake limit that is not negative. -/
def Roomy (h : Host) (limits : ℕ → Limits) (s : Trades) : Action → Prop
  | .signal c => (∃ row, executeCopy h limits c = .ok row) →
    (authorized h limits c = true → HasRoom limits s c.follower) ∧
      0 ≤ (limits c.follower).max_trade_stake
  | .outcome pk status => ∀ t, s.get? pk = some t → t.status.running = false →
    status.running = true → HasRoom limits s t.follower

section Steps

variable {h : Host} {limits : ℕ → Limits} {s : Trades} {c : Signal} {row : ℕ → CopyTrade}

/-- A product with a multiplier that is at most the limit is not negative, and so is not the
limit. -/
theorem maxStake_nonneg {source stake : Dec} {l : Limits} (hsource : source.exceeds 0 = .ok true)
    (hmul : source.mul l.multiplier = .ok stake) (hstake : stake.exceeds l.maxStake = .ok false) :
    0 ≤ l.max_trade_stake := by
  have hmax : ∀ {coeff : ℕ} {exp : ℤ}, stake = .finite false coeff exp → 0 ≤ l.maxStake := by
    intro coeff exp hfinite
    rw [hfinite] at hstake
    simp only [Dec.exceeds, Except.ok.injEq, decide_eq_false_iff_not, not_lt] at hstake
    refine le_trans ?_ hstake
    simp only [Bool.false_eq_true, if_false]
    positivity
  have hnonneg : 0 ≤ l.maxStake → 0 ≤ l.max_trade_stake := by
    intro h
    rw [Limits.maxStake, le_div_iff₀ (by norm_num), zero_mul] at h
    exact_mod_cast h
  cases source with
  | finite neg coeff exp =>
    have hneg : neg = false := by
      cases neg with
      | false => rfl
      | true =>
        have hle : (0 : ℚ) ≤ coeff * (10 : ℚ) ^ exp := by positivity
        simp only [Dec.exceeds, if_true, Except.ok.injEq, decide_eq_true_eq] at hsource
        linarith
    subst hneg
    simp only [Limits.multiplier, Dec.mul, Dec.mulFinite] at hmul
    split at hmul
    · cases hmul
      exact hnonneg (hmax rfl)
    · split at hmul
      · cases hmul
      · cases hmul
        exact hnonneg (hmax rfl)
  | inf neg =>
    simp only [Dec.exceeds, Except.ok.injEq, Bool.not_eq_true'] at hsource
    simp only [Limits.multiplier, Dec.mul, hsource] at hmul
    split at hmul
    · cases hmul
    · cases hmul
      cases hstake
  | nan => cases hsource
  | snan => cases hsource

/-- What an authorization says about the stake. -/
theorem of_authorized {follower : CopyFollower} {v : Value} {n : ℕ} {reason : String}
    (hok : authorize h follower v n = .ok (true, reason)) :
    ∃ source stake, decimalOfText h (v.toStr h) = some source ∧ source.exceeds 0 = .ok true ∧
      source.mul follower.multiplier = .ok stake ∧
      stake.exceeds follower.maxStake = .ok false := by
  unfold authorize at hok
  split at hok
  · cases hok
  · split at hok
    · cases hok
    · next source hsource =>
      rcases bind_ok.mp hok with ⟨positive, hpositive, hok⟩
      split at hok
      · next hp =>
        rcases bind_ok.mp hok with ⟨stake, hstake, hok⟩
        rcases bind_ok.mp hok with ⟨above, habove, hok⟩
        split at hok
        · cases hok
        · next hbelow =>
          refine ⟨source, stake, hsource, ?_, hstake, ?_⟩
          · rw [hpositive, hp]
          · rw [habove, Bool.eq_false_iff.mpr hbelow]
      · cases hok

/-- Two decimals are four decimals. -/
theorem maxStake_units {l : Limits} (hmax : 0 ≤ l.max_trade_stake) :
    l.maxStake = ((100 * l.max_trade_stake.toNat : ℕ) : ℚ) / 10 ^ 4 := by
  have hcast : (l.max_trade_stake.toNat : ℚ) = l.max_trade_stake := by
    exact_mod_cast Int.toNat_of_nonneg hmax
  rw [Limits.maxStake, Nat.cast_mul, hcast]
  norm_num
  ring

theorem column_le {x : Dec} {q : ℚ} {l : Limits} (hmax : 0 ≤ l.max_trade_stake)
    (hx : x.exceeds l.maxStake = .ok false) (hq : column x = .ok q) : q ≤ l.maxStake := by
  rw [maxStake_units hmax] at hx ⊢
  unfold column at hq
  split at hq
  · next r hr =>
    cases hq
    exact Dec.toColumn_le hx hr
  · cases hq

/-- What `execute_copy` records. -/
structure Recorded (h : Host) (limits : ℕ → Limits) (c : Signal) (trade : CopyTrade) : Prop where
  follower : trade.follower = c.follower
  status : trade.status = if authorized h limits c = true then .pending else .rejected
  stake : 0 ≤ (limits c.follower).max_trade_stake ↔ trade.stake ≤ (limits c.follower).maxStake

theorem executeCopy_spec (hok : executeCopy h limits c = .ok row) (k : ℕ) :
    Recorded h limits c (row k) := by
  unfold executeCopy at hok
  rcases bind_ok.mp hok with ⟨⟨allowed, reason⟩, hauth, hok⟩
  have hallowed : authorized h limits c = allowed := by rw [authorized, hauth]
  dsimp only at hok
  split at hok
  · cases hok
  · next source hsource =>
    rcases bind_ok.mp hok with ⟨stake, hmul, hok⟩
    rcases bind_ok.mp hok with ⟨stored, hstored, hok⟩
    rcases bind_ok.mp hok with ⟨source_stake, _, hok⟩
    cases hok
    refine ⟨rfl, by rw [hallowed], ?_⟩
    cases allowed with
    | true =>
      rcases of_authorized hauth with ⟨source', stake', hsource', hpositive, hmul', hbelow⟩
      rw [hsource] at hsource'
      cases hsource'
      have hsame : stake = stake' := Except.ok.inj (hmul.symm.trans hmul')
      subst hsame
      have hmax : 0 ≤ (limits c.follower).max_trade_stake :=
        maxStake_nonneg hpositive hmul hbelow
      exact iff_of_true hmax (column_le hmax hbelow hstored)
    | false =>
      have hzero : stored = 0 := by
        have hcolumn : column (.finite false 0 0) = .ok 0 := by decide +kernel
        exact Except.ok.inj (hstored.symm.trans hcolumn)
      rw [hzero, Limits.maxStake, le_div_iff₀ (by norm_num), zero_mul]
      exact_mod_cast Iff.rfl

/-- A recorded signal keeps the limits exactly if it finds room and a limit that is not negative. -/
theorem within_create (hs : Within limits s) (hpk : ∀ k, HasPk.pk (row k) = k)
    (hrow : Recorded h limits c (row s.nextPk)) :
    Within limits (s.create row hpk) ↔
      (authorized h limits c = true → HasRoom limits s c.follower) ∧
        0 ≤ (limits c.follower).max_trade_stake := by
  let new := row s.nextPk
  have hrunning : ∀ k, running (s.create row hpk) k =
      (if new.follower = k ∧ new.status.running = true then 1 else 0) + running s k := by
    intro k
    rw [running, Table.sum_create]
    rfl
  have hstatus : new.status.running = true ↔ authorized h limits c = true := by
    rw [hrow.status]
    by_cases hauth : authorized h limits c = true
    · simp [hauth, TradeStatus.running]
    · simp [hauth, TradeStatus.running]
  constructor
  · intro hafter
    constructor
    · intro hauth
      have hcount := hafter.concurrent c.follower
      rw [hrunning, if_pos ⟨hrow.follower, hstatus.mpr hauth⟩] at hcount
      unfold HasRoom
      omega
    · have hstake := hafter.stake new List.mem_cons_self
      rw [hrow.follower] at hstake
      exact hrow.stake.mpr hstake
  · rintro ⟨hroom, hmax⟩
    constructor
    · intro k
      have hbefore := hs.concurrent k
      rw [hrunning]
      split
      · next hnew =>
        have hspace := hroom (hstatus.mp hnew.2)
        rw [HasRoom, ← hrow.follower, hnew.1] at hspace
        omega
      · omega
    · intro t ht
      rcases Table.mem_create ht with rfl | ht
      · rw [hrow.follower]
        exact hrow.stake.mp hmax
      · exact hs.stake t ht

/-- An outcome keeps the limits exactly if a trade it starts running finds room. -/
theorem within_set {t : CopyTrade} {status : TradeStatus} (hs : Within limits s)
    (ht : s.get? t.pk = some t) :
    Within limits (s.set { t with status := status }) ↔
      (t.status.running = false → status.running = true → HasRoom limits s t.follower) := by
  let weigh : ℕ → CopyTrade → ℕ := fun k t =>
    if t.follower = k ∧ t.status.running = true then 1 else 0
  have hrunning : ∀ k, running (s.set { t with status := status }) k + weigh k t =
      running s k + weigh k { t with status := status } := by
    intro k
    exact Table.sum_set (r := { t with status := status }) (weigh k) ht
  constructor
  · intro hafter hnot hruns
    have hcount := hafter.concurrent t.follower
    have hsum := hrunning t.follower
    have hold : weigh t.follower t = 0 := by simp [weigh, hnot]
    have hnew : weigh t.follower { t with status := status } = 1 := by simp [weigh, hruns]
    unfold HasRoom
    omega
  · intro hroom
    constructor
    · intro k
      have hbefore := hs.concurrent k
      have hsum := hrunning k
      by_cases hstarts : t.follower = k ∧ t.status.running = false ∧ status.running = true
      · have hspace := hroom hstarts.2.1 hstarts.2.2
        have hnew : weigh k { t with status := status } ≤ 1 := by
          simp only [weigh]
          split <;> omega
        rw [HasRoom, hstarts.1] at hspace
        omega
      · -- the trade was running before, or is another follower's, or does not run now
        have hle : weigh k { t with status := status } ≤ weigh k t := by
          by_cases hk : t.follower = k
          · cases hold : t.status.running with
            | true =>
              simp only [weigh, hk, hold, and_self, if_true, true_and]
              split <;> omega
            | false =>
              have hnot : status.running ≠ true := fun hruns => hstarts ⟨hk, hold, hruns⟩
              simp [weigh, hnot]
          · simp [weigh, hk]
        omega
    · intro q hq
      rcases Table.mem_set hq with rfl | ⟨hq, _⟩
      · exact hs.stake t (Table.get?_eq_some.mp ht).1
      · exact hs.stake q hq

/-- A step keeps the limits exactly if it is roomy. -/
theorem within_step (hs : Within limits s) (a : Action) :
    Within limits (afterAction h limits s a) ↔ Roomy h limits s a := by
  cases a with
  | signal c =>
    unfold afterAction Roomy
    dsimp only
    split
    · next row hok =>
      rw [within_create hs (executeCopy_pk hok) (executeCopy_spec hok s.nextPk)]
      exact ⟨fun hroom _ => hroom, fun hroom => hroom ⟨row, hok⟩⟩
    · next e herror =>
      refine iff_of_true hs ?_
      rintro ⟨row, hok⟩
      rw [herror] at hok
      cases hok
  | outcome pk status =>
    unfold afterAction Roomy
    dsimp only
    cases hget : s.get? pk with
    | none => simpa using hs
    | some t =>
      have hpk : t.pk = pk := Table.pk_of_get? hget
      have ht : s.get? t.pk = some t := by rwa [hpk]
      dsimp only
      rw [within_set hs ht]
      constructor
      · intro hroom t' ht'
        cases ht'
        exact hroom
      · intro hroom
        exact hroom t rfl

end Steps

/-- The trades stay within the limits all along a run of signals and outcomes exactly if they are
at the start and every step is roomy. -/
theorem limits_kept_iff (h : Host) (limits : ℕ → Limits) (s : Trades) (as : List Action) :
    Machine.RunIf.Always (copying h limits) (Within limits) s as ↔
      Within limits s ∧
        (copying h limits).RunIf (Roomy h limits) s as (as.foldl (afterAction h limits) s) := by
  have hrun : (copying h limits).Run s as (as.foldl (afterAction h limits) s) :=
    (Machine.run_iff_foldl fun _ _ => rfl).mpr rfl
  have hstep : ∀ s a s', True → Within limits s → (copying h limits).next s a = some s' →
      (Within limits s' ↔ Roomy h limits s a) := by
    intro s a s' _ hs hn
    cases hn
    exact within_step hs a
  exact Machine.RunIf.always_iff (fun _ _ _ _ _ => trivial) hstep hrun trivial

/-- A signal of 1.00 to the first follower. -/
def signalOne : Signal where
  follower := 1
  status := .active
  symbol := .str "R_100"
  direction := .str "CALL"
  source_stake := .str "1"
  provider_trade := .str "T-1"

/-- Every follower takes stakes up to 10.00, one trade at a time, without a multiplier. -/
def oneAtATime : ℕ → Limits := fun _ => ⟨1000, 1, 10000⟩

/-- Two signals in a row: the follower has room for one trade and gets two. -/
theorem limits_exceeded :
    Within oneAtATime Table.empty ∧
    ¬ Machine.RunIf.Always (copying Host.ascii oneAtATime) (Within oneAtATime) Table.empty
      [.signal signalOne, .signal signalOne] := by
  constructor
  · constructor
    · intro k
      exact Nat.zero_le _
    · intro t ht
      cases ht
  · intro halways
    have hlast := (halways.last rfl).concurrent 1
    revert hlast
    decide +kernel

end AlgoBot.CopyTrading
