import AlgoBot.Core.Rounding
import AlgoBot.Core.Table
import AlgoBot.Python.Value

/-!
# Subscribing to a provider

The view `subscribe` checks the provider, the allocation, the multiplier and the
mode, has the row of the follower found or created, and only then reads the other
fields of the body. Nothing holds these writes together.

* `update_ok_iff`: what the later fields must be for the row to be saved.
* `traceless_iff`: a failed request leaves nothing behind exactly if the follower was
  there before, or the later fields can be read and stored.
* `follower_left`: a request with a limit that is not a number.
-/

namespace AlgoBot.CopyTrading.Subscribe

open AlgoBot.Core AlgoBot.Python

/-! ## Rows -/

/-- Hundredths, as a column of twelve digits holds them. -/
structure Amount where
  cents : ℤ
  fits : cents.natAbs < 10 ^ 12

def Amount.value (a : Amount) : ℚ := a.cents / 10 ^ 2

structure CopyProvider where
  pk : ℕ
  status : String
  tenant : Option ℕ
  min_allocation : Amount
  max_allocation : Amount
  followers_count : ℕ

structure CopyFollower where
  pk : ℕ
  user : ℕ
  tenant : ℕ
  provider : ℕ
  status : String
  allocation : ℚ
  allocation_mode : String
  max_daily_loss_pct : ℚ
  max_drawdown_pct : ℚ
  max_trade_stake : ℚ
  max_concurrent_trades : ℤ
  pause_on_loss_streak : ℤ
  copy_multiplier : ℚ

structure CopySubscription where
  pk : ℕ
  follower : ℕ
  status : String
  started_at : ℕ

instance : HasPk CopyProvider := ⟨CopyProvider.pk⟩
instance : HasPk CopyFollower := ⟨CopyFollower.pk⟩
instance : HasPk CopySubscription := ⟨CopySubscription.pk⟩

structure Store where
  providers : Table CopyProvider
  followers : Table CopyFollower
  subscriptions : Table CopySubscription

/-! ## The request -/

inductive Body where
  | data (v : Value)
  | malformed
  | undecodable

structure Request where
  body : Body
  user : ℕ
  tenant : Option ℕ
  now : ℕ

/-- How the view ends without success: a response with an error, or an exception. -/
inductive Failure where
  | response (error : String)
  | python (e : PyError)
  | signal (s : Dec.Signal)
deriving DecidableEq

/-- What the checks leave for the rest of the view. -/
structure Checked where
  data : Dict
  provider : CopyProvider
  tenant : ℕ
  allocation : Dec
  multiplier : Dec
  allocation_mode : String

section View

variable (h : Host) (takes : ℤ → Bool)

/-- The active provider of the request, of the tenant or of nobody. -/
def findProvider (s : Store) (tenant : Option ℕ) (data : Value) : Except Failure CopyProvider :=
  let missing : Failure := .response "Active provider not found."
  match data.asDict.lookup "provider_id" with
  | none => .error missing
  | some v =>
    match v.toInt h with
    -- an infinity is not among the exceptions that are caught
    | .error .OverflowError => .error (.python .OverflowError)
    | .error _ => .error missing
    | .ok id =>
      let found := s.providers.find? fun p => (p.pk : ℤ) == id && p.status == "active" &&
        (tenant.isNone || p.tenant == tenant || p.tenant.isNone)
      match found with
      | some p => .ok p
      | none => .error missing

/-- `Decimal(str(data.get(key, default)))`, with its handler. -/
def amount (data : Dict) (key dflt : String) : Except Failure Dec :=
  match decimalOfText h ((data.getD key (.str dflt)).toStr h) with
  | some x => .ok x
  | none => .error (.response "Invalid allocation or multiplier.")

/-- A comparison outside a handler. -/
def compare (x : Except Dec.Signal Bool) : Except Failure Bool := x.mapError .signal

def readBody : Body → Except Failure Value
  | .data v => .ok v
  | .malformed => .error (.response "Invalid JSON body.")
  | .undecodable => .error (.python .ValueError)

def requireTenant : Option ℕ → Except Failure ℕ
  | some tenant => .ok tenant
  | none => .error (.response "A tenant/workspace is required for copy trading.")

def checkAllocation (provider : CopyProvider) (allocation : Dec) : Except Failure Unit :=
  let outside : Except Failure Unit :=
    .error (.response "Allocation is outside the provider limits.")
  do
    if ← compare (allocation.neg.exceeds (-provider.min_allocation.value)) then outside
    else if ← compare (allocation.exceeds provider.max_allocation.value) then outside
    else return ()

def checkMultiplier (multiplier : Dec) : Except Failure Unit := do
  if ← compare (multiplier.exceeds 0) then return ()
  else .error (.response "Copy multiplier must be greater than zero.")

def checkMode : Value → Except Failure String
  -- a list or a `dict` cannot be looked for in a set
  | .list _ => .error (.python .TypeError)
  | .dict _ => .error (.python .TypeError)
  | .str mode =>
    if mode = "fixed" ∨ mode = "proportional" then .ok mode
    else .error (.response "Invalid allocation mode.")
  | _ => .error (.response "Invalid allocation mode.")

/-- The view up to its first write. -/
def check (s : Store) (request : Request) : Except Failure Checked := do
  let data ← readBody request.body
  let provider ← findProvider h s request.tenant data
  let tenant ← requireTenant request.tenant
  let data := data.asDict
  let allocation ← amount h data "allocation" "0"
  let multiplier ← amount h data "copy_multiplier" "1"
  checkAllocation provider allocation
  checkMultiplier multiplier
  let allocation_mode ← checkMode (data.getD "allocation_mode" (.str "fixed"))
  return { data, provider, tenant, allocation, multiplier, allocation_mode }

/-- What a column keeps, or the error of a number that does not fit. -/
def column (digits places : ℕ) (x : Dec) : Except Failure ℚ :=
  match x.toColumn digits places with
  | some q => .ok q
  | none => .error (.signal .invalidOperation)

/-- The row of the user, the tenant and the provider. -/
def existing (s : Store) (user : ℕ) (c : Checked) : Option CopyFollower :=
  s.followers.find? fun f => f.user == user && f.tenant == c.tenant && f.provider == c.provider.pk

/-- A row with the defaults of the model. -/
def newFollower (user : ℕ) (c : Checked) (allocation : ℚ) (pk : ℕ) : CopyFollower where
  pk := pk
  user := user
  tenant := c.tenant
  provider := c.provider.pk
  status := "active"
  allocation := allocation
  allocation_mode := "fixed"
  max_daily_loss_pct := 3
  max_drawdown_pct := 5
  max_trade_stake := 10
  max_concurrent_trades := 3
  pause_on_loss_streak := 3
  copy_multiplier := 1

/-- `CopyFollower.objects.get_or_create`. -/
def getOrCreate (s : Store) (user : ℕ) (c : Checked) :
    Except Failure (CopyFollower × Table CopyFollower) :=
  match existing s user c with
  | some f => .ok (f, s.followers)
  | none => do
    let allocation ← column 12 2 c.allocation
    return (newFollower user c allocation s.followers.nextPk,
      s.followers.create (newFollower user c allocation) fun _ => rfl)

/-- `Decimal(str(data.get(key, ...)))` without a handler; `none` when the follower's own value is
read back. -/
def givenDecimal (data : Dict) (key : String) : Except Failure (Option Dec) :=
  match data.lookup key with
  | none => .ok none
  | some v =>
    match decimalOfText h (v.toStr h) with
    | some x => .ok (some x)
    | none => .error (.signal .invalidOperation)

/-- `int(data.get(key, ...))`. -/
def givenInt (data : Dict) (key : String) : Except Failure (Option ℤ) :=
  match data.lookup key with
  | none => .ok none
  | some v => (v.toInt h).map some |>.mapError .python

def decimalColumn (digits places : ℕ) (current : ℚ) : Option Dec → Except Failure ℚ
  | none => .ok current
  | some x => column digits places x

/-- `takes` says which integers the database takes. -/
def intColumn (current : ℤ) : Option ℤ → Except Failure ℤ
  | none => .ok current
  | some n => if takes n then .ok n else .error (.python .DataError)

/-- The fields that are read after the row is there, and `follower.save()`. -/
def update (c : Checked) (f : CopyFollower) : Except Failure CopyFollower := do
  let max_daily_loss_pct ← givenDecimal h c.data "max_daily_loss_pct"
  let max_drawdown_pct ← givenDecimal h c.data "max_drawdown_pct"
  let max_trade_stake ← givenDecimal h c.data "max_trade_stake"
  let max_concurrent_trades ← givenInt h c.data "max_concurrent_trades"
  let pause_on_loss_streak ← givenInt h c.data "pause_on_loss_streak"
  let allocation ← column 12 2 c.allocation
  let max_daily_loss_pct ← decimalColumn 8 2 f.max_daily_loss_pct max_daily_loss_pct
  let max_drawdown_pct ← decimalColumn 8 2 f.max_drawdown_pct max_drawdown_pct
  let max_trade_stake ← decimalColumn 12 2 f.max_trade_stake max_trade_stake
  let max_concurrent_trades ← intColumn takes f.max_concurrent_trades max_concurrent_trades
  let pause_on_loss_streak ← intColumn takes f.pause_on_loss_streak pause_on_loss_streak
  let copy_multiplier ← column 8 4 c.multiplier
  return { f with
    allocation, allocation_mode := c.allocation_mode, max_daily_loss_pct, max_drawdown_pct,
    max_trade_stake, max_concurrent_trades, pause_on_loss_streak, copy_multiplier,
    status := "active" }

/-- `CopySubscription.objects.update_or_create`. -/
def activate (subscriptions : Table CopySubscription) (follower now : ℕ) :
    Table CopySubscription :=
  match subscriptions.find? fun r => r.follower == follower with
  | some r => subscriptions.set { r with status := "active", started_at := now }
  | none => subscriptions.create (fun pk => ⟨pk, follower, "active", now⟩) fun _ => rfl

/-- The view: the rows afterwards, and the follower or how it failed. -/
def subscribe (s : Store) (request : Request) : Store × Except Failure ℕ :=
  match check h s request with
  | .error e => (s, .error e)
  | .ok c =>
    match getOrCreate s request.user c with
    | .error e => (s, .error e)
    | .ok (f, followers) =>
      match update h takes c f with
      | .error e => ({ s with followers := followers }, .error e)
      | .ok saved =>
        ({ s with
            followers := followers.set saved
            subscriptions := activate s.subscriptions saved.pk request.now },
          .ok saved.pk)

/-! ## The fields that can be stored -/

/-- A field that is given is a decimal that fits its column. -/
def DecimalFits (data : Dict) (key : String) (digits places : ℕ) : Prop :=
  ∀ v, data.lookup key = some v →
    ∃ x, decimalOfText h (v.toStr h) = some x ∧ (x.toColumn digits places).isSome = true

/-- A field that is given is an integer that the database takes. -/
def IntFits (data : Dict) (key : String) : Prop :=
  ∀ v, data.lookup key = some v → ∃ n, v.toInt h = .ok n ∧ takes n = true

/-- What is read after the follower is there can be read and stored. -/
structure Storable (c : Checked) : Prop where
  max_daily_loss_pct : DecimalFits h c.data "max_daily_loss_pct" 8 2
  max_drawdown_pct : DecimalFits h c.data "max_drawdown_pct" 8 2
  max_trade_stake : DecimalFits h c.data "max_trade_stake" 12 2
  max_concurrent_trades : IntFits h takes c.data "max_concurrent_trades"
  pause_on_loss_streak : IntFits h takes c.data "pause_on_loss_streak"
  copy_multiplier : (c.multiplier.toColumn 8 4).isSome = true

end View

section Steps

variable {h : Host} {takes : ℤ → Bool} {s : Store} {request : Request} {c : Checked}

theorem column_ok_iff {digits places : ℕ} {x : Dec} :
    (∃ q, column digits places x = .ok q) ↔ (x.toColumn digits places).isSome = true := by
  unfold column
  cases x.toColumn digits places <;> simp

theorem decimal_fits_iff {data : Dict} {key : String} {digits places : ℕ} (current : ℚ) :
    (∃ given, givenDecimal h data key = .ok given ∧
        ∃ q, decimalColumn digits places current given = .ok q) ↔
      DecimalFits h data key digits places := by
  unfold givenDecimal DecimalFits
  cases data.lookup key with
  | none => simp [decimalColumn]
  | some v =>
    simp only [Option.some.injEq, forall_eq']
    cases decimalOfText h (v.toStr h) with
    | none => simp
    | some x => simp [decimalColumn, column_ok_iff]

theorem int_fits_iff {data : Dict} {key : String} (current : ℤ) :
    (∃ given, givenInt h data key = .ok given ∧ ∃ n, intColumn takes current given = .ok n) ↔
      IntFits h takes data key := by
  unfold givenInt IntFits
  cases data.lookup key with
  | none => simp [intColumn]
  | some v =>
    simp only [Option.some.injEq, forall_eq']
    cases v.toInt h with
    | error e => simp [Except.map, Except.mapError]
    | ok n => cases hn : takes n <;> simp [Except.map, Except.mapError, intColumn, hn]

/-- The row is saved exactly if all its fields can be stored. -/
theorem update_ok_iff (f : CopyFollower) (hallocation : (c.allocation.toColumn 12 2).isSome = true) :
    (∃ saved, update h takes c f = .ok saved) ↔ Storable h takes c := by
  constructor
  · rintro ⟨saved, hok⟩
    unfold update at hok
    rcases bind_ok.mp hok with ⟨daily, hdaily, hok⟩
    rcases bind_ok.mp hok with ⟨drawdown, hdrawdown, hok⟩
    rcases bind_ok.mp hok with ⟨stake, hstake, hok⟩
    rcases bind_ok.mp hok with ⟨concurrent, hconcurrent, hok⟩
    rcases bind_ok.mp hok with ⟨streak, hstreak, hok⟩
    rcases bind_ok.mp hok with ⟨_, _, hok⟩
    rcases bind_ok.mp hok with ⟨_, hdaily', hok⟩
    rcases bind_ok.mp hok with ⟨_, hdrawdown', hok⟩
    rcases bind_ok.mp hok with ⟨_, hstake', hok⟩
    rcases bind_ok.mp hok with ⟨_, hconcurrent', hok⟩
    rcases bind_ok.mp hok with ⟨_, hstreak', hok⟩
    rcases bind_ok.mp hok with ⟨_, hmultiplier, _⟩
    exact {
      max_daily_loss_pct := (decimal_fits_iff _).mp ⟨daily, hdaily, _, hdaily'⟩
      max_drawdown_pct := (decimal_fits_iff _).mp ⟨drawdown, hdrawdown, _, hdrawdown'⟩
      max_trade_stake := (decimal_fits_iff _).mp ⟨stake, hstake, _, hstake'⟩
      max_concurrent_trades := (int_fits_iff _).mp ⟨concurrent, hconcurrent, _, hconcurrent'⟩
      pause_on_loss_streak := (int_fits_iff _).mp ⟨streak, hstreak, _, hstreak'⟩
      copy_multiplier := column_ok_iff.mp ⟨_, hmultiplier⟩ }
  · intro hfits
    obtain ⟨_, hdaily, _, hdaily'⟩ := (decimal_fits_iff f.max_daily_loss_pct).mpr
      hfits.max_daily_loss_pct
    obtain ⟨_, hdrawdown, _, hdrawdown'⟩ := (decimal_fits_iff f.max_drawdown_pct).mpr
      hfits.max_drawdown_pct
    obtain ⟨_, hstake, _, hstake'⟩ := (decimal_fits_iff f.max_trade_stake).mpr
      hfits.max_trade_stake
    obtain ⟨_, hconcurrent, _, hconcurrent'⟩ := (int_fits_iff f.max_concurrent_trades).mpr
      hfits.max_concurrent_trades
    obtain ⟨_, hstreak, _, hstreak'⟩ := (int_fits_iff f.pause_on_loss_streak).mpr
      hfits.pause_on_loss_streak
    obtain ⟨_, hamount⟩ := column_ok_iff.mpr hallocation
    obtain ⟨_, hmultiplier⟩ := column_ok_iff.mpr hfits.copy_multiplier
    -- all conversions come before the row is saved
    unfold update
    simp only [hdaily, hdrawdown, hstake, hconcurrent, hstreak, hamount, hdaily', hdrawdown',
      hstake', hconcurrent', hstreak', hmultiplier, bind, Except.bind]
    exact ⟨_, rfl⟩

/-! ## The allocation is stored -/

theorem compare_ok {x : Except Dec.Signal Bool} {b : Bool} (hok : compare x = .ok b) :
    x = .ok b :=
  mapError_ok.mp hok

theorem within_of_checkAllocation {provider : CopyProvider} {allocation : Dec} {u : Unit}
    (hok : checkAllocation provider allocation = .ok u) :
    allocation.neg.exceeds (-provider.min_allocation.value) = .ok false ∧
      allocation.exceeds provider.max_allocation.value = .ok false := by
  unfold checkAllocation at hok
  rcases bind_ok.mp hok with ⟨below, hbelow, hok⟩
  cases below with
  | true => cases hok
  | false =>
    rcases bind_ok.mp hok with ⟨above, habove, hok⟩
    cases above with
    | true => cases hok
    | false => exact ⟨compare_ok hbelow, compare_ok habove⟩

/-- An amount within two others that fit a column fits it. -/
theorem allocation_fits {x : Dec} {low high : Amount}
    (hlow : x.neg.exceeds (-low.value) = .ok false) (hhigh : x.exceeds high.value = .ok false) :
    (x.toColumn 12 2).isSome = true := by
  have hfits : ∀ (neg : Bool) (coeff : ℕ) (exp : ℤ) (a : Amount),
      (coeff : ℚ) * 10 ^ exp ≤ (a.cents.natAbs : ℚ) / 10 ^ 2 →
        ((Dec.finite neg coeff exp).toColumn 12 2).isSome = true := by
    intro neg coeff exp a hle
    exact Dec.toColumn_isSome (by norm_num) a.fits (by exact_mod_cast hle)
  have habs : ∀ a : Amount, |(a.cents : ℚ)| = a.cents.natAbs := by
    intro a
    rw [Nat.cast_natAbs, Int.cast_abs]
  cases x with
  | finite neg coeff exp =>
    cases neg with
    | false =>
      refine hfits false coeff exp high ?_
      simp only [Dec.exceeds, Except.ok.injEq, decide_eq_false_iff_not, not_lt] at hhigh
      have hvalue : high.value ≤ (high.cents.natAbs : ℚ) / 10 ^ 2 := by
        rw [Amount.value, ← habs]
        gcongr
        exact le_abs_self _
      refine le_trans ?_ hvalue
      simpa using hhigh
    | true =>
      refine hfits true coeff exp low ?_
      simp only [Dec.neg, Dec.exceeds, Except.ok.injEq, decide_eq_false_iff_not, not_lt] at hlow
      have hvalue : -low.value ≤ (low.cents.natAbs : ℚ) / 10 ^ 2 := by
        rw [Amount.value, ← habs, ← neg_div]
        gcongr
        exact neg_le_abs _
      refine le_trans ?_ hvalue
      simpa using hlow
  | inf neg =>
    cases neg with
    | false => cases hhigh
    | true => cases hlow
  | nan => cases hhigh
  | snan => cases hhigh

/-- A request that passes the checks has an allocation that can be stored. -/
theorem allocation_of_check (hok : check h s request = .ok c) :
    (c.allocation.toColumn 12 2).isSome = true := by
  unfold check at hok
  rcases bind_ok.mp hok with ⟨data, _, hok⟩
  rcases bind_ok.mp hok with ⟨provider, _, hok⟩
  rcases bind_ok.mp hok with ⟨tenant, _, hok⟩
  rcases bind_ok.mp hok with ⟨allocation, _, hok⟩
  rcases bind_ok.mp hok with ⟨multiplier, _, hok⟩
  rcases bind_ok.mp hok with ⟨_, hwithin, hok⟩
  rcases bind_ok.mp hok with ⟨_, _, hok⟩
  rcases bind_ok.mp hok with ⟨mode, _, hok⟩
  cases hok
  obtain ⟨hlow, hhigh⟩ := within_of_checkAllocation hwithin
  exact allocation_fits hlow hhigh

end Steps

/-- Where the request fails, the rows are as before. -/
def Traceless (h : Host) (takes : ℤ → Bool) (s : Store) (request : Request) : Prop :=
  ∀ e, (subscribe h takes s request).2 = .error e → (subscribe h takes s request).1 = s

/-- A failed request leaves no trace exactly if it fails before the first write, or there was a row
of the follower, or everything that is read afterwards can be stored. -/
theorem traceless_iff (h : Host) (takes : ℤ → Bool) (s : Store) (request : Request) :
    Traceless h takes s request ↔
      ∀ c, check h s request = .ok c →
        (existing s request.user c).isSome = true ∨ Storable h takes c := by
  unfold Traceless
  cases hcheck : check h s request with
  | error e => simp [subscribe, hcheck]
  | ok c =>
    have hallocation := allocation_of_check hcheck
    simp only [Except.ok.injEq, forall_eq']
    cases hexisting : existing s request.user c with
    | some f =>
      refine iff_of_true ?_ (Or.inl rfl)
      intro e he
      cases hupdate : update h takes c f with
      | error e => simp [subscribe, hcheck, getOrCreate, hexisting, hupdate]
      | ok saved => simp [subscribe, hcheck, getOrCreate, hexisting, hupdate] at he
    | none =>
      obtain ⟨q, hq⟩ := column_ok_iff.mpr hallocation
      let f := newFollower request.user c q s.followers.nextPk
      have hcreate : getOrCreate s request.user c =
          .ok (f, s.followers.create (newFollower request.user c q) fun _ => rfl) := by
        simp only [getOrCreate, hexisting, hq]
        rfl
      rw [← update_ok_iff f hallocation]
      cases hupdate : update h takes c f with
      | error e =>
        -- the new row stays
        refine iff_of_false ?_ (by simp)
        intro htraceless
        have hsame : (subscribe h takes s request).1 = s :=
          htraceless e (by simp [subscribe, hcheck, hcreate, hupdate])
        have hrows : (s.followers.create (newFollower request.user c q) fun _ => rfl) =
            s.followers := by
          simpa [subscribe, hcheck, hcreate, hupdate] using congrArg Store.followers hsame
        have hlength := congrArg (fun t => t.rows.length) hrows
        simp [Table.create] at hlength
      | ok saved =>
        refine iff_of_true ?_ (Or.inr ⟨saved, rfl⟩)
        intro e he
        simp [subscribe, hcheck, hcreate, hupdate] at he

/-- A provider that takes 1.00 to 1000.00, and nobody who follows it. -/
def oneProvider : Store where
  providers := Table.empty.create (fun pk =>
    ⟨pk, "active", none, ⟨100, by decide⟩, ⟨100000, by decide⟩, 0⟩) fun _ => rfl
  followers := Table.empty
  subscriptions := Table.empty

/-- The last limit is not a number. -/
def badLimit : Request where
  body := .data (.dict [("provider_id", .int 1), ("allocation", .str "10"),
    ("max_trade_stake", .str "x")])
  user := 1
  tenant := some 1
  now := 0

/-- The view raises, and there is a follower without a subscription. -/
theorem follower_left :
    ¬ Traceless .ascii (fun n => decide (0 ≤ n)) oneProvider badLimit ∧
      (subscribe .ascii (fun n => decide (0 ≤ n)) oneProvider badLimit).1.followers.rows.length = 1 ∧
      (subscribe .ascii (fun n => decide (0 ≤ n)) oneProvider badLimit).1.subscriptions.rows.length =
        0 := by
  have hraises : (subscribe .ascii (fun n => decide (0 ≤ n)) oneProvider badLimit).2 =
      .error (.signal .invalidOperation) := by
    decide +kernel
  have hleft :
      (subscribe .ascii (fun n => decide (0 ≤ n)) oneProvider badLimit).1.followers.rows.length = 1 := by
    decide +kernel
  refine ⟨?_, hleft, by decide +kernel⟩
  intro htraceless
  rw [htraceless _ hraises] at hleft
  cases hleft

end AlgoBot.CopyTrading.Subscribe
