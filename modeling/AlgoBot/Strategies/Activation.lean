import AlgoBot.Core.Machine
import AlgoBot.Core.Table

/-!
# The active strategy of a user

`configure` and `switch` activate a configuration of a strategy in a transaction
that locks the user and first deactivates all of them. The configuration, its
broker account and the capacity of the plan are read before that. `disconnect`,
`pause` and `stop` only clear flags. Two runners look for the configurations to
run: the engine and the scheduler.

* `activation_iff`: in every run one configuration at most is active, within the
  limit of the plan it was activated under, with a broker account that was active
  then, and the runners run active configurations only, exactly if no activation
  is of an account that is not active any more, and the scheduler finds only
  active ones.
* `scheduler_runs_inactive`: a configuration that was saved and not activated.
-/

namespace AlgoBot.Strategies

open AlgoBot.Core

/-! ## Rows -/

/-- The plans of `PLAN_ENTITLEMENTS`. -/
inductive Plan
  | FREE
  | BASIC
  | PRO
  | ENTERPRISE
  deriving DecidableEq, Repr

/-- How many strategies a plan has; a negative number is no limit. -/
def Plan.strategies : Plan → ℤ
  | .FREE => 3
  | .BASIC => 5
  | .PRO => 25
  | .ENTERPRISE => -1

structure Configuration where
  pk : ℕ
  strategy : ℕ
  symbol : String
  timeframe : String
  risk_profile : String
  schedule : String
  broker_account : Option ℕ
  enabled : Bool
  is_active : Bool
  updated_at : ℕ
  deriving DecidableEq, Repr

instance : HasPk Configuration := ⟨Configuration.pk⟩

/-- What was in force when a configuration was activated: the plan, and its account with whether
that was active. -/
structure Activation where
  plan : Plan
  account : Option (ℕ × Bool)

/-! ## Requests -/

/-- The body of `configure`; `selected` is the account `get_active_account` leads to. -/
structure Configure where
  strategy : ℕ
  symbol : String
  timeframe : String
  risk_profile : String
  schedule : String
  broker_account_id : Option ℕ
  selected : Option ℕ
  make_active : Bool

def Configure.valid (r : Configure) : Bool :=
  r.symbol != "" && r.symbol.length ≤ 40 &&
    ["M1", "M5", "M15", "M30", "H1", "H4", "D1"].contains r.timeframe &&
    ["conservative", "balanced", "aggressive"].contains r.risk_profile &&
    ["every_candle", "hourly", "daily", "manual"].contains r.schedule

/-- A request of the user, and what it has read by then. -/
inductive Request
  | idle
  /-- `switch` of the strategy, before it reads the configuration. -/
  | switch (strategy : ℕ) (configuration_id : Option ℕ)
  | switching (config : Configuration)
  | disconnect (strategy : ℕ) (configuration_id : Option ℕ)
  | disconnecting (config : Configuration)
  /-- `configure`, before it reads the account, the row that exists, and the capacity. -/
  | configure (body : Configure)
  | chosen (body : Configure) (account : Option ℕ)
  | found (body : Configure) (account : Option ℕ) (existing : Option Configuration)
  | ready (body : Configure) (account : Option ℕ) (existing : Option Configuration)

structure State where
  /-- The configurations of the user. -/
  configurations : Table Configuration
  /-- The broker accounts of the user, and whether they are active. -/
  accounts : ℕ → Option Bool
  /-- `effective_plan(user)`. -/
  plan : Plan
  /-- The strategies that are enabled. -/
  strategies : ℕ → Bool
  requests : ℕ → Request
  /-- What was in force when a configuration was last activated; nothing reads it. -/
  activations : ℕ → Option Activation

/-- A user without configurations. -/
def State.start (accounts : ℕ → Option Bool) (plan : Plan) (strategies : ℕ → Bool) : State :=
  ⟨Table.empty, accounts, plan, strategies, fun _ => .idle, fun _ => none⟩

inductive Action
  /-- Request `i` begins. -/
  | switch (i strategy : ℕ) (configuration_id : Option ℕ)
  | disconnect (i strategy : ℕ) (configuration_id : Option ℕ)
  | configure (i : ℕ) (body : Configure)
  /-- Request `i` takes its next read or its transaction; `choice` is among the rows that are as
  recent as each other. -/
  | advance (i now choice : ℕ)
  | fail (i : ℕ)
  | pause (ids : List ℕ)
  | stop (ids : List ℕ)
  /-- The platform changes an account, the plan or the catalogue. -/
  | account (a : ℕ) (active : Bool)
  | subscribe (plan : Plan)
  | catalogue (strategy : ℕ) (enabled : Bool)
  /-- A runner runs: the engine with the objects it is given, or with those of the user. -/
  | engine (configurations : Option (List Configuration))
  | tick (schedule : Option String)

namespace State

variable (s : State)

def set (i : ℕ) (r : Request) : State :=
  { s with requests := Function.update s.requests i r }

/-- `status == 'active'`, of an account by its key. -/
def active (account : Option ℕ) : Bool := account.any fun a => s.accounts a == some true

/-- How many configurations are active. -/
def activeCount : ℕ := s.configurations.rows.countP Configuration.is_active

/-- The configurations a request means: the one with its key, or the most recent ones. -/
def candidates (strategy : ℕ) (configuration_id : Option ℕ) (p : Configuration → Bool) :
    List Configuration :=
  let rows := s.configurations.rows.filter fun c => c.strategy == strategy
  match configuration_id with
  | some k => rows.filter fun c => c.pk == k
  | none =>
      let rows := rows.filter p
      rows.filter fun c => rows.all fun d => d.updated_at ≤ c.updated_at

/-- The activation of a configuration, with the table it leaves. -/
def recorded (t : Table Configuration) (k : ℕ) : State :=
  { s with
    configurations := t
    activations := Function.update s.activations k (some
      ⟨s.plan, ((t.get? k).bind Configuration.broker_account).map fun a =>
        (a, s.active (some a))⟩) }

/-- The configurations the scheduler runs. -/
def due (schedule : Option String) : List Configuration :=
  s.configurations.rows.filter fun c =>
    c.enabled && s.strategies c.strategy &&
      schedule.all fun name => name == "" || c.schedule == name

/-- `active_configuration(user)`. -/
def active_configuration : Option Configuration :=
  s.configurations.find? fun c => c.enabled && c.is_active && s.strategies c.strategy

/-- The configurations `StrategyEngine.run` runs. -/
def engineRun (configurations : Option (List Configuration)) : List Configuration :=
  let configs := configurations.getD s.active_configuration.toList
  let configs := if configs.length > 1 then
      (configs.filter fun c => c.enabled && c.is_active && s.strategies c.strategy).take 1
    else configs
  configs.filter fun c => c.enabled && s.strategies c.strategy && c.is_active

end State

/-- `update(is_active=False)` of the active rows. -/
def deactivated (t : Table Configuration) : Table Configuration :=
  t.update (fun c => { c with is_active := false }) fun _ => rfl

/-- `config.save(update_fields=[...])` of a switch. -/
def activated (t : Table Configuration) (k now : ℕ) : Table Configuration :=
  t.update (fun c =>
      if c.pk = k then { c with is_active := true, enabled := true, updated_at := now } else c)
    fun c => by split <;> rfl

/-- The row `update_or_create` finds. -/
def Configure.row? (r : Configure) (t : Table Configuration) : Option Configuration :=
  t.find? fun c => c.strategy == r.strategy && c.symbol == r.symbol && c.timeframe == r.timeframe

/-- The row with the defaults of `update_or_create`. -/
def Configure.write (r : Configure) (account : Option ℕ) (now : ℕ) (c : Configuration) :
    Configuration :=
  { c with
    risk_profile := r.risk_profile
    schedule := r.schedule
    broker_account := account
    is_active := r.make_active
    updated_at := now }

/-- `update_or_create`: the table, and the key of the row. -/
def Configure.save (r : Configure) (account : Option ℕ) (now : ℕ) (t : Table Configuration) :
    Table Configuration × ℕ :=
  match r.row? t with
  | some c => (t.set (r.write account now c), c.pk)
  | none =>
      (t.create (fun k => r.write account now
        ⟨k, r.strategy, r.symbol, r.timeframe, "", "", none, true, false, now⟩) fun _ => rfl,
        t.nextPk)

/-- The plan has no room for another active configuration. -/
def full (s : State) (existing : Option Configuration) : Bool :=
  !(existing.any Configuration.is_active) && decide (0 ≤ s.plan.strategies) &&
    decide (s.plan.strategies ≤ s.activeCount)

/-- The next read or the transaction of a request; `none` where there is no such row. -/
def Request.advance (s : State) (i now choice : ℕ) : Request → Option State
  | .idle => none
  | .switch strategy configuration_id =>
      match s.candidates strategy configuration_id fun _ => true with
      | [] => some (s.set i .idle)
      | candidates =>
          candidates[choice]?.map fun config =>
            if s.active config.broker_account then s.set i (.switching config) else s.set i .idle
  | .switching config =>
      some ((s.set i .idle).recorded (activated (deactivated s.configurations) config.pk now)
        config.pk)
  | .disconnect strategy configuration_id =>
      match s.candidates strategy configuration_id Configuration.is_active with
      | [] => some (s.set i .idle)
      | candidates => candidates[choice]?.map fun config => s.set i (.disconnecting config)
  | .disconnecting config =>
      some { (s.set i .idle) with
        configurations := s.configurations.update (fun c =>
            if c.pk = config.pk then { c with is_active := false, updated_at := now } else c)
          fun c => by split <;> rfl }
  | .configure body =>
      let account := match body.broker_account_id with
        | some a => if (s.accounts a).isSome then some (some a) else none
        | none => some (body.selected.filter fun a => s.active (some a))
      match account with
      | none => some (s.set i .idle)
      | some account =>
          if body.make_active && !s.active account then some (s.set i .idle)
          else some (s.set i (.chosen body account))
  | .chosen body account => some (s.set i (.found body account (body.row? s.configurations)))
  | .found body account existing =>
      if body.make_active && full s existing then some (s.set i .idle)
      else some (s.set i (.ready body account existing))
  | .ready body account existing =>
      if body.make_active then
        if full s existing then some (s.set i .idle)
        else
          let saved := body.save account now (deactivated s.configurations)
          some ((s.set i .idle).recorded saved.1 saved.2)
      else
        some { (s.set i .idle) with
          configurations := (body.save account now s.configurations).1 }

/-- The rows `pause` and `stop` mean: those of the strategies, or the active ones. -/
def meant (ids : List ℕ) (c : Configuration) : Bool :=
  if ids.isEmpty then c.is_active else ids.contains c.strategy

/-- Request `i` begins, if `get_object` finds the strategy. -/
def State.begin (s : State) (i strategy : ℕ) (r : Request) : Option State :=
  match s.requests i with
  | .idle => if s.strategies strategy then some (s.set i r) else none
  | _ => none

def State.next (s : State) : Action → Option State
  | .switch i strategy configuration_id => s.begin i strategy (.switch strategy configuration_id)
  | .disconnect i strategy configuration_id =>
      s.begin i strategy (.disconnect strategy configuration_id)
  | .configure i body => if body.valid then s.begin i body.strategy (.configure body) else none
  | .advance i now choice => (s.requests i).advance s i now choice
  | .fail i => some (s.set i .idle)
  | .pause ids =>
      some { s with
        configurations := s.configurations.update (fun c =>
            if meant ids c then { c with enabled := false } else c)
          fun c => by split <;> rfl }
  | .stop ids =>
      some { s with
        configurations := s.configurations.update (fun c =>
            if meant ids c then { c with enabled := false, is_active := false } else c)
          fun c => by split <;> rfl }
  | .account a active => some { s with accounts := Function.update s.accounts a (some active) }
  | .subscribe plan => some { s with plan := plan }
  | .catalogue strategy enabled =>
      some { s with strategies := Function.update s.strategies strategy enabled }
  | .engine _ => some s
  | .tick _ => some s

def strategies : Machine State Action where
  next := State.next

/-! ## What the claim asks -/

/-- One configuration at most is active, within the plan and with an account that was active. -/
structure Sound (s : State) : Prop where
  single : ∀ c ∈ s.configurations, ∀ d ∈ s.configurations, c.is_active = true →
    d.is_active = true → c = d
  activated : ∀ c ∈ s.configurations, c.is_active = true → ∃ activation,
    s.activations c.pk = some activation ∧
      (activation.plan.strategies < 0 ∨ (s.activeCount : ℤ) ≤ activation.plan.strategies) ∧
      ∃ a, activation.account = some (a, true) ∧ c.broker_account = some a

/-- The runners run configurations that are active and enabled. -/
def RunsActive (s : State) : Action → Prop
  | .engine configurations =>
      ∀ c ∈ s.engineRun configurations, c.is_active = true ∧ c.enabled = true
  | .tick schedule => ∀ c ∈ s.due schedule, c.is_active = true ∧ c.enabled = true
  | _ => True

/-- A transaction activates a configuration only with an account that is active, and the scheduler
finds active ones only. -/
def Fresh (s : State) : Action → Prop
  | .advance i _ _ =>
      match s.requests i with
      | .switching config => ∀ c, s.configurations.get? config.pk = some c →
          s.active c.broker_account = true
      | .ready body account existing => body.make_active = true → full s existing = false →
          s.active account = true
      | _ => True
  | .tick schedule => ∀ c ∈ s.due schedule, c.is_active = true
  | _ => True

/-! ## Activations -/

variable {s s' t : State} {a : Action} {as : List Action} {i k now choice : ℕ}
  {table table' : Table Configuration} {c d : Configuration} {body : Configure}
  {account : Option ℕ} {existing : Option Configuration}

/-- Every plan has room for one strategy. -/
theorem one_le_strategies (p : Plan) : p.strategies < 0 ∨ 1 ≤ p.strategies := by
  cases p <;> decide

/-- One active configuration at most is counted as one at most. -/
theorem activeCount_le_one (hsingle : ∀ c ∈ table, ∀ d ∈ table, c.is_active = true →
    d.is_active = true → c = d) : table.rows.countP Configuration.is_active ≤ 1 := by
  rw [List.countP_eq_length_filter]
  have hnodup : (table.rows.filter Configuration.is_active).Nodup :=
    (List.Nodup.of_map _ table.nodup).filter _
  have hall : ∀ c ∈ table.rows.filter Configuration.is_active,
      ∀ d ∈ table.rows.filter Configuration.is_active, c = d := by
    intro c hc d hd
    obtain ⟨hc, hactive⟩ := List.mem_filter.mp hc
    obtain ⟨hd, hactive'⟩ := List.mem_filter.mp hd
    exact hsingle c hc d hd hactive hactive'
  match hrows : table.rows.filter Configuration.is_active with
  | [] => exact Nat.zero_le _
  | [c] => exact Nat.le_refl _
  | c :: d :: rest =>
    rw [hrows] at hnodup hall
    have hsame := hall c List.mem_cons_self d (List.mem_cons_of_mem c List.mem_cons_self)
    rw [hsame] at hnodup
    exact absurd List.mem_cons_self (List.nodup_cons.mp hnodup).1

/-- Within the limit of any plan. -/
theorem within_limit (hsingle : ∀ c ∈ s.configurations, ∀ d ∈ s.configurations,
    c.is_active = true → d.is_active = true → c = d) (p : Plan) :
    p.strategies < 0 ∨ (s.activeCount : ℤ) ≤ p.strategies := by
  rcases one_le_strategies p with hnone | hone
  · exact Or.inl hnone
  · have hcount : s.activeCount ≤ 1 := activeCount_le_one hsingle
    right
    omega

/-- Where the active configurations were active before, with their accounts, all is as it was. -/
theorem Sound.mono (hs : Sound s) (hactivations : s'.activations = s.activations)
    (hrows : ∀ c ∈ s'.configurations, c.is_active = true → ∃ d ∈ s.configurations,
      d.is_active = true ∧ d.pk = c.pk ∧ d.broker_account = c.broker_account) : Sound s' := by
  have hsingle : ∀ c ∈ s'.configurations, ∀ d ∈ s'.configurations, c.is_active = true →
      d.is_active = true → c = d := by
    intro c hc d hd hactive hactive'
    obtain ⟨c₀, hc₀, hactive₀, hpk, _⟩ := hrows c hc hactive
    obtain ⟨d₀, hd₀, hactive₁, hpk', _⟩ := hrows d hd hactive'
    have hsame := hs.single c₀ hc₀ d₀ hd₀ hactive₀ hactive₁
    refine Table.eq_of_pk_eq hc hd ?_
    exact hpk.symm.trans ((congrArg Configuration.pk hsame).trans hpk')
  refine ⟨hsingle, ?_⟩
  intro c hc hactive
  obtain ⟨d, hd, hactive', hpk, haccount⟩ := hrows c hc hactive
  obtain ⟨activation, hactivation, _, a, ha, hda⟩ := hs.activated d hd hactive'
  refine ⟨activation, ?_, within_limit hsingle _, a, ha, haccount ▸ hda⟩
  rw [hactivations, ← hpk]
  exact hactivation

/-- After an activation all is well exactly if the account of the configuration is active. -/
theorem sound_recorded (honly : ∀ c ∈ table, c.is_active = true → c.pk = k) :
    Sound (s.recorded table k) ↔ ∀ c, table.get? k = some c → c.is_active = true →
      s.active c.broker_account = true := by
  have hactivation : (s.recorded table k).activations k = some ⟨s.plan,
      ((table.get? k).bind Configuration.broker_account).map fun a => (a, s.active (some a))⟩ :=
    Function.update_self ..
  constructor
  · intro hsound c hget hactive
    have hc : c ∈ (s.recorded table k).configurations := (Table.get?_eq_some.mp hget).1
    have hk : c.pk = k := Table.pk_of_get? hget
    obtain ⟨activation, hfound, _, a, ha, haccount⟩ := hsound.activated c hc hactive
    rw [hk, hactivation, Option.some.injEq] at hfound
    rw [← hfound, hget] at ha
    simp only [Option.bind_some, haccount, Option.map_some, Option.some.injEq, Prod.mk.injEq,
      true_and] at ha
    rw [haccount]
    exact ha
  · intro hfresh
    have hsingle : ∀ c ∈ (s.recorded table k).configurations,
        ∀ d ∈ (s.recorded table k).configurations, c.is_active = true → d.is_active = true →
        c = d := by
      intro c hc d hd hactive hactive'
      exact Table.eq_of_pk_eq hc hd ((honly c hc hactive).trans (honly d hd hactive').symm)
    refine ⟨hsingle, ?_⟩
    intro c hc hactive
    have hk := honly c hc hactive
    have hget : table.get? k = some c := Table.get?_eq_some.mpr ⟨hc, hk⟩
    have hstill := hfresh c hget hactive
    obtain ⟨a, haccount, _⟩ := (Option.any_eq_true _ _).mp hstill
    rw [hk]
    refine ⟨_, hactivation, within_limit hsingle _, a, ?_, haccount⟩
    rw [hget]
    simp only [Option.bind_some, haccount, Option.map_some]
    rw [haccount] at hstill
    rw [hstill]

theorem mem_deactivated (hc : c ∈ deactivated table) : c.is_active = false := by
  obtain ⟨d, _, rfl⟩ := List.mem_map.mp hc
  rfl

theorem get?_deactivated (table : Table Configuration) (k : ℕ) :
    (deactivated table).get? k = (table.get? k).map fun c => { c with is_active := false } :=
  Table.get?_update _ _ _ _

/-- A row of a saved table is the saved one, or was there before. -/
theorem mem_save (hc : c ∈ (body.save account now table).1) :
    (c.pk = (body.save account now table).2 ∧ c.is_active = body.make_active ∧
      c.broker_account = account) ∨ c ∈ table := by
  unfold Configure.save at hc ⊢
  split at hc
  · next d hd =>
    rcases Table.mem_set hc with rfl | ⟨hc, _⟩
    · exact Or.inl ⟨rfl, rfl, rfl⟩
    · exact Or.inr hc
  · next hnone =>
    rcases Table.mem_create hc with rfl | hc
    · exact Or.inl ⟨rfl, rfl, rfl⟩
    · exact Or.inr hc

/-- The saved row. -/
theorem get?_save (body : Configure) (account : Option ℕ) (now : ℕ) (table : Table Configuration) :
    ∃ c, (body.save account now table).1.get? (body.save account now table).2 = some c ∧
      c.is_active = body.make_active ∧ c.broker_account = account := by
  unfold Configure.save
  split
  · next d hd =>
    have hget := Table.get?_pk (Table.mem_of_find? hd)
    exact ⟨body.write account now d, Table.get?_set_self (r := body.write account now d) hget, rfl,
      rfl⟩
  · exact ⟨_, Table.get?_create_self _, rfl, rfl⟩

/-! ## Steps -/

theorem Sound.same (hs : Sound s) (hactivations : s'.activations = s.activations)
    (hrows : s'.configurations = s.configurations) : Sound s' := by
  refine hs.mono hactivations fun c hc hactive => ?_
  rw [hrows] at hc
  exact ⟨c, hc, hactive, rfl, rfl⟩

theorem Sound.set (hs : Sound s) (i : ℕ) (r : Request) : Sound (s.set i r) := hs.same rfl rfl

/-- Rows that keep their keys and accounts, and become active only where they were. -/
theorem Sound.update (hs : Sound s) {f : Configuration → Configuration}
    (hpk : ∀ c, HasPk.pk (f c) = HasPk.pk c)
    (haccount : ∀ c, (f c).broker_account = c.broker_account)
    (hactive : ∀ c, (f c).is_active = true → c.is_active = true)
    (hactivations : s'.activations = s.activations)
    (hrows : s'.configurations = s.configurations.update f hpk) : Sound s' := by
  refine hs.mono hactivations fun c hc hc' => ?_
  rw [hrows] at hc
  obtain ⟨d, hd, rfl⟩ := List.mem_map.mp hc
  exact ⟨d, hd, hactive d hc', (hpk d).symm, (haccount d).symm⟩

/-- The transaction of a switch. -/
theorem sound_switching (config : Configuration) :
    Sound ((s.set i .idle).recorded (activated (deactivated s.configurations) config.pk now)
      config.pk) ↔ ∀ c, s.configurations.get? config.pk = some c →
        s.active c.broker_account = true := by
  have honly : ∀ c ∈ activated (deactivated s.configurations) config.pk now,
      c.is_active = true → c.pk = config.pk := by
    intro c hc hactive
    obtain ⟨d, hd, rfl⟩ := List.mem_map.mp hc
    split at hactive
    · next hpk =>
      rw [if_pos hpk]
      exact hpk
    · rw [mem_deactivated hd] at hactive
      cases hactive
  rw [sound_recorded honly]
  have hget : (activated (deactivated s.configurations) config.pk now).get? config.pk =
      (s.configurations.get? config.pk).map fun c =>
        { c with is_active := true, enabled := true, updated_at := now } := by
    unfold activated
    rw [Table.get?_update, get?_deactivated, Option.map_map]
    refine Option.map_congr fun c hc => ?_
    have hpk : c.pk = config.pk := Table.pk_of_get? hc
    simp [hpk]
  rw [hget]
  constructor
  · intro hfresh c hc
    exact hfresh { c with is_active := true, enabled := true, updated_at := now }
      (by rw [hc, Option.map_some]) rfl
  · intro hfresh c hc hactive
    obtain ⟨d, hd, rfl⟩ := Option.map_eq_some_iff.mp hc
    exact hfresh d hd

/-- The transaction of `configure`, where it activates. -/
theorem sound_ready (hmake : body.make_active = true) :
    Sound ((s.set i .idle).recorded
        (body.save account now (deactivated s.configurations)).1
        (body.save account now (deactivated s.configurations)).2) ↔ s.active account = true := by
  have honly : ∀ c ∈ (body.save account now (deactivated s.configurations)).1, c.is_active = true →
      c.pk = (body.save account now (deactivated s.configurations)).2 := by
    intro c hc hactive
    rcases mem_save hc with ⟨hpk, _, _⟩ | hold
    · exact hpk
    · rw [mem_deactivated hold] at hactive
      cases hactive
  rw [sound_recorded honly]
  obtain ⟨c, hget, hactive, haccount⟩ := get?_save body account now (deactivated s.configurations)
  constructor
  · intro hfresh
    have hstill := hfresh c hget (hactive.trans hmake)
    rw [haccount] at hstill
    exact hstill
  · intro hstill d hd _
    obtain rfl := Option.some.inj (hget.symm.trans hd)
    rw [haccount]
    exact hstill

/-- The body of a request of `configure` that is going on. -/
def Request.body? : Request → Option Configure
  | .configure body => some body
  | .chosen body _ => some body
  | .found body _ _ => some body
  | .ready body _ _ => some body
  | .idle | .switch _ _ | .switching _ | .disconnect _ _ | .disconnecting _ => none

/-- A request that goes on moves alone and keeps its body, or is the transaction of a switch, a
disconnection or a configuration. -/
theorem advance_cases (hnext : (s.requests i).advance s i now choice = some s') :
    (∃ r, s' = s.set i r ∧ Fresh s (.advance i now choice) ∧
      ∀ body, r.body? = some body → (s.requests i).body? = some body) ∨
    (∃ config, s.requests i = .switching config ∧
      s' = (s.set i .idle).recorded (activated (deactivated s.configurations) config.pk now)
        config.pk) ∨
    (∃ config, s.requests i = .disconnecting config ∧
      s' = { (s.set i .idle) with
        configurations := s.configurations.update (fun c =>
            if c.pk = config.pk then { c with is_active := false, updated_at := now } else c)
          fun c => by split <;> rfl }) ∨
    (∃ body account existing, s.requests i = .ready body account existing ∧
      body.make_active = true ∧ full s existing = false ∧
      s' = (s.set i .idle).recorded (body.save account now (deactivated s.configurations)).1
        (body.save account now (deactivated s.configurations)).2) ∨
    (∃ body account existing, s.requests i = .ready body account existing ∧
      body.make_active = false ∧
      s' = { (s.set i .idle) with
        configurations := (body.save account now s.configurations).1 }) := by
  unfold Fresh
  dsimp only
  cases hrequest : s.requests i with
  | idle =>
    rw [hrequest] at hnext
    cases hnext
  | switch strategy configuration_id =>
    rw [hrequest] at hnext
    simp only [Request.advance] at hnext
    split at hnext
    · cases hnext
      exact .inl ⟨.idle, rfl, trivial, nofun⟩
    · obtain ⟨config, _, rfl⟩ := Option.map_eq_some_iff.mp hnext
      split
      · exact .inl ⟨_, rfl, trivial, nofun⟩
      · exact .inl ⟨_, rfl, trivial, nofun⟩
  | switching config =>
    rw [hrequest] at hnext
    cases hnext
    exact .inr (.inl ⟨config, rfl, rfl⟩)
  | disconnect strategy configuration_id =>
    rw [hrequest] at hnext
    simp only [Request.advance] at hnext
    split at hnext
    · cases hnext
      exact .inl ⟨.idle, rfl, trivial, nofun⟩
    · obtain ⟨config, _, rfl⟩ := Option.map_eq_some_iff.mp hnext
      exact .inl ⟨_, rfl, trivial, nofun⟩
  | disconnecting config =>
    rw [hrequest] at hnext
    cases hnext
    exact .inr (.inr (.inl ⟨config, rfl, rfl⟩))
  | configure body =>
    rw [hrequest] at hnext
    simp only [Request.advance] at hnext
    split at hnext
    · cases hnext
      exact .inl ⟨.idle, rfl, trivial, nofun⟩
    · split at hnext
      · cases hnext
        exact .inl ⟨.idle, rfl, trivial, nofun⟩
      · cases hnext
        exact .inl ⟨_, rfl, trivial, fun _ hbody => hbody⟩
  | chosen body account =>
    rw [hrequest] at hnext
    cases hnext
    exact .inl ⟨_, rfl, trivial, fun _ hbody => hbody⟩
  | found body account existing =>
    rw [hrequest] at hnext
    simp only [Request.advance] at hnext
    split at hnext
    · cases hnext
      exact .inl ⟨.idle, rfl, trivial, nofun⟩
    · cases hnext
      exact .inl ⟨_, rfl, trivial, fun _ hbody => hbody⟩
  | ready body account existing =>
    rw [hrequest] at hnext
    simp only [Request.advance] at hnext
    split at hnext
    · next hmake =>
      split at hnext
      · next hfull =>
        cases hnext
        refine .inl ⟨.idle, rfl, fun _ hroom => ?_, nofun⟩
        rw [hfull] at hroom
        cases hroom
      · next hroom =>
        cases hnext
        rw [Bool.not_eq_true] at hroom
        exact .inr (.inr (.inr (.inl ⟨body, account, existing, rfl, hmake, hroom, rfl⟩)))
    · next hkeep =>
      cases hnext
      rw [Bool.not_eq_true] at hkeep
      exact .inr (.inr (.inr (.inr ⟨body, account, existing, rfl, hkeep, rfl⟩)))

theorem sound_advance (hs : Sound s)
    (hnext : (s.requests i).advance s i now choice = some s') :
    Sound s' ↔ Fresh s (.advance i now choice) := by
  obtain ⟨r, rfl, hfresh, _⟩ | ⟨config, hrequest, rfl⟩ | ⟨config, hrequest, rfl⟩ |
    ⟨body, account, existing, hrequest, hmake, hroom, rfl⟩ |
    ⟨body, account, existing, hrequest, hkeep, rfl⟩ := advance_cases hnext
  · exact iff_of_true (hs.set i r) hfresh
  · unfold Fresh
    dsimp only
    rw [hrequest]
    exact sound_switching config
  · unfold Fresh
    dsimp only
    rw [hrequest]
    refine iff_of_true (hs.update ?_ ?_ ?_ rfl rfl) trivial
    · intro c
      split <;> rfl
    · intro c
      split <;> rfl
    · intro c hactive
      split at hactive
      · cases hactive
      · exact hactive
  · unfold Fresh
    dsimp only
    rw [hrequest, sound_ready hmake]
    exact ⟨fun hstill _ _ => hstill, fun hfresh => hfresh hmake hroom⟩
  · unfold Fresh
    dsimp only
    rw [hrequest]
    refine iff_of_true (hs.mono rfl ?_) fun hmake => ?_
    · intro c hc hactive
      rcases mem_save hc with ⟨_, hsaved, _⟩ | hold
      · rw [hsaved, hkeep] at hactive
        cases hactive
      · exact ⟨c, hold, hactive, rfl, rfl⟩
    · rw [hkeep] at hmake
      cases hmake

/-- The engine looks at the flags of every configuration it runs. -/
theorem engine_runsActive (s : State) (configurations : Option (List Configuration)) :
    ∀ c ∈ s.engineRun configurations, c.is_active = true ∧ c.enabled = true := by
  intro c hc
  obtain ⟨_, hflags⟩ := List.mem_filter.mp hc
  obtain ⟨hflags, hactive⟩ := Bool.and_eq_true_iff.mp hflags
  exact ⟨hactive, (Bool.and_eq_true_iff.mp hflags).1⟩

theorem tick_runsActive (s : State) (schedule : Option String) :
    RunsActive s (.tick schedule) ↔ ∀ c ∈ s.due schedule, c.is_active = true := by
  constructor
  · exact fun hruns c hc => (hruns c hc).1
  · intro hactive c hc
    obtain ⟨_, hflags⟩ := List.mem_filter.mp hc
    obtain ⟨hflags, _⟩ := Bool.and_eq_true_iff.mp hflags
    exact ⟨hactive c hc, (Bool.and_eq_true_iff.mp hflags).1⟩

theorem sound_begin {strategy : ℕ} {r : Request} (hs : Sound s)
    (hnext : s.begin i strategy r = some s') : Sound s' := by
  unfold State.begin at hnext
  split at hnext
  · split at hnext
    · cases hnext
      exact hs.set i r
    · cases hnext
  · cases hnext

/-- What a step has to meet is all that it takes. -/
theorem sound_step (s : State) (a : Action) (s' : State) (hs : Sound s)
    (hnext : strategies.next s a = some s') : Sound s' ∧ RunsActive s a ↔ Fresh s a := by
  cases a with
  | switch i strategy configuration_id =>
    exact iff_of_true ⟨sound_begin hs hnext, trivial⟩ trivial
  | disconnect i strategy configuration_id =>
    exact iff_of_true ⟨sound_begin hs hnext, trivial⟩ trivial
  | configure i body =>
    simp only [strategies, State.next] at hnext
    split at hnext
    · exact iff_of_true ⟨sound_begin hs hnext, trivial⟩ trivial
    · cases hnext
  | advance i now choice =>
    exact (and_iff_left trivial).trans (sound_advance hs hnext)
  | fail i =>
    cases hnext
    exact iff_of_true ⟨hs.set i .idle, trivial⟩ trivial
  | pause ids =>
    cases hnext
    refine iff_of_true ⟨hs.update ?_ ?_ ?_ rfl rfl, trivial⟩ trivial
    · intro c
      split <;> rfl
    · intro c
      split <;> rfl
    · intro c hactive
      split at hactive
      · exact hactive
      · exact hactive
  | stop ids =>
    cases hnext
    refine iff_of_true ⟨hs.update ?_ ?_ ?_ rfl rfl, trivial⟩ trivial
    · intro c
      split <;> rfl
    · intro c
      split <;> rfl
    · intro c hactive
      split at hactive
      · cases hactive
      · exact hactive
  | account a active =>
    cases hnext
    exact iff_of_true ⟨hs.same rfl rfl, trivial⟩ trivial
  | subscribe plan =>
    cases hnext
    exact iff_of_true ⟨hs.same rfl rfl, trivial⟩ trivial
  | catalogue strategy enabled =>
    cases hnext
    exact iff_of_true ⟨hs.same rfl rfl, trivial⟩ trivial
  | engine configurations =>
    cases hnext
    exact iff_of_true ⟨hs, engine_runsActive s configurations⟩ trivial
  | tick schedule =>
    cases hnext
    exact (and_iff_right hs).trans (tick_runsActive s schedule)

/-! ## Runs -/

theorem sound_start (accounts : ℕ → Option Bool) (plan : Plan) (enabled : ℕ → Bool) :
    Sound (State.start accounts plan enabled) where
  single := nofun
  activated := nofun

/-- In every run the activations are sound and the runners run active configurations exactly if
every step is fresh. -/
theorem activation_iff {accounts : ℕ → Option Bool} {plan : Plan} {enabled : ℕ → Bool}
    (hrun : strategies.Run (State.start accounts plan enabled) as t) :
    Machine.RunIf.Always strategies Sound (State.start accounts plan enabled) as ∧
        strategies.RunIf RunsActive (State.start accounts plan enabled) as t ↔
      strategies.RunIf Fresh (State.start accounts plan enabled) as t := by
  have hstep : ∀ s a s', True → Sound s → strategies.next s a = some s' →
      (Sound s' ∧ RunsActive s a ↔ Fresh s a) := fun s a s' _ => sound_step s a s'
  rw [Machine.RunIf.always_and_iff (fun _ _ _ _ _ => trivial) hstep hrun trivial]
  exact and_iff_right (sound_start accounts plan enabled)

/-! ### A user with one account -/

instance (s : State) : (a : Action) → Decidable (Fresh s a)
  | .advance i now choice =>
      match hrequest : s.requests i with
      | .switching config =>
          decidable_of_iff
            ((s.configurations.get? config.pk).all fun c => s.active c.broker_account) (by
              cases hc : s.configurations.get? config.pk with
              | none => simp [Fresh, hrequest, hc]
              | some c => simp [Fresh, hrequest, hc])
      | .ready body account existing =>
          decidable_of_iff (body.make_active = true → full s existing = false →
            s.active account = true) (by simp [Fresh, hrequest])
      | .idle | .switch _ _ | .disconnect _ _ | .disconnecting _ | .configure _ | .chosen _ _
      | .found _ _ _ => isTrue (by simp [Fresh, hrequest])
  | .tick schedule => inferInstanceAs (Decidable (∀ c ∈ s.due schedule, c.is_active = true))
  | .switch _ _ _ | .disconnect _ _ _ | .configure _ _ | .fail _ | .pause _ | .stop _
  | .account _ _ | .subscribe _ | .catalogue _ _ | .engine _ => isTrue trivial

/-- The user has account 1. -/
def oneAccount (a : ℕ) : Option Bool := if a = 1 then some true else none

def momentum (make_active : Bool) : Configure :=
  ⟨1, "R_75", "M1", "balanced", "every_candle", some 1, none, make_active⟩

/-- The request and its steps. -/
def configuring (make_active : Bool) : List Action :=
  [.configure 0 (momentum make_active), .advance 0 10 0, .advance 0 10 0, .advance 0 10 0,
    .advance 0 10 0]

/-- A strategy is activated, and both runners run it. -/
theorem activated_runs :
    ∃ t, strategies.Run (State.start oneAccount .FREE fun _ => true)
        (configuring true ++ [.engine none, .tick none]) t ∧
      Machine.RunIf.Always strategies Sound (State.start oneAccount .FREE fun _ => true)
          (configuring true ++ [.engine none, .tick none]) ∧
        strategies.RunIf RunsActive (State.start oneAccount .FREE fun _ => true)
          (configuring true ++ [.engine none, .tick none]) t := by
  have hexec : (strategies.execIf Fresh (State.start oneAccount .FREE fun _ => true)
      (configuring true ++ [.engine none, .tick none])).isSome = true := by
    decide +kernel
  obtain ⟨t, ht⟩ := Machine.exists_runIf hexec
  have hrun := ht.mono fun _ _ _ => trivial
  exact ⟨t, hrun, (activation_iff hrun).mpr ht⟩

/-- A strategy is saved and not activated, and the scheduler runs it. -/
theorem scheduler_runs_inactive :
    ¬ ∀ (accounts : ℕ → Option Bool) (plan : Plan) (enabled : ℕ → Bool) (as : List Action)
        (t : State), strategies.Run (State.start accounts plan enabled) as t →
      Machine.RunIf.Always strategies Sound (State.start accounts plan enabled) as ∧
        strategies.RunIf RunsActive (State.start accounts plan enabled) as t := by
  intro hall
  have hexec : (strategies.exec (State.start oneAccount .FREE fun _ => true)
      (configuring false)).any (fun t => (t.due none).any fun c => !c.is_active) = true := by
    decide +kernel
  obtain ⟨t, ht, hdue⟩ := (Option.any_eq_true _ _).mp hexec
  have hrun : strategies.Run (State.start oneAccount .FREE fun _ => true)
      (configuring false ++ [.tick none]) t :=
    (Machine.exec_eq_some_iff.mp ht).append (.cons trivial rfl (.nil t))
  have hruns := (hall oneAccount .FREE (fun _ => true) _ t hrun).2.guard_of_exec ht
  obtain ⟨c, hc, hinactive⟩ := List.any_eq_true.mp hdue
  rw [(hruns c hc).1] at hinactive
  cases hinactive

end AlgoBot.Strategies
