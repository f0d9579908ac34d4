import AlgoBot.Core.Machine
import AlgoBot.Python.Value

/-!
# Daily quotas

`PlanEntitlementMiddleware` decides from the rows `AuditMiddleware` has written, and
`AuditMiddleware` stands outside of it, so refused requests are in the count as well.
What is gated and what is counted are two separate lists of paths and methods.

* `quota_kept`: in a day in which every request gated on a metric is one the metric
  counts, at most as many are let through as the plan allows.
* `counts_api_calls`: the execution calls are all counted. `counts_iff_post`: of the
  requests gated on one of the features only those with `POST` are.
* `quota_exceeded`: `PUT` requests past the limit.
-/

namespace AlgoBot.Quota

open AlgoBot.Core AlgoBot.Python

/-! ## Plans -/

/-- The metrics the middleware gates. -/
inductive Metric where
  | api_calls
  | backtests
  | predictions
  | orders
  | automations
deriving DecidableEq, Repr

def Metric.text : Metric → String
  | .api_calls => "api_calls"
  | .backtests => "backtests"
  | .predictions => "predictions"
  | .orders => "orders"
  | .automations => "automations"

/-- `FEATURE_LABELS`. -/
def FEATURE_LABELS : Metric → String
  | .api_calls => "Execution API calls"
  | .backtests => "backtests"
  | .predictions => "AI predictions"
  | .orders => "orders"
  | .automations => "automation runs"

inductive Window where
  | day
  | minute
deriving DecidableEq, Repr

def Window.text : Window → String
  | .day => "day"
  | .minute => "minute"

/-- Seconds of a window. -/
def Window.length : Window → ℕ
  | .day => 86400
  | .minute => 60

/-- The limits of a plan that the middleware looks at; a negative one is no limit. -/
structure PlanEntitlement where
  key : String
  name : String
  api_daily : ℤ
  api_per_minute : ℤ
  backtests_daily : ℤ
  predictions_daily : ℤ
  orders_daily : ℤ
  automations : ℤ
deriving DecidableEq, Repr

/-- `PLAN_ENTITLEMENTS`. -/
def PLAN_ENTITLEMENTS : List PlanEntitlement :=
  [⟨"FREE", "Free", 250, 30, 3, 25, 10, 1⟩,
    ⟨"BASIC", "Basic", 5000, 120, 50, 250, 100, 5⟩,
    ⟨"PRO", "Pro", 25000, 300, 500, 2000, 1000, 25⟩,
    ⟨"ENTERPRISE", "Enterprise", -1, -1, -1, -1, -1, -1⟩]

/-- `limit_for`. -/
def limitFor (plan : PlanEntitlement) (metric : Metric) (window : Window) : ℤ :=
  match metric with
  | .api_calls =>
    match window with
    | .day => plan.api_daily
    | .minute => plan.api_per_minute
  | .backtests => plan.backtests_daily
  | .predictions => plan.predictions_daily
  | .orders => plan.orders_daily
  | .automations => plan.automations

/-! ## Usage -/

/-- Request methods, which the server has put into upper case. -/
inductive Method where
  | GET
  | HEAD
  | OPTIONS
  | POST
  | PUT
  | PATCH
  | DELETE
  | other (name : String)
deriving DecidableEq, Repr

structure AuditLog where
  user : ℕ
  path : String
  method : Method
  status_code : ℕ
  created_at : ℕ
deriving DecidableEq, Repr

/-- `path.startswith(start)`. -/
def startsWith (path start : String) : Bool := start.toList.isPrefixOf path.toList

/-- Whether a path starts with one of a list. -/
def startsWithAny (path : String) (starts : List String) : Bool :=
  starts.any fun start => startsWith path start

def EXECUTION_PATH_PREFIXES : List String :=
  ["/api/orders/", "/api/trading/execute/", "/api/trades/execute/", "/api/execution/"]

def EXECUTION_METHODS : List Method := [.POST, .PUT, .PATCH]

/-- The paths and methods whose rows `usage` counts. -/
def usageFilter : Metric → List String × List Method
  | .api_calls => (EXECUTION_PATH_PREFIXES, EXECUTION_METHODS)
  | .backtests => (["/api/backtesting/"], [.POST])
  | .predictions => (["/api/ai/", "/api/predictions/"], [.POST])
  | .orders => (["/api/orders/"], [.POST])
  | .automations => (["/api/automation/", "/automation/"], [.POST])

/-- The row is one `usage` counts for the metric. -/
def counts (metric : Metric) (row : AuditLog) : Bool :=
  startsWithAny row.path (usageFilter metric).1 && row.method ∈ (usageFilter metric).2

/-- `_start`. -/
def start (window : Window) (now : ℕ) : ℕ := now / window.length * window.length

/-- `usage`, from the start of the window on. -/
def usage (rows : List AuditLog) (user : ℕ) (metric : Metric) (start : ℕ) : ℕ :=
  rows.countP fun row => row.user == user && decide (start ≤ row.created_at) && counts metric row

/-- `check`: allowed, used and limit. -/
def check (plan : PlanEntitlement) (rows : List AuditLog) (user : ℕ) (metric : Metric)
    (window : Window) (now : ℕ) : Bool × ℕ × ℤ :=
  let limit := limitFor plan metric window
  let current := usage rows user metric (start window now)
  (limit < 0 || (current + 1 : ℤ) ≤ limit, current, limit)

/-! ## The gate -/

/-- A request, its time, and what the rest of the application would answer, and when. -/
structure Request where
  user : Option ℕ
  path : String
  method : Method
  now : ℕ
  status_code : ℕ
  answered : ℕ

/-- `FEATURE_PATHS`. -/
def FEATURE_PATHS : List (Metric × List String) :=
  [(.backtests, ["/api/backtesting/"]), (.predictions, ["/api/ai/", "/api/predictions/"]),
    (.orders, ["/api/orders/"]), (.automations, ["/api/automation/"])]

/-- `_is_execution_request`. -/
def isExecutionRequest (r : Request) : Bool :=
  r.method ∈ EXECUTION_METHODS && startsWithAny r.path EXECUTION_PATH_PREFIXES

/-- `_feature_metric`. -/
def featureMetric (r : Request) : Option Metric :=
  if r.method ∈ EXECUTION_METHODS then
    (FEATURE_PATHS.find? fun feature => startsWithAny r.path feature.2).map Prod.fst
  else none

/-- `rate_limit_response_data`, and the `Retry-After` header. -/
structure QuotaExceeded where
  detail : String
  code : String
  metric : Metric
  metric_label : String
  window : Window
  used : ℕ
  limit : Option ℤ
  remaining : Option ℤ
  unlimited : Bool
  reset_at : ℕ
  retry_after_seconds : ℕ
  plan : String
  plan_name : String
  upgrade_available : Bool
  retry_after : String

def rateLimitResponseData (plan : PlanEntitlement) (metric : Metric) (window : Window)
    (current : ℕ) (limit : ℤ) (now : ℕ) : QuotaExceeded where
  detail := FEATURE_LABELS metric ++ " quota exceeded for the " ++ window.text ++ " window."
  code := "plan_quota_exceeded"
  metric := metric
  metric_label := FEATURE_LABELS metric
  window := window
  used := current
  limit := if limit < 0 then none else some limit
  remaining := if limit < 0 then none else some (max 0 (limit - current))
  unlimited := limit < 0
  reset_at := start window now + window.length
  retry_after_seconds := start window now + window.length - now
  plan := plan.key
  plan_name := plan.name
  upgrade_available := plan.key != "ENTERPRISE"
  retry_after := if window = .day then "86400" else "60"

/-- What the middleware does with a request. -/
inductive Decision where
  | allowed
  | refused (response : QuotaExceeded)

/-- One `check`, and the response when it fails. -/
def require (plan : PlanEntitlement) (rows : List AuditLog) (user : ℕ) (metric : Metric)
    (window : Window) (now : ℕ) (next : Decision) : Decision :=
  let result := check plan rows user metric window now
  if result.1 then next
  else .refused (rateLimitResponseData plan metric window result.2.1 result.2.2 now)

/-- `PlanEntitlementMiddleware.__call__`; `plan` is `effective_plan`. -/
def gate (plan : ℕ → PlanEntitlement) (rows : List AuditLog) (r : Request) : Decision :=
  match r.user with
  | none => .allowed
  | some user =>
    if !startsWith r.path "/api/" then .allowed
    else
      let feature :=
        match featureMetric r with
        | some metric => require (plan user) rows user metric .day r.now .allowed
        | none => .allowed
      if isExecutionRequest r then
        require (plan user) rows user .api_calls .day r.now
          (require (plan user) rows user .api_calls .minute r.now feature)
      else feature

/-- `AuditMiddleware.EXCLUDED_PATHS`. -/
def EXCLUDED_PATHS : List String := ["/static/", "/media/", "/health/", "/favicon.ico"]

/-- The row `AuditMiddleware` writes for the answer to a request. -/
def Request.row (r : Request) (user : ℕ) (decision : Decision) : AuditLog where
  user := user
  path := take 500 r.path
  method := r.method
  status_code :=
    match decision with
    | .allowed => r.status_code
    | .refused _ => 429
  created_at := r.answered

/-- The audit rows after a request has been answered. -/
def audited (plan : ℕ → PlanEntitlement) (rows : List AuditLog) (r : Request) : List AuditLog :=
  match r.user with
  | none => rows
  | some user =>
    if startsWithAny r.path EXCLUDED_PATHS then rows
    else r.row user (gate plan rows r) :: rows

/-- Requests of any users in any order, each answered before the next. -/
def gateway (plan : ℕ → PlanEntitlement) : Machine (List AuditLog) Request :=
  ⟨fun rows r => some (audited plan rows r)⟩

/-! ## What is gated and what is counted -/

/-- The request is gated on the metric. -/
def gated (metric : Metric) (r : Request) : Bool :=
  startsWith r.path "/api/" &&
    if metric = .api_calls then isExecutionRequest r else featureMetric r == some metric

section Counts

variable {path : String} {r : Request} {m : Metric} {user : ℕ} {d : Decision}

theorem startsWith_iff {start : String} :
    startsWith path start = true ↔ start.toList <+: path.toList :=
  List.isPrefixOf_iff_prefix

theorem startsWith_take {start : String} (h : start.toList.length ≤ 500) :
    startsWith (take 500 path) start = startsWith path start := by
  rw [Bool.eq_iff_iff, startsWith_iff, startsWith_iff, toList_take, List.prefix_take_iff]
  exact ⟨fun hboth => hboth.1, fun hstart => ⟨hstart, h⟩⟩

theorem startsWithAny_take {starts : List String}
    (h : (starts.all fun start => start.toList.length ≤ 500) = true) :
    startsWithAny (take 500 path) starts = startsWithAny path starts := by
  induction starts with
  | nil => simp only [startsWithAny, List.any_nil]
  | cons start starts ih =>
    rw [List.all_cons, Bool.and_eq_true, decide_eq_true_eq] at h
    have hrest := ih h.2
    unfold startsWithAny at hrest ⊢
    rw [List.any_cons, List.any_cons, startsWith_take h.1, hrest]

/-- The cut of a path does not matter to the count. -/
theorem counts_row : counts m (r.row user d) =
    (startsWithAny r.path (usageFilter m).1 && decide (r.method ∈ (usageFilter m).2)) := by
  have hshort : ((usageFilter m).1.all fun start => start.toList.length ≤ 500) = true := by
    cases m <;> decide +kernel
  have hcut : startsWithAny (r.row user d).path (usageFilter m).1 =
      startsWithAny r.path (usageFilter m).1 := startsWithAny_take hshort
  rw [counts, hcut]
  rfl

/-- Every execution call is counted. -/
theorem counts_api_calls (h : gated .api_calls r = true) :
    counts .api_calls (r.row user d) = true := by
  rw [gated, if_pos rfl, Bool.and_eq_true, isExecutionRequest] at h
  rw [counts_row, Bool.and_comm]
  exact h.2

/-- The paths a feature is gated on are among those its metric counts. -/
theorem path_of_feature (h : featureMetric r = some m) :
    r.method ∈ EXECUTION_METHODS ∧ m ≠ .api_calls ∧
      startsWithAny r.path (usageFilter m).1 = true := by
  unfold featureMetric at h
  split at h
  · next hmethod =>
    rcases Option.map_eq_some_iff.mp h with ⟨feature, hfind, rfl⟩
    have hpath := List.find?_some hfind
    have hmem := List.mem_of_find?_eq_some hfind
    refine ⟨hmethod, ?_⟩
    simp only [FEATURE_PATHS, List.mem_cons, List.not_mem_nil, or_false] at hmem
    rcases hmem with rfl | rfl | rfl | rfl
    · exact ⟨by decide, hpath⟩
    · exact ⟨by decide, hpath⟩
    · exact ⟨by decide, hpath⟩
    · refine ⟨by decide, ?_⟩
      -- the count also takes the pages outside of the api
      simp only [startsWithAny, usageFilter, List.any_cons, List.any_nil, Bool.or_false] at hpath ⊢
      rw [hpath, Bool.true_or]
  · cases h

/-- Of the requests gated on a feature, those with `POST` are counted. -/
theorem counts_iff_post (hm : m ≠ .api_calls) (h : gated m r = true) :
    counts m (r.row user d) = true ↔ r.method = .POST := by
  have hfeature : featureMetric r = some m := by
    rw [gated, if_neg hm, Bool.and_eq_true, beq_iff_eq] at h
    exact h.2
  have hpost : (usageFilter m).2 = [.POST] := by
    cases m with
    | api_calls => exact absurd rfl hm
    | _ => rfl
  rw [counts_row, (path_of_feature hfeature).2.2, hpost]
  simp

/-- A gated request is not among the paths without audit. -/
theorem audited_of_gated (h : gated m r = true) : startsWithAny r.path EXCLUDED_PATHS = false := by
  have hapi : "/api/".toList <+: r.path.toList := by
    rw [gated, Bool.and_eq_true, startsWith_iff] at h
    exact h.1
  have hother : ∀ start ∈ EXCLUDED_PATHS, ¬ start.toList <+: r.path.toList := by
    intro start hstart hprefix
    have hapart : ∀ start ∈ EXCLUDED_PATHS, ¬ start.toList <+: "/api/".toList ∧
        ¬ "/api/".toList <+: start.toList := by decide +kernel
    -- of two starts of one path one starts the other
    rcases List.prefix_or_prefix_of_prefix hprefix hapi with hle | hle
    · exact (hapart start hstart).1 hle
    · exact (hapart start hstart).2 hle
  rw [startsWithAny, List.any_eq_false]
  intro start hstart htrue
  exact hother start hstart (startsWith_iff.mp htrue)

/-- A request let through has passed the check of each metric it is gated on. -/
theorem check_of_allowed {plan : ℕ → PlanEntitlement} {rows : List AuditLog}
    (huser : r.user = some user) (hgated : gated m r = true)
    (h : gate plan rows r = .allowed) : (check (plan user) rows user m .day r.now).1 = true := by
  have hrequire : ∀ {metric : Metric} {window : Window} {next : Decision},
      require (plan user) rows user metric window r.now next = .allowed →
      (check (plan user) rows user metric window r.now).1 = true ∧ next = .allowed := by
    intro metric window next hall
    unfold require at hall
    dsimp only at hall
    split at hall
    · next hcheck => exact ⟨hcheck, hall⟩
    · cases hall
  rw [gated, Bool.and_eq_true] at hgated
  rcases hgated with ⟨hapi, hmetric⟩
  unfold gate at h
  simp only [huser, hapi, Bool.not_true, Bool.false_eq_true, if_false] at h
  by_cases hm : m = .api_calls
  · subst hm
    rw [if_pos rfl] at hmetric
    rw [if_pos hmetric] at h
    exact (hrequire h).1
  · rw [if_neg hm, beq_iff_eq] at hmetric
    simp only [hmetric] at h
    split at h
    · exact (hrequire (hrequire (hrequire h).2).2).1
    · exact (hrequire h).1

end Counts

/-! ## A day of requests -/

/-- The request is gated on the metric for this user, and let through. -/
def letThrough (plan : ℕ → PlanEntitlement) (user : ℕ) (m : Metric) (rows : List AuditLog)
    (r : Request) : ℕ :=
  match gate plan rows r with
  | .allowed => if r.user = some user ∧ gated m r = true then 1 else 0
  | .refused _ => 0

/-- The request arrives and is answered on day `day`. -/
def OnDay (day : ℕ) (r : Request) : Prop :=
  r.now / 86400 = day ∧ r.answered / 86400 = day

instance (day : ℕ) (r : Request) : Decidable (OnDay day r) :=
  inferInstanceAs (Decidable (_ ∧ _))

/-- A request of the user that is gated on the metric is one its usage counts, or finds the quota
used up. -/
def Metered (plan : ℕ → PlanEntitlement) (user : ℕ) (m : Metric) (day : ℕ)
    (rows : List AuditLog) (r : Request) : Prop :=
  r.user = some user → gated m r = true →
    (∀ d, counts m (r.row user d) = true) ∨
      limitFor (plan user) m .day ≤ usage rows user m (day * 86400)

section Day

variable {plan : ℕ → PlanEntitlement} {rows rows' : List AuditLog} {r : Request} {m : Metric}
  {user day : ℕ} {rs : List Request}

theorem usage_le_audited (plan : ℕ → PlanEntitlement) (rows : List AuditLog) (r : Request)
    (user : ℕ) (m : Metric) (start : ℕ) :
    usage rows user m start ≤ usage (audited plan rows r) user m start := by
  unfold audited
  split
  · exact Nat.le_refl _
  · split
    · exact Nat.le_refl _
    · rw [usage, usage, List.countP_cons]
      omega

/-- A gated request that is counted uses one of the quota, refused or not. -/
theorem usage_audited (hday : OnDay day r) (huser : r.user = some user)
    (hgated : gated m r = true) (hcounts : ∀ d, counts m (r.row user d) = true) :
    usage (audited plan rows r) user m (day * 86400) =
      usage rows user m (day * 86400) + 1 := by
  have hstart : day * 86400 ≤ r.answered := by
    have hanswered := hday.2
    omega
  have hrow : (((r.row user (gate plan rows r)).user == user) &&
      decide (day * 86400 ≤ (r.row user (gate plan rows r)).created_at) &&
        counts m (r.row user (gate plan rows r))) = true := by
    rw [hcounts, Bool.and_true, Bool.and_eq_true]
    exact ⟨beq_self_eq_true user, decide_eq_true hstart⟩
  have hrows : audited plan rows r = r.row user (gate plan rows r) :: rows := by
    simp [audited, huser, audited_of_gated hgated]
  rw [hrows, usage, List.countP_cons, if_pos hrow]
  rfl

/-- What is let through is paid for out of what is left of the quota. -/
theorem letThrough_step (hlimit : 0 ≤ limitFor (plan user) m .day) (hday : OnDay day r)
    (hmetered : Metered plan user m day rows r) :
    letThrough plan user m rows r +
      ((limitFor (plan user) m .day).toNat -
        usage (audited plan rows r) user m (day * 86400)) ≤
      (limitFor (plan user) m .day).toNat - usage rows user m (day * 86400) := by
  have hmono := usage_le_audited plan rows r user m (day * 86400)
  unfold letThrough
  split
  · next hallowed =>
    split
    · next hgated =>
      have hcheck := check_of_allowed hgated.1 hgated.2 hallowed
      have hstart : start .day r.now = day * 86400 := by
        rw [start, Window.length, hday.1]
      have hroom : (usage rows user m (day * 86400) : ℤ) + 1 ≤ limitFor (plan user) m .day := by
        simp only [check, hstart, Bool.or_eq_true, decide_eq_true_eq] at hcheck
        omega
      have hused : usage (audited plan rows r) user m (day * 86400) =
          usage rows user m (day * 86400) + 1 := by
        rcases hmetered hgated.1 hgated.2 with hcounts | hfull
        · exact usage_audited hday hgated.1 hgated.2 hcounts
        · omega
      rw [hused]
      omega
    · omega
  · omega

/-- In a day of requests, each of them metered, at most as many requests gated on a metric are let
through as the plan allows. -/
theorem quota_kept (plan : ℕ → PlanEntitlement) (user : ℕ) (m : Metric) (day : ℕ)
    {rows rows' : List AuditLog} {rs : List Request}
    (hlimit : 0 ≤ limitFor (plan user) m .day)
    (hrun : (gateway plan).RunIf
      (fun rows r => OnDay day r ∧ Metered plan user m day rows r) rows rs rows') :
    ((gateway plan).total (letThrough plan user m) rows rs : ℤ) ≤
      limitFor (plan user) m .day := by
  let left : List AuditLog → ℕ := fun rows =>
    (limitFor (plan user) m .day).toNat - usage rows user m (day * 86400)
  have hstep : ∀ rows r rows', OnDay day r ∧ Metered plan user m day rows r →
      (gateway plan).next rows r = some rows' →
      letThrough plan user m rows r + left rows' ≤ left rows := by
    intro rows r rows' hg hn
    cases hn
    exact letThrough_step hlimit hg.1 hg.2
  have hpaid := hrun.total_le_potential left hstep
  have hleft : left rows ≤ (limitFor (plan user) m .day).toNat := Nat.sub_le _ _
  omega

end Day

/-- A request of user 1 to a page of backtests. -/
def backtest (method : Method) (now : ℕ) : Request where
  user := some 1
  path := "/api/backtesting/runs/1/"
  method := method
  now := now
  status_code := 200
  answered := now

/-- Everybody has the plan `FREE`. -/
def free : ℕ → PlanEntitlement := fun _ => ⟨"FREE", "Free", 250, 30, 3, 25, 10, 1⟩

/-- Five requests with `POST`, of which three are let through. -/
theorem quota_kept_post :
    ((gateway free).total (letThrough free 1 .backtests) []
      [backtest .POST 0, backtest .POST 1, backtest .POST 2, backtest .POST 3,
        backtest .POST 4] : ℤ) ≤ 3 := by
  have hpost : ∀ rows now, Metered free 1 .backtests 0 rows (backtest .POST now) := by
    intro rows now _ hgated
    exact Or.inl fun d => (counts_iff_post (by decide) hgated).mpr rfl
  exact quota_kept free 1 .backtests 0 (by decide)
    (.cons ⟨by decide, hpost _ _⟩ rfl (.cons ⟨by decide, hpost _ _⟩ rfl
      (.cons ⟨by decide, hpost _ _⟩ rfl (.cons ⟨by decide, hpost _ _⟩ rfl
        (.cons ⟨by decide, hpost _ _⟩ rfl (.nil _))))))

/-- Four requests with `PUT` are let through, with a limit of three. -/
theorem quota_exceeded :
    ¬ ((gateway free).total (letThrough free 1 .backtests) []
      [backtest .PUT 0, backtest .PUT 1, backtest .PUT 2, backtest .PUT 3] : ℤ) ≤
        limitFor (free 1) .backtests .day := by
  decide +kernel

end AlgoBot.Quota
