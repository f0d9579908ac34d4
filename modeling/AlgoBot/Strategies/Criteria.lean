import AlgoBot.Automation.Conditions
import AlgoBot.Core.DecimalOrder

/-!
# Criteria

The criteria of a strategy are a JSON object, and any object is stored. Seven of
its keys bound a number of the market, two name what is allowed. The engine
compares decimals, and it makes sets of what is named.

* `evaluates_safely_iff`: when the engine raises nothing but its own error, passes
  only criteria that are met, and takes a text for the one value that it is.
* `one_signal`: the engine takes a text for the set of its characters.
-/

namespace AlgoBot.Strategies.Criteria

open AlgoBot.Core AlgoBot.Python
open AlgoBot.Automation.Conditions (FloatHost pyEq hashable numberEq FloatHost.digits)

/-! ## The engine -/

/-- What `evaluate` can raise. -/
inductive Raised where
  | CriteriaEvaluationError (text : String)
  | InvalidOperation
  | TypeError
deriving DecidableEq, Repr

/-- What criteria are evaluated against. -/
structure Data where
  market_data : Option Dict
  indicator_data : Option Dict
  signal : Option String
  confidence : Value

namespace Data

/-- `market_data or {}`. -/
def market (d : Data) : Dict := d.market_data.getD []

/-- `indicator_data or {}`. -/
def indicators (d : Data) : Dict := d.indicator_data.getD []

def signalValue (d : Data) : Value :=
  match d.signal with
  | none => .none
  | some s => .str s

end Data

/-- `Decimal(str(value))`, unless it raises. -/
def decimal (h : Host) (value : Value) : Option Dec := decimalOfText h (value.toStr h)

/-- `_number`. -/
def number (h : Host) (value : Value) (key : String) : Except Raised Dec :=
  match decimal h value with
  | some x => .ok x
  | none => .error (.CriteriaEvaluationError ("Criteria '" ++ key ++ "' must be numeric"))

/-- Which side of its bound a number has to be on. -/
inductive Side where
  | min
  | max

/-- `x < y` for a lower bound `y`, and `x > y` for an upper one. -/
def Side.crossed (side : Side) (x y : Dec) : Except Raised Bool :=
  (match side with
    | .min => Dec.gt y x
    | .max => Dec.gt x y).mapError fun _ => .InvalidOperation

/-- A key with a bound, the number that is bounded, and the reason given against it. -/
structure Bound where
  key : String
  value : Value
  side : Side
  reason : String

/-- The supported bounds, in the order they are looked at. -/
def bounds (d : Data) : List Bound :=
  [⟨"rsi_min", d.indicators.get "rsi", .min, "RSI is below rsi_min"⟩,
    ⟨"rsi_max", d.indicators.get "rsi", .max, "RSI is above rsi_max"⟩,
    ⟨"price_min", d.market.get "close", .min, "price is below price_min"⟩,
    ⟨"price_max", d.market.get "close", .max, "price is above price_max"⟩,
    ⟨"min_confidence", d.confidence, .min, "confidence is below min_confidence"⟩,
    ⟨"max_range", d.indicators.get "range", .max, "range is above max_range"⟩,
    ⟨"min_range", d.indicators.get "range", .min, "range is below min_range"⟩]

/-- The reasons that one bound adds. -/
def checkBound (h : Host) (criteria : Dict) (b : Bound) : Except Raised (List String) :=
  match criteria.lookup b.key with
  | none => .ok []
  | some limit => do
    let x ← number h b.value b.key
    let y ← number h limit b.key
    if ← b.side.crossed x y then return [b.reason] else return []

/-- `set(v)`. -/
def toSet : Value → Except Raised (List Value)
  | .str s => .ok (s.toList.map fun c => .str (String.singleton c))
  | .list xs => if xs.all hashable then .ok xs else .error .TypeError
  | .dict kvs => .ok (kvs.map fun kv => .str kv.1)
  | _ => .error .TypeError

/-- The reason against a value that is not in a set. -/
def checkMember (h : FloatHost) (what : String) (allowed : List Value) (value : Value) :
    Except Raised (List String) :=
  if hashable value then
    if allowed.any fun x => pyEq h x value then .ok []
    else .ok [what ++ " " ++ h.repr value ++ " is not allowed"]
  else .error .TypeError

/-- `{required} if isinstance(required, str) else set(required)`. -/
def allowedTrends : Value → Except Raised (List Value)
  | .str s => .ok [.str s]
  | v => toSet v

def checkTrend (h : FloatHost) (criteria : Dict) (d : Data) : Except Raised (List String) :=
  if (criteria.get "trend").truthy then do
    let allowed ← allowedTrends (criteria.get "trend")
    checkMember h "trend" allowed (d.indicators.get "trend")
  else .ok []

def checkSignal (h : FloatHost) (criteria : Dict) (d : Data) : Except Raised (List String) :=
  if (criteria.get "allowed_signals").truthy then do
    let allowed ← toSet (criteria.get "allowed_signals")
    checkMember h "signal" allowed d.signalValue
  else .ok []

/-- The verdict on a JSON object. -/
def judge (h : FloatHost) (criteria : Dict) (d : Data) : Except Raised (Bool × List String) := do
  let bounded ← (bounds d).mapM (checkBound h.toHost criteria)
  let trend ← checkTrend h criteria d
  let signal ← checkSignal h criteria d
  let reasons := bounded.flatten ++ trend ++ signal
  return (reasons.isEmpty, reasons)

/-- `evaluate`. -/
def evaluate (h : FloatHost) (criteria : Value) (d : Data) : Except Raised (Bool × List String) :=
  match criteria with
  | .none => .ok (true, [])
  | .dict [] => .ok (true, [])
  | .dict kvs => judge h kvs d
  | _ => .error (.CriteriaEvaluationError "Criteria must be a JSON object")

/-! ## What criteria ask for -/

/-- The place of a value in the order of decimals; what is no number has none, and a NaN has
none. -/
def place (h : Host) (value : Value) : Option Dec.Ext := (decimal h value).bind Dec.ext

/-- The finite number that a value is. -/
def finite (h : Host) (value : Value) : Option ℚ := (decimal h value).bind Dec.toRat

/-- A number is on its side of a bound. -/
def Side.Kept : Side → Dec.Ext → Dec.Ext → Prop
  | .min, x, y => y ≤ x
  | .max, x, y => x ≤ y

namespace Bound

variable (h : Host) (criteria : Dict) (b : Bound)

/-- The bound is kept, by numbers that may be infinite. -/
def InOrder : Prop := ∀ limit, criteria.lookup b.key = some limit →
  ∃ x y, place h b.value = some x ∧ place h limit = some y ∧ b.side.Kept x y

/-- What is bounded is finite. -/
def Finite : Prop := ∀ limit, criteria.lookup b.key = some limit → (finite h b.value).isSome

/-- Both the number and its bound have a place. -/
def Ordered : Prop := ∀ limit, criteria.lookup b.key = some limit →
  (place h b.value).isSome ∧ (place h limit).isSome

/-- The number or its bound is no number. -/
def Unreadable : Prop :=
  ∃ limit, criteria.lookup b.key = some limit ∧ (decimal h b.value = none ∨ decimal h limit = none)

end Bound

/-- The values that are named; a text is one value. -/
def named : Value → List Value
  | .str s => [.str s]
  | .list xs => xs
  | .dict kvs => kvs.map fun kv => .str kv.1
  | _ => []

/-- A value is among those that are named. What is empty asks for nothing. -/
def Allows (h : FloatHost) (v value : Value) : Prop :=
  v.truthy = true → ∃ x ∈ named v, pyEq h x value = true

/-- The criteria are met in the order of decimals. -/
structure Meets (h : FloatHost) (criteria : Dict) (d : Data) : Prop where
  bounds : ∀ b ∈ bounds d, b.InOrder h.toHost criteria
  trend : Allows h (criteria.get "trend") (d.indicators.get "trend")
  signal : Allows h (criteria.get "allowed_signals") d.signalValue

/-- The criteria are met by finite data. -/
def Met (h : FloatHost) (criteria : Dict) (d : Data) : Prop :=
  Meets h criteria d ∧ ∀ b ∈ bounds d, b.Finite h.toHost criteria

/-- What is asked of the evaluation of a JSON object. -/
structure Sound (h : FloatHost) (criteria : Dict) (d : Data) : Prop where
  raises : ∀ e, evaluate h (.dict criteria) d = .error e → ∃ text, e = .CriteriaEvaluationError text
  passes : ∀ reasons, evaluate h (.dict criteria) d = .ok (true, reasons) → Met h criteria d
  single : ∀ key ∈ ["trend", "allowed_signals"], ∀ s, s ≠ "" → criteria.lookup key = some (.str s) →
    evaluate h (.dict (criteria.insert key (.list [.str s]))) d = evaluate h (.dict criteria) d

/-- A bound that is no number stands before any that is a NaN. -/
def Refused (h : Host) (criteria : Dict) (d : Data) : Prop :=
  ∃ before b after, bounds d = before ++ b :: after ∧ (∀ a ∈ before, a.Ordered h criteria) ∧
    b.Unreadable h criteria

/-- No comparison raises, sets can be made of what is named, a text is the signal exactly if one of
its characters is, and what meets the criteria is finite. -/
structure Evaluable (h : FloatHost) (criteria : Dict) (d : Data) : Prop where
  ordered : ∀ b ∈ bounds d, b.Ordered h.toHost criteria
  trends : (criteria.get "trend").truthy = true →
    (∃ vs, allowedTrends (criteria.get "trend") = .ok vs) ∧
      hashable (d.indicators.get "trend") = true
  signals : (criteria.get "allowed_signals").truthy = true →
    ∃ vs, toSet (criteria.get "allowed_signals") = .ok vs
  character : ∀ s, s ≠ "" → criteria.lookup "allowed_signals" = some (.str s) →
    ((∃ c ∈ s.toList, d.signal = some (String.singleton c)) ↔ d.signal = some s)
  finite : Meets h criteria d → ∀ b ∈ bounds d, b.Finite h.toHost criteria

variable {h : FloatHost} {criteria : Dict} {d : Data} {b : Bound}

/-! ## What each part returns -/

/-- A computation that raises has a part that raises. -/
theorem bind_error {ε α β : Type} {x : Except ε α} {f : α → Except ε β} {e : ε} :
    (x >>= f) = .error e ↔ x = .error e ∨ ∃ a, x = .ok a ∧ f a = .error e := by
  cases x with
  | error e' => simp [bind, Except.bind]
  | ok a => simp [bind, Except.bind]

/-- A loop that raises has returned at every element before the one that raises. -/
theorem mapM_error {ε α β : Type} {f : α → Except ε β} {xs : List α} {e : ε} :
    xs.mapM f = .error e ↔ ∃ before x after, xs = before ++ x :: after ∧
      (∀ y ∈ before, ∃ b, f y = .ok b) ∧ f x = .error e := by
  induction xs with
  | nil => simp [pure, Except.pure]
  | cons x xs ih =>
    rw [List.mapM_cons, bind_error]
    constructor
    · rintro (he | ⟨b, hb, hrest⟩)
      · exact ⟨[], x, xs, rfl, by simp, he⟩
      · rcases bind_error.mp hrest with hrest | ⟨bs, _, hpure⟩
        · obtain ⟨before, y, after, rfl, hbefore, hy⟩ := ih.mp hrest
          exact ⟨x :: before, y, after, rfl, List.forall_mem_cons.mpr ⟨⟨b, hb⟩, hbefore⟩, hy⟩
        · cases hpure
    · rintro ⟨before, y, after, hxs, hbefore, hy⟩
      cases before with
      | nil =>
        obtain ⟨rfl, rfl⟩ := List.cons.inj hxs
        exact Or.inl hy
      | cons z before =>
        obtain ⟨rfl, rfl⟩ := List.cons.inj hxs
        obtain ⟨⟨b, hb⟩, hbefore⟩ := List.forall_mem_cons.mp hbefore
        exact Or.inr ⟨b, hb, bind_error.mpr (Or.inl (ih.mpr ⟨before, y, after, rfl, hbefore, hy⟩))⟩

theorem number_ok {h : Host} {value : Value} {key : String} {x : Dec} :
    number h value key = .ok x ↔ decimal h value = some x := by
  unfold number
  cases decimal h value with
  | none => simp
  | some y => simp

theorem number_error {h : Host} {value : Value} {key : String} {e : Raised}
    (he : number h value key = .error e) :
    decimal h value = none ∧ ∃ text, e = .CriteriaEvaluationError text := by
  unfold number at he
  cases hx : decimal h value with
  | none =>
    rw [hx] at he
    exact ⟨rfl, _, (Except.error.inj he).symm⟩
  | some y =>
    rw [hx] at he
    cases he

/-- A comparison succeeds on numbers that have a place. -/
theorem crossed_ok {side : Side} {x y : Dec} {crossed : Bool} :
    side.crossed x y = .ok crossed ↔
      ∃ p q, x.ext = some p ∧ y.ext = some q ∧ (crossed = false ↔ side.Kept p q) := by
  unfold Side.crossed
  rw [mapError_ok]
  cases side with
  | min =>
    simp only [Dec.gt_eq_ok_iff, Side.Kept]
    constructor
    · rintro ⟨q, p, hq, hp, rfl⟩
      exact ⟨p, q, hp, hq, by simp⟩
    · rintro ⟨p, q, hp, hq, hkept⟩
      refine ⟨q, p, hq, hp, ?_⟩
      rw [← not_lt] at hkept
      cases crossed <;> simpa using hkept
  | max =>
    simp only [Dec.gt_eq_ok_iff, Side.Kept]
    constructor
    · rintro ⟨p, q, hp, hq, rfl⟩
      exact ⟨p, q, hp, hq, by simp⟩
    · rintro ⟨p, q, hp, hq, hkept⟩
      refine ⟨p, q, hp, hq, ?_⟩
      rw [← not_lt] at hkept
      cases crossed <;> simpa using hkept

theorem crossed_error {side : Side} {x y : Dec} {e : Raised} (he : side.crossed x y = .error e) :
    e = .InvalidOperation ∧ (x.ext = none ∨ y.ext = none) := by
  refine ⟨?_, ?_⟩
  · unfold Side.crossed at he
    cases side with
    | min =>
      cases hgt : Dec.gt y x with
      | ok b => simp [hgt, Except.mapError] at he
      | error s => simpa [hgt, Except.mapError] using he.symm
    | max =>
      cases hgt : Dec.gt x y with
      | ok b => simp [hgt, Except.mapError] at he
      | error s => simpa [hgt, Except.mapError] using he.symm
  · by_contra hplaces
    rw [not_or] at hplaces
    obtain ⟨p, hp⟩ := Option.ne_none_iff_exists'.mp hplaces.1
    obtain ⟨q, hq⟩ := Option.ne_none_iff_exists'.mp hplaces.2
    by_cases hkept : side.Kept p q
    · have hok := crossed_ok.mpr ⟨p, q, hp, hq, iff_of_true rfl hkept⟩
      rw [hok] at he
      cases he
    · have hok : side.crossed x y = .ok true :=
        crossed_ok.mpr ⟨p, q, hp, hq, iff_of_false (by simp) hkept⟩
      rw [hok] at he
      cases he

theorem place_eq_some {h : Host} {value : Value} {p : Dec.Ext} :
    place h value = some p ↔ ∃ x, decimal h value = some x ∧ x.ext = some p := by
  simp [place, Option.bind_eq_some_iff]

namespace Bound

variable {h : Host} {limit : Value} {x y : Dec} {p q : Dec.Ext}

theorem inOrder_iff (hlimit : criteria.lookup b.key = some limit)
    (hp : place h b.value = some p) (hq : place h limit = some q) :
    b.InOrder h criteria ↔ b.side.Kept p q := by
  simp [InOrder, hlimit, hp, hq]

theorem inOrder_of_absent (habsent : criteria.lookup b.key = none) : b.InOrder h criteria := by
  simp [InOrder, habsent]

theorem InOrder.ordered (hb : b.InOrder h criteria) : b.Ordered h criteria := by
  intro limit hlimit
  obtain ⟨p, q, hp, hq, _⟩ := hb limit hlimit
  simp [hp, hq]

end Bound

/-- A bound is looked at exactly if the two numbers have a place, and adds no reason exactly if it
is kept. -/
theorem checkBound_ok {h : Host} {reasons : List String}
    (hok : checkBound h criteria b = .ok reasons) :
    b.Ordered h criteria ∧ (reasons = [] ↔ b.InOrder h criteria) := by
  unfold checkBound at hok
  cases hlimit : criteria.lookup b.key with
  | none =>
    rw [hlimit] at hok
    cases hok
    exact ⟨(Bound.inOrder_of_absent hlimit).ordered, iff_of_true rfl (Bound.inOrder_of_absent hlimit)⟩
  | some limit =>
    rw [hlimit] at hok
    obtain ⟨x, hx, hok⟩ := bind_ok.mp hok
    obtain ⟨y, hy, hok⟩ := bind_ok.mp hok
    obtain ⟨crossed, hcrossed, hok⟩ := bind_ok.mp hok
    obtain ⟨p, q, hp, hq, hkept⟩ := crossed_ok.mp hcrossed
    have hvalue : place h b.value = some p := place_eq_some.mpr ⟨x, number_ok.mp hx, hp⟩
    have hbound : place h limit = some q := place_eq_some.mpr ⟨y, number_ok.mp hy, hq⟩
    constructor
    · intro other hother
      obtain rfl : limit = other := Option.some.inj (hlimit.symm.trans hother)
      simp [hvalue, hbound]
    · rw [Bound.inOrder_iff hlimit hvalue hbound, ← hkept]
      cases crossed with
      | true =>
        cases hok
        simp
      | false =>
        cases hok
        simp

/-- What a bound raises tells what is wrong with its numbers. -/
theorem checkBound_error {h : Host} {e : Raised} (he : checkBound h criteria b = .error e) :
    ¬ b.Ordered h criteria ∧ ((∃ text, e = .CriteriaEvaluationError text) ↔
      b.Unreadable h criteria) := by
  unfold checkBound at he
  cases hlimit : criteria.lookup b.key with
  | none =>
    rw [hlimit] at he
    cases he
  | some limit =>
    rw [hlimit] at he
    have hunreadable : b.Unreadable h criteria ↔
        decimal h b.value = none ∨ decimal h limit = none := by
      simp [Bound.Unreadable, hlimit]
    have hordered : b.Ordered h criteria ↔
        (place h b.value).isSome ∧ (place h limit).isSome := by
      simp [Bound.Ordered, hlimit]
    rw [hunreadable, hordered]
    rcases bind_error.mp he with hx | ⟨x, hx, he⟩
    · obtain ⟨hnone, htext⟩ := number_error hx
      simp [place, hnone, htext]
    · have hvalue := number_ok.mp hx
      rcases bind_error.mp he with hy | ⟨y, hy, he⟩
      · obtain ⟨hnone, htext⟩ := number_error hy
        simp [place, hnone, htext]
      · have hbound := number_ok.mp hy
        rcases bind_error.mp he with hcrossed | ⟨crossed, hcrossed, he⟩
        · obtain ⟨rfl, hplace⟩ := crossed_error hcrossed
          have hmissing : ¬ ((place h b.value).isSome ∧ (place h limit).isSome) := by
            rcases hplace with hplace | hplace
            · simp [place, hvalue, hplace]
            · simp [place, hbound, hplace]
          exact ⟨hmissing, by simp [hvalue, hbound]⟩
        · cases crossed <;> cases he

/-- A check of a set succeeds on a value with a hash, and gives no reason exactly if it is there. -/
theorem checkMember_ok {what : String} {allowed : List Value} {value : Value}
    {reasons : List String} (hok : checkMember h what allowed value = .ok reasons) :
    hashable value = true ∧ (reasons = [] ↔ ∃ x ∈ allowed, pyEq h x value = true) := by
  unfold checkMember at hok
  rw [← List.any_eq_true]
  by_cases hhash : hashable value = true
  · rw [if_pos hhash] at hok
    by_cases hany : (allowed.any fun x => pyEq h x value) = true
    · rw [if_pos hany] at hok
      cases hok
      simp [hhash, hany]
    · rw [if_neg hany] at hok
      cases hok
      simp [hhash, hany]
  · rw [if_neg hhash] at hok
    cases hok

theorem checkMember_error {what : String} {allowed : List Value} {value : Value} {e : Raised}
    (he : checkMember h what allowed value = .error e) :
    hashable value = false ∧ e = .TypeError := by
  unfold checkMember at he
  by_cases hhash : hashable value = true
  · rw [if_pos hhash] at he
    split at he <;> cases he
  · rw [if_neg hhash] at he
    cases he
    simpa using hhash

/-- Two sets are checked alike exactly if the value is in both or in none. -/
theorem checkMember_inj {what : String} {vs ws : List Value} {value : Value}
    (hhash : hashable value = true) :
    checkMember h what vs value = checkMember h what ws value ↔
      ((∃ x ∈ vs, pyEq h x value = true) ↔ ∃ x ∈ ws, pyEq h x value = true) := by
  rw [← List.any_eq_true, ← List.any_eq_true, checkMember, checkMember, if_pos hhash, if_pos hhash]
  cases vs.any fun x => pyEq h x value <;> cases ws.any fun x => pyEq h x value <;> simp

/-- A set that is made holds what is named, unless it is of a text. -/
theorem toSet_ok {v : Value} {vs : List Value} (hok : toSet v = .ok vs) :
    (∃ s, v = .str s) ∨ vs = named v := by
  cases v with
  | str s => exact Or.inl ⟨s, rfl⟩
  | list xs =>
    rw [toSet] at hok
    by_cases hall : xs.all hashable = true
    · rw [if_pos hall] at hok
      exact Or.inr (Except.ok.inj hok).symm
    · rw [if_neg hall] at hok
      cases hok
  | dict kvs => exact Or.inr (Except.ok.inj hok).symm
  | _ => cases hok

theorem toSet_error {v : Value} {e : Raised} (he : toSet v = .error e) : e = .TypeError := by
  cases v with
  | list xs =>
    rw [toSet] at he
    by_cases hall : xs.all hashable = true
    · rw [if_pos hall] at he
      cases he
    · rw [if_neg hall] at he
      exact (Except.error.inj he).symm
  | str s => cases he
  | dict kvs => cases he
  | _ => exact (Except.error.inj he).symm

/-- The set of the trends holds what is named. -/
theorem allowedTrends_ok {v : Value} {vs : List Value} (hok : allowedTrends v = .ok vs) :
    vs = named v := by
  cases v with
  | str s => exact (Except.ok.inj hok).symm
  | _ =>
    simp only [allowedTrends] at hok
    rcases toSet_ok hok with ⟨s, hs⟩ | hvs
    · cases hs
    · exact hvs

theorem allowedTrends_error {v : Value} {e : Raised} (he : allowedTrends v = .error e) :
    e = .TypeError := by
  cases v with
  | str s => cases he
  | _ =>
    simp only [allowedTrends] at he
    exact toSet_error he

/-- The trend is looked at exactly if it has a hash and a set is made of the trends. -/
theorem checkTrend_ok {reasons : List String} (hok : checkTrend h criteria d = .ok reasons) :
    ((criteria.get "trend").truthy = true →
      (∃ vs, allowedTrends (criteria.get "trend") = .ok vs) ∧
        hashable (d.indicators.get "trend") = true) ∧
      (reasons = [] ↔ Allows h (criteria.get "trend") (d.indicators.get "trend")) := by
  unfold checkTrend at hok
  by_cases htruthy : (criteria.get "trend").truthy = true
  · rw [if_pos htruthy] at hok
    obtain ⟨vs, hvs, hmember⟩ := bind_ok.mp hok
    obtain ⟨hhash, hreasons⟩ := checkMember_ok hmember
    obtain rfl := allowedTrends_ok hvs
    refine ⟨fun _ => ⟨⟨_, hvs⟩, hhash⟩, hreasons.trans ?_⟩
    rw [Allows, forall_prop_of_true htruthy]
  · rw [if_neg htruthy] at hok
    cases hok
    exact ⟨fun hyes => absurd hyes htruthy, iff_of_true rfl fun hyes => absurd hyes htruthy⟩

theorem checkTrend_error {e : Raised} (he : checkTrend h criteria d = .error e) :
    e = .TypeError ∧ (criteria.get "trend").truthy = true ∧
      ∀ vs, allowedTrends (criteria.get "trend") = .ok vs →
        hashable (d.indicators.get "trend") = false := by
  unfold checkTrend at he
  by_cases htruthy : (criteria.get "trend").truthy = true
  · rw [if_pos htruthy] at he
    rcases bind_error.mp he with hset | ⟨vs, hvs, hmember⟩
    · refine ⟨allowedTrends_error hset, htruthy, fun vs hvs => ?_⟩
      rw [hvs] at hset
      cases hset
    · obtain ⟨hhash, rfl⟩ := checkMember_error hmember
      exact ⟨rfl, htruthy, fun _ _ => hhash⟩
  · rw [if_neg htruthy] at he
    cases he

/-- The signal is always a text or nothing. -/
theorem hashable_signalValue : hashable d.signalValue = true := by
  unfold Data.signalValue
  cases d.signal with
  | none => rfl
  | some s => rfl

theorem pyEq_str {s : String} {v : Value} : pyEq h (.str s) v = true ↔ v = .str s := by
  cases v with
  | str t => simpa [pyEq] using eq_comm
  | _ => simp [pyEq, numberEq, Automation.Conditions.number]

theorem signalValue_eq_str {s : String} : d.signalValue = .str s ↔ d.signal = some s := by
  unfold Data.signalValue
  cases d.signal with
  | none => simp
  | some t => simp

theorem checkSignal_ok {reasons : List String} (hok : checkSignal h criteria d = .ok reasons) :
    (criteria.get "allowed_signals").truthy = true →
      ∃ vs, toSet (criteria.get "allowed_signals") = .ok vs ∧
        (reasons = [] ↔ ∃ x ∈ vs, pyEq h x d.signalValue = true) := by
  intro htruthy
  rw [checkSignal, if_pos htruthy] at hok
  obtain ⟨vs, hvs, hmember⟩ := bind_ok.mp hok
  exact ⟨vs, hvs, (checkMember_ok hmember).2⟩

theorem checkSignal_error {e : Raised} (he : checkSignal h criteria d = .error e) :
    e = .TypeError ∧ (criteria.get "allowed_signals").truthy = true ∧
      ∀ vs, toSet (criteria.get "allowed_signals") ≠ .ok vs := by
  unfold checkSignal at he
  by_cases htruthy : (criteria.get "allowed_signals").truthy = true
  · rw [if_pos htruthy] at he
    rcases bind_error.mp he with hset | ⟨vs, hvs, hmember⟩
    · refine ⟨toSet_error hset, htruthy, fun vs hvs => ?_⟩
      rw [hvs] at hset
      cases hset
    · obtain ⟨hhash, rfl⟩ := checkMember_error hmember
      rw [hashable_signalValue] at hhash
      cases hhash
  · rw [if_neg htruthy] at he
    cases he

/-- The signal is one of the values of the set of a text exactly if it is one of the characters. -/
theorem mem_characters {s : String} :
    (∃ x ∈ s.toList.map fun c => Value.str (String.singleton c), pyEq h x d.signalValue = true) ↔
      ∃ c ∈ s.toList, d.signal = some (String.singleton c) := by
  simp only [List.mem_map, exists_exists_and_eq_and, pyEq_str, signalValue_eq_str]

/-! ## The verdict -/

/-- An object without keys is no exception. -/
theorem evaluate_dict : evaluate h (.dict criteria) d = judge h criteria d := by
  cases criteria with
  | nil => rfl
  | cons kv kvs => rfl

theorem judge_ok {passed : Bool} {reasons : List String} :
    judge h criteria d = .ok (passed, reasons) ↔ ∃ bounded trend signal,
      (bounds d).mapM (checkBound h.toHost criteria) = .ok bounded ∧
      checkTrend h criteria d = .ok trend ∧ checkSignal h criteria d = .ok signal ∧
      reasons = bounded.flatten ++ trend ++ signal ∧ passed = reasons.isEmpty := by
  constructor
  · intro hok
    obtain ⟨bounded, hbounded, hok⟩ := bind_ok.mp hok
    obtain ⟨trend, htrend, hok⟩ := bind_ok.mp hok
    obtain ⟨signal, hsignal, hok⟩ := bind_ok.mp hok
    obtain ⟨rfl, rfl⟩ := Prod.mk.inj (Except.ok.inj hok)
    exact ⟨bounded, trend, signal, hbounded, htrend, hsignal, rfl, rfl⟩
  · rintro ⟨bounded, trend, signal, hbounded, htrend, hsignal, rfl, rfl⟩
    simp only [judge, hbounded, htrend, hsignal]
    rfl

/-- No bound adds a reason exactly if all are kept. -/
theorem bounded_nil {bounded : List (List String)}
    (hok : (bounds d).mapM (checkBound h.toHost criteria) = .ok bounded) :
    (∀ b ∈ bounds d, b.Ordered h.toHost criteria) ∧
      (bounded.flatten = [] ↔ ∀ b ∈ bounds d, b.InOrder h.toHost criteria) := by
  have hall := mapM_ok.mp hok
  clear hok
  generalize bounds d = bs at hall
  induction hall with
  | nil => simp
  | @cons b reasons bs rest hb _ ih =>
    obtain ⟨hordered, hnil⟩ := checkBound_ok hb
    refine ⟨List.forall_mem_cons.mpr ⟨hordered, ih.1⟩, ?_⟩
    rw [List.flatten_cons, List.append_eq_nil_iff, hnil, ih.2, List.forall_mem_cons]

/-- The keys of the bounds are other keys than those of what is named. -/
theorem key_bounds (hb : b ∈ bounds d) : b.key ≠ "trend" ∧ b.key ≠ "allowed_signals" := by
  simp only [bounds, List.mem_cons, List.not_mem_nil, or_false] at hb
  rcases hb with rfl | rfl | rfl | rfl | rfl | rfl | rfl <;> simp

theorem mapM_congr {ε α β : Type} {f g : α → Except ε β} {xs : List α}
    (heq : ∀ x ∈ xs, f x = g x) : xs.mapM f = xs.mapM g := by
  induction xs with
  | nil => rfl
  | cons x xs ih =>
    obtain ⟨hx, hxs⟩ := List.forall_mem_cons.mp heq
    rw [List.mapM_cons, List.mapM_cons, hx, ih hxs]

/-- The bounds do not depend on what is named. -/
theorem bounded_insert {h : Host} {key : String} {v : Value}
    (hkey : ∀ b ∈ bounds d, b.key ≠ key) :
    (bounds d).mapM (checkBound h (criteria.insert key v)) =
      (bounds d).mapM (checkBound h criteria) := by
  apply mapM_congr
  intro b hb
  rw [checkBound, Dict.lookup_insert, if_neg (hkey b hb), checkBound]

theorem get_of_lookup {key : String} {v : Value} (hkey : criteria.lookup key = some v) :
    criteria.get key = v := by
  rw [Dict.get, hkey, Option.getD_some]

/-- A text that is a trend is one trend. -/
theorem single_trend {s : String} (hs : s ≠ "") (hkey : criteria.lookup "trend" = some (.str s)) :
    judge h (criteria.insert "trend" (.list [.str s])) d = judge h criteria d := by
  have htrend : checkTrend h (criteria.insert "trend" (.list [.str s])) d =
      checkTrend h criteria d := by
    have htruthy : (Value.str s).truthy = true := by simpa using hs
    have hlist : (Value.list [.str s]).truthy = true := rfl
    rw [checkTrend, checkTrend, Dict.get_insert, if_pos rfl, get_of_lookup hkey, if_pos htruthy,
      if_pos hlist]
    rfl
  have hsignal : checkSignal h (criteria.insert "trend" (.list [.str s])) d =
      checkSignal h criteria d := by
    have hother : "allowed_signals" ≠ "trend" := by decide
    rw [checkSignal, checkSignal, Dict.get_insert, if_neg hother]
  rw [judge, judge, bounded_insert fun b hb => (key_bounds hb).1, htrend, hsignal]

section Signals

variable {s : String}

/-- The one value that a text is. -/
def oneSignal (criteria : Dict) (s : String) : Dict :=
  criteria.insert "allowed_signals" (.list [.str s])

theorem checkSignal_oneSignal :
    checkSignal h (oneSignal criteria s) d = checkMember h "signal" [.str s] d.signalValue := by
  have hlist : (Value.list [.str s]).truthy = true := rfl
  rw [checkSignal, oneSignal, Dict.get_insert, if_pos rfl, if_pos hlist]
  rfl

theorem checkSignal_text (hs : s ≠ "") (hkey : criteria.lookup "allowed_signals" = some (.str s)) :
    checkSignal h criteria d = checkMember h "signal"
      (s.toList.map fun c => .str (String.singleton c)) d.signalValue := by
  have htruthy : (Value.str s).truthy = true := by simpa using hs
  rw [checkSignal, get_of_lookup hkey, if_pos htruthy]
  rfl

/-- The signal is looked up in a text as in the one value that it is, exactly if the text is the
signal exactly if one of its characters is. -/
theorem checkSignal_single (hs : s ≠ "")
    (hkey : criteria.lookup "allowed_signals" = some (.str s)) :
    checkSignal h (oneSignal criteria s) d = checkSignal h criteria d ↔
      ((∃ c ∈ s.toList, d.signal = some (String.singleton c)) ↔ d.signal = some s) := by
  have hone : (∃ x ∈ [Value.str s], pyEq h x d.signalValue = true) ↔ d.signal = some s := by
    simp only [List.mem_singleton, exists_eq_left, pyEq_str, signalValue_eq_str]
  rw [checkSignal_oneSignal, checkSignal_text hs hkey, checkMember_inj hashable_signalValue, hone,
    mem_characters]
  exact iff_comm

theorem judge_oneSignal : judge h (oneSignal criteria s) d = (do
    let bounded ← (bounds d).mapM (checkBound h.toHost criteria)
    let trend ← checkTrend h criteria d
    let signal ← checkSignal h (oneSignal criteria s) d
    let reasons := bounded.flatten ++ trend ++ signal
    return (reasons.isEmpty, reasons)) := by
  have htrend : checkTrend h (oneSignal criteria s) d = checkTrend h criteria d := by
    have hother : "trend" ≠ "allowed_signals" := by decide
    rw [checkTrend, checkTrend, oneSignal, Dict.get_insert, if_neg hother]
  have hbounds : (bounds d).mapM (checkBound h.toHost (oneSignal criteria s)) =
      (bounds d).mapM (checkBound h.toHost criteria) :=
    bounded_insert fun b hb => (key_bounds hb).2
  rw [judge, hbounds, htrend]

end Signals

/-- The first element without a property is one element. -/
theorem first_unique {α : Type} {P : α → Prop} {before before' after after' : List α} {x x' : α}
    (hsplit : before ++ x :: after = before' ++ x' :: after') (hbefore : ∀ y ∈ before, P y)
    (hbefore' : ∀ y ∈ before', P y) (hx : ¬ P x) (hx' : ¬ P x') : x = x' := by
  induction before generalizing before' with
  | nil =>
    cases before' with
    | nil => exact (List.cons.inj hsplit).1
    | cons y before' =>
      obtain ⟨rfl, _⟩ := List.cons.inj hsplit
      exact absurd (hbefore' x List.mem_cons_self) hx
  | cons y before ih =>
    cases before' with
    | nil =>
      obtain ⟨rfl, _⟩ := List.cons.inj hsplit
      exact absurd (hbefore y List.mem_cons_self) hx'
    | cons y' before' =>
      obtain ⟨_, hrest⟩ := List.cons.inj hsplit
      exact ih hrest (fun z hz => hbefore z (List.mem_cons_of_mem y hz))
        fun z hz => hbefore' z (List.mem_cons_of_mem y' hz)

theorem Bound.Unreadable.not_ordered {h : Host} (hb : b.Unreadable h criteria) :
    ¬ b.Ordered h criteria := by
  obtain ⟨limit, hlimit, hnone⟩ := hb
  intro hordered
  obtain ⟨hvalue, hbound⟩ := hordered limit hlimit
  rcases hnone with hnone | hnone
  · simp [place, hnone] at hvalue
  · simp [place, hnone] at hbound

/-- What is raised is the engine's own error exactly if a bound that is no number is met first. -/
theorem refused_of_error {e : Raised}
    (he : (bounds d).mapM (checkBound h.toHost criteria) = .error e) :
    (¬ ∀ b ∈ bounds d, b.Ordered h.toHost criteria) ∧
      ((∃ text, e = .CriteriaEvaluationError text) ↔ Refused h.toHost criteria d) := by
  obtain ⟨before, b, after, hsplit, hbefore, hb⟩ := mapM_error.mp he
  obtain ⟨hunordered, htext⟩ := checkBound_error hb
  have hordered : ∀ a ∈ before, a.Ordered h.toHost criteria := by
    intro a ha
    obtain ⟨reasons, hreasons⟩ := hbefore a ha
    exact (checkBound_ok hreasons).1
  refine ⟨fun hall => hunordered (hall b (by simp [hsplit])), ?_⟩
  rw [htext]
  constructor
  · intro hunreadable
    exact ⟨before, b, after, hsplit, hordered, hunreadable⟩
  · rintro ⟨before', b', after', hsplit', hordered', hunreadable⟩
    have hsame : b = b' := first_unique (hsplit.symm.trans hsplit') hordered hordered' hunordered
      hunreadable.not_ordered
    rw [hsame]
    exact hunreadable

theorem error_of_refused (hrefused : Refused h.toHost criteria d) :
    ∃ text, (bounds d).mapM (checkBound h.toHost criteria) =
      .error (.CriteriaEvaluationError text) := by
  cases hbounded : (bounds d).mapM (checkBound h.toHost criteria) with
  | error e =>
    obtain ⟨text, rfl⟩ := (refused_of_error hbounded).2.mpr hrefused
    exact ⟨text, rfl⟩
  | ok bounded =>
    obtain ⟨before, b, after, hsplit, _, hunreadable⟩ := hrefused
    exact absurd ((bounded_nil hbounded).1 b (by simp [hsplit])) hunreadable.not_ordered

/-- Where the bounds raise, the engine does, whatever is named. -/
theorem judge_error {e : Raised}
    (he : (bounds d).mapM (checkBound h.toHost criteria) = .error e) :
    judge h criteria d = .error e := by
  rw [judge, he]
  rfl

/-- Where no part raises, there is a verdict. -/
theorem Evaluable.verdict (heval : Evaluable h criteria d) : ∃ bounded trend signal,
    (bounds d).mapM (checkBound h.toHost criteria) = .ok bounded ∧
      checkTrend h criteria d = .ok trend ∧ checkSignal h criteria d = .ok signal := by
  cases hbounded : (bounds d).mapM (checkBound h.toHost criteria) with
  | error e => exact absurd heval.ordered (refused_of_error hbounded).1
  | ok bounded =>
    cases htrend : checkTrend h criteria d with
    | error e =>
      -- a set can be made of the trends, and the trend can be looked for in it
      obtain ⟨_, htruthy, hhash⟩ := checkTrend_error htrend
      obtain ⟨⟨vs, hvs⟩, hyes⟩ := heval.trends htruthy
      rw [hhash vs hvs] at hyes
      cases hyes
    | ok trend =>
      cases hsignal : checkSignal h criteria d with
      | error e =>
        obtain ⟨_, htruthy, hset⟩ := checkSignal_error hsignal
        obtain ⟨vs, hvs⟩ := heval.signals htruthy
        exact absurd hvs (hset vs)
      | ok signal => exact ⟨bounded, trend, signal, rfl, rfl, rfl⟩

/-- Where a text is one of its characters exactly if it is the signal, the signal is looked for
among what is named. -/
theorem signal_nil {reasons : List String} (hok : checkSignal h criteria d = .ok reasons)
    (hcharacter : ∀ s, s ≠ "" → criteria.lookup "allowed_signals" = some (.str s) →
      ((∃ c ∈ s.toList, d.signal = some (String.singleton c)) ↔ d.signal = some s)) :
    reasons = [] ↔ Allows h (criteria.get "allowed_signals") d.signalValue := by
  by_cases htruthy : (criteria.get "allowed_signals").truthy = true
  · obtain ⟨vs, hvs, hnil⟩ := checkSignal_ok hok htruthy
    rw [hnil, Allows, forall_prop_of_true htruthy]
    rcases toSet_ok hvs with ⟨s, hs⟩ | rfl
    · rw [hs] at hvs htruthy ⊢
      have hlookup : criteria.lookup "allowed_signals" = some (.str s) := by
        rw [Dict.get] at hs
        cases hfound : criteria.lookup "allowed_signals" with
        | none => simp [hfound] at hs
        | some v => rw [← hs, hfound, Option.getD_some]
      obtain rfl := Except.ok.inj hvs
      rw [mem_characters, hcharacter s (by simpa using htruthy) hlookup]
      simp [named, pyEq_str, signalValue_eq_str]
    · rfl
  · rw [checkSignal, if_neg htruthy] at hok
    cases hok
    exact iff_of_true rfl fun hyes => absurd hyes htruthy

/-- The criteria are met in the order of decimals exactly if there is no reason. -/
theorem meets_iff {bounded : List (List String)} {trend signal : List String}
    (hbounded : (bounds d).mapM (checkBound h.toHost criteria) = .ok bounded)
    (htrend : checkTrend h criteria d = .ok trend) (hsignal : checkSignal h criteria d = .ok signal)
    (hcharacter : ∀ s, s ≠ "" → criteria.lookup "allowed_signals" = some (.str s) →
      ((∃ c ∈ s.toList, d.signal = some (String.singleton c)) ↔ d.signal = some s)) :
    bounded.flatten ++ trend ++ signal = [] ↔ Meets h criteria d := by
  rw [List.append_eq_nil_iff, List.append_eq_nil_iff, (bounded_nil hbounded).2,
    (checkTrend_ok htrend).2, signal_nil hsignal hcharacter]
  constructor
  · rintro ⟨⟨hbounds, htrends⟩, hsignals⟩
    exact ⟨hbounds, htrends, hsignals⟩
  · rintro ⟨hbounds, htrends, hsignals⟩
    exact ⟨⟨hbounds, htrends⟩, hsignals⟩

/-- An evaluation that raises its own error at a bound is sound. -/
theorem sound_of_refused (hrefused : Refused h.toHost criteria d) : Sound h criteria d := by
  obtain ⟨text, htext⟩ := error_of_refused hrefused
  have hjudge := judge_error htext
  refine ⟨?_, ?_, ?_⟩
  · intro e he
    rw [evaluate_dict, hjudge] at he
    exact ⟨text, (Except.error.inj he).symm⟩
  · intro reasons hok
    rw [evaluate_dict, hjudge] at hok
    cases hok
  · intro key hkey s _ _
    -- what is named has no part in what a bound raises
    have hother : ∀ b ∈ bounds d, b.key ≠ key := by
      intro b hb
      rcases List.mem_pair.mp hkey with rfl | rfl
      · exact (key_bounds hb).1
      · exact (key_bounds hb).2
    have hinsert := judge_error ((bounded_insert (v := .list [.str s]) hother).trans htext)
    rw [evaluate_dict, evaluate_dict, hjudge, hinsert]

/-- An evaluation in which no part raises is sound. -/
theorem Evaluable.sound (heval : Evaluable h criteria d) : Sound h criteria d := by
  obtain ⟨bounded, trend, signal, hbounded, htrend, hsignal⟩ := heval.verdict
  have hjudge := judge_ok.mpr ⟨bounded, trend, signal, hbounded, htrend, hsignal, rfl, rfl⟩
  refine ⟨?_, ?_, ?_⟩
  · intro e he
    rw [evaluate_dict, hjudge] at he
    cases he
  · intro reasons hok
    rw [evaluate_dict, hjudge] at hok
    have hempty : (bounded.flatten ++ trend ++ signal).isEmpty = true :=
      congrArg Prod.fst (Except.ok.inj hok)
    have hmeets := (meets_iff hbounded htrend hsignal heval.character).mp
      (List.isEmpty_iff.mp hempty)
    exact ⟨hmeets, heval.finite hmeets⟩
  · intro key hkey s hs hlookup
    rw [evaluate_dict, evaluate_dict]
    rcases List.mem_pair.mp hkey with rfl | rfl
    · exact single_trend hs hlookup
    · have hsame := (checkSignal_single (h := h) hs hlookup).mpr (heval.character s hs hlookup)
      exact judge_oneSignal.trans (by rw [hsame, judge])

/-- What an evaluation that is sound and gives a verdict has been given. -/
theorem Sound.evaluable (hsound : Sound h criteria d) {bounded : List (List String)}
    {trend signal : List String}
    (hbounded : (bounds d).mapM (checkBound h.toHost criteria) = .ok bounded)
    (htrend : checkTrend h criteria d = .ok trend)
    (hsignal : checkSignal h criteria d = .ok signal) : Evaluable h criteria d := by
  have hjudge := judge_ok.mpr ⟨bounded, trend, signal, hbounded, htrend, hsignal, rfl, rfl⟩
  have hcharacter : ∀ s, s ≠ "" → criteria.lookup "allowed_signals" = some (.str s) →
      ((∃ c ∈ s.toList, d.signal = some (String.singleton c)) ↔ d.signal = some s) := by
    intro s hs hlookup
    have hsame := hsound.single "allowed_signals" (by simp) s hs hlookup
    rw [evaluate_dict, evaluate_dict, hjudge] at hsame
    obtain ⟨bounded', trend', signal', hbounded', htrend', hsignal', hreasons, _⟩ :=
      judge_ok.mp hsame
    -- only the reason against the signal can differ
    have hboundeds : bounded' = bounded := by
      rw [bounded_insert fun b hb => (key_bounds hb).2, hbounded] at hbounded'
      exact (Except.ok.inj hbounded').symm
    have htrends : trend' = trend := by
      have hother : "trend" ≠ "allowed_signals" := by decide
      rw [checkTrend, Dict.get_insert, if_neg hother, ← checkTrend, htrend] at htrend'
      exact (Except.ok.inj htrend').symm
    have hsignals : signal = signal' := by
      rw [hboundeds, htrends] at hreasons
      exact List.append_cancel_left hreasons
    apply (checkSignal_single hs hlookup).mp
    rw [oneSignal, hsignal', hsignal, hsignals]
  refine ⟨(bounded_nil hbounded).1, (checkTrend_ok htrend).1, ?_, hcharacter, ?_⟩
  · intro htruthy
    obtain ⟨vs, hvs, _⟩ := checkSignal_ok hsignal htruthy
    exact ⟨vs, hvs⟩
  · intro hmeets
    have hnil := (meets_iff hbounded htrend hsignal hcharacter).mpr hmeets
    rw [hnil] at hjudge
    exact (hsound.passes [] (evaluate_dict.trans hjudge)).2

/-- The engine raises nothing but its own error, passes only criteria that are met by finite data,
and takes a text for one value, exactly if a bound that is no number is met before any NaN, or
nothing that is compared is a NaN, sets can be made of what is named, a text is the signal exactly
if one of its characters is, and what meets the criteria is finite. -/
theorem evaluates_safely_iff (h : FloatHost) (criteria : Dict) (d : Data) :
    Sound h criteria d ↔ Refused h.toHost criteria d ∨ Evaluable h criteria d := by
  constructor
  · intro hsound
    cases hbounded : (bounds d).mapM (checkBound h.toHost criteria) with
    | error e =>
      have hraised := hsound.raises e (evaluate_dict.trans (judge_error hbounded))
      exact Or.inl ((refused_of_error hbounded).2.mp hraised)
    | ok bounded =>
      right
      cases htrend : checkTrend h criteria d with
      | error e =>
        have hjudge : judge h criteria d = .error e := by
          simp only [judge, hbounded, htrend]
          rfl
        obtain ⟨text, htext⟩ := hsound.raises e (evaluate_dict.trans hjudge)
        rw [(checkTrend_error htrend).1] at htext
        cases htext
      | ok trend =>
        cases hsignal : checkSignal h criteria d with
        | error e =>
          have hjudge : judge h criteria d = .error e := by
            simp only [judge, hbounded, htrend, hsignal]
            rfl
          obtain ⟨text, htext⟩ := hsound.raises e (evaluate_dict.trans hjudge)
          rw [(checkSignal_error hsignal).1] at htext
          cases htext
        | ok signal => exact hsound.evaluable hbounded htrend hsignal
  · rintro (hrefused | heval)
    · exact sound_of_refused hrefused
    · exact heval.sound

/-! ## A text for the signals -/

/-- A market in which nothing is known, and a signal. -/
def onlySignal (s : String) : Data := ⟨none, none, some s, .int 80⟩

/-- The only signal that is allowed is refused: the engine looks for it among the characters. -/
theorem one_signal : ¬ ∀ h criteria d, Sound h criteria d := by
  intro hall
  have hsingle := (hall FloatHost.digits [("allowed_signals", .str "BUY")] (onlySignal "BUY")).single
    "allowed_signals" (by simp) "BUY" (by decide) rfl
  have hone : evaluate FloatHost.digits
      (.dict (Dict.insert [("allowed_signals", .str "BUY")] "allowed_signals" (.list [.str "BUY"])))
      (onlySignal "BUY") = .ok (true, []) := by decide
  have htext : evaluate FloatHost.digits (.dict [("allowed_signals", .str "BUY")])
      (onlySignal "BUY") ≠ .ok (true, []) := by decide
  exact htext (hsingle.symm.trans hone)

end AlgoBot.Strategies.Criteria
