import AlgoBot.Core.DecimalOrder
import AlgoBot.Python.Value

/-!
# Position sizes

`PositionSizingService` computes a stake in one of seven ways, in decimals of the
default context, and caps it by what is left of the loss and of the exposure. An
argument that is false, a zero as well as a missing one, has its default taken.

* `calculate_mono`: the stake is monotone in the risk and the win rate that are used.
* `sized_iff`: the laws of the sizes hold of two risks and two win rates exactly if no
  win rate is a false zero, and the smaller risk is none where the default is larger
  than the other risk.
* `zero_risk_larger`: no risk gets a larger stake than a risk of 1%.
-/

namespace AlgoBot.Risk.Sizing

open AlgoBot.Core AlgoBot.Python

/-! ## Arguments -/

/-- An argument: nothing, a number, or a text. -/
inductive Arg where
  | none
  | int (n : ℤ)
  | float (repr : String)
  | str (s : String)
  | decimal (x : Dec)

def Arg.truthy : Arg → Bool
  | .none => false
  | .int n => n != 0
  | .float r => r != "0.0" && r != "-0.0"
  | .str s => s != ""
  | .decimal (.finite _ coeff _) => coeff != 0
  | .decimal _ => true

/-- `a or b`. -/
def Arg.or (a b : Arg) : Arg := if a.truthy then a else b

section Service

variable (h : Host)

/-- `Decimal(s)`. -/
def readText (s : String) : Except Dec.DivSignal Dec :=
  match decimalOfText h s with
  | some x => .ok x
  | none => .error (.signal .invalidOperation)

/-- `Decimal(str(a))`. -/
def Arg.read : Arg → Except Dec.DivSignal Dec
  | .none => readText h "None"
  | .int n => readText h (toString n)
  | .float r => readText h r
  | .str s => readText h s
  | .decimal x => .ok x

def lift {α : Type} (x : Except Dec.Signal α) : Except Dec.DivSignal α := x.mapError .signal

/-! ## The sizes -/

inductive Method where
  | fixed_stake
  | fixed_fractional
  | kelly
  | atr_based
  | volatility_adjusted
  | dynamic
  /-- any other text -/
  | percentage_risk
deriving DecidableEq

/-- The arguments of `calculate`, without the risk and the win rate. -/
structure Inputs where
  balance : Arg
  stop_loss_distance : Arg
  method : Method
  fixed_stake : Arg
  reward_risk : Arg
  atr : Arg
  volatility : Arg

def zero : Dec := .finite false 0 0

def one : Dec := .finite false 1 0

/-- `Decimal("0.00000001")`. -/
def smallest : Dec := .finite false 1 (-8)

/-- `Decimal("0.25")`. -/
def quarter : Dec := .finite false 25 (-2)

/-- The Kelly stake for a win rate `p` and a ratio `b`. -/
def kellyStake (balance p b : Dec) : Except Dec.DivSignal Dec := do
  let won ← lift (p.mul b)
  let lost ← lift (one.sub p)
  let edge ← lift (won.sub lost)
  let f ← edge.div b
  let f ← lift (f.minOf quarter)
  let f ← lift (zero.maxOf f)
  lift (balance.mul f)

/-- The branch `kelly`. -/
def kelly (balance : Dec) (win_rate reward_risk : Arg) : Except Dec.DivSignal Dec := do
  let p ← (win_rate.or (.str "0.5")).read h
  let b ← (reward_risk.or (.str "1")).read h
  kellyStake balance p b

/-- The branches of `calculate`. -/
def byMethod (i : Inputs) (balance risk : Dec) (win_rate : Arg) : Except Dec.DivSignal Dec := do
  match i.method with
  | .fixed_stake =>
    let fixed ← (i.fixed_stake.or (.int 0)).read h
    lift (zero.maxOf fixed)
  | .fixed_fractional => lift (balance.mul risk)
  | .kelly => kelly h balance win_rate i.reward_risk
  | .atr_based =>
    let distance ← ((i.atr.or i.stop_loss_distance).or (.int 1)).read h
    let amount ← lift (balance.mul risk)
    let distance ← lift (distance.maxOf smallest)
    amount.div distance
  | .volatility_adjusted =>
    let vol ← (i.volatility.or (.str "1")).read h
    let vol ← lift (vol.maxOf smallest)
    let amount ← lift (balance.mul risk)
    amount.div vol
  | .dynamic =>
    let scaled ← lift (risk.mul (.finite false 125 (-2)))
    let capped ← lift (scaled.minOf (.finite false 5 (-2)))
    lift (balance.mul capped)
  | .percentage_risk =>
    let amount ← lift (balance.mul risk)
    let distance ← (i.stop_loss_distance.or (.int 1)).read h
    let distance ← lift (distance.maxOf smallest)
    amount.div distance

/-- `calculate`. -/
def calculate (i : Inputs) (risk_per_trade win_rate : Arg) : Except Dec.DivSignal Dec := do
  let balance ← (i.balance.or (.int 0)).read h
  let risk ← (risk_per_trade.or (.str "0.02")).read h
  byMethod h i balance risk win_rate

/-- What is left of a limit; none where there is no limit. -/
def remaining (limit current : Arg) : Except Dec.DivSignal (Option Dec) :=
  match limit with
  | .none | .str "" => .ok none
  | limit => do
    let limit ← limit.read h
    let current ← (current.or (.int 0)).read h
    let left ← lift (limit.sub current)
    let left ← lift (zero.maxOf left)
    return some left

/-- The limits of `calculate_stake`. -/
structure Limits where
  max_daily_loss : Arg
  current_daily_loss : Arg
  max_exposure : Arg
  current_exposure : Arg

/-- `calculate_stake`. -/
def calculateStake (i : Inputs) (l : Limits) (risk_percent win_rate : Arg) :
    Except Dec.DivSignal Dec := do
  let stake ← calculate h i risk_percent win_rate
  let loss ← remaining h l.max_daily_loss l.current_daily_loss
  let exposure ← remaining h l.max_exposure l.current_exposure
  let least ← lift ((loss.toList ++ exposure.toList).foldlM Dec.minOf stake)
  lift (zero.maxOf least)

/-! ## The laws -/

/-- The argument reads as a number. -/
def Arg.Is (a : Arg) (q : ℚ) : Prop := ∃ x, a.read h = .ok x ∧ x.toRat = some q

/-- The balance is not negative, and the ratio is positive. -/
structure Accepted (i : Inputs) : Prop where
  balance : ∃ q, (i.balance.or (.int 0)).Is h q ∧ 0 ≤ q
  reward_risk : ∃ q, (i.reward_risk.or (.str "1")).Is h q ∧ 0 < q

/-- A fraction from 0 to 1. -/
def Arg.Fraction (a : Arg) : Prop := ∃ q, a.Is h q ∧ 0 ≤ q ∧ q ≤ 1

/-- The laws of the sizes, for a risk and a larger one, and a win rate and a larger one. -/
structure Lawful (risk₁ risk₂ win₁ win₂ : Arg) : Prop where
  risk_monotone : ∀ i win s₁ s₂, Accepted h i → win.Fraction h →
    calculate h i risk₁ win = .ok s₁ → calculate h i risk₂ win = .ok s₂ → s₁.AtMost s₂
  win_monotone : ∀ i risk s₁ s₂, Accepted h i → risk.Fraction h →
    calculate h i risk win₁ = .ok s₁ → calculate h i risk win₂ = .ok s₂ → s₁.AtMost s₂
  /-- The Kelly stake is within a quarter of the balance, as decimals multiply. -/
  kelly_within : ∀ i, Accepted h i → i.method = .kelly → ∀ risk ∈ [risk₁, risk₂],
    ∀ win ∈ [win₁, win₂], ∀ s B, (i.balance.or (.int 0)).Is h B →
      calculate h i risk win = .ok s →
      ∃ q, s.toRat = some q ∧ 0 ≤ q ∧ q ≤ Dec.rounded (B * (1 / 4))
  kelly_zero : ∀ i, Accepted h i → i.method = .kelly → ∀ risk ∈ [risk₁, risk₂],
    ∀ win ∈ [win₁, win₂], win.Is h 0 → ∀ s, calculate h i risk win = .ok s → s.toRat = some 0
  divides : ∀ i, Accepted h i → ∀ risk ∈ [risk₁, risk₂], ∀ win ∈ [win₁, win₂],
    calculate h i risk win ≠ .error .divisionByZero
  capped : ∀ i l, Accepted h i → ∀ risk ∈ [risk₁, risk₂], ∀ win ∈ [win₁, win₂], ∀ s,
    calculateStake h i l risk win = .ok s → ∀ left,
      remaining h l.max_daily_loss l.current_daily_loss = .ok (some left) ∨
        remaining h l.max_exposure l.current_exposure = .ok (some left) → s.AtMost left

end Service

section Laws

variable {h : Host}

theorem lift_ok {α : Type} {x : Except Dec.Signal α} {a : α} : lift x = .ok a ↔ x = .ok a :=
  mapError_ok

theorem lift_ne_divisionByZero {α : Type} {x : Except Dec.Signal α} :
    lift x ≠ .error .divisionByZero := by
  cases x <;> simp [lift, Except.mapError]

/-! ## Texts -/

/-- Hosts read ASCII texts alike. -/
theorem decimalOfText_ascii (h : Host) {s : String}
    (hs : (s.toList.all fun c => decide (c.val < 128)) = true) :
    decimalOfText h s = decimalOfText .ascii s := by
  have hchars : ∀ c ∈ (stripChars s.toList).filter (· ≠ '_'), h.digit? c = Host.ascii.digit? c := by
    intro c hc
    have hmem : c ∈ s.toList := by
      have hstripped := List.mem_of_mem_filter hc
      exact (List.dropWhile_suffix _).subset (List.mem_reverse.mp
        ((List.dropWhile_suffix _).subset (List.mem_reverse.mp hstripped)))
    have hlt : c.val < 128 := of_decide_eq_true (List.all_eq_true.mp hs c hmem)
    rw [h.digit_ascii c hlt, Host.ascii.digit_ascii c hlt]
  unfold decimalOfText
  refine congrArg Dec.ofChars (List.map_congr_left ?_)
  intro c hc
  rw [hchars c hc]

theorem readText_of_ascii {s : String} {x : Dec}
    (hs : (s.toList.all fun c => decide (c.val < 128)) = true)
    (hx : decimalOfText .ascii s = some x) : readText h s = .ok x := by
  rw [readText, decimalOfText_ascii h hs, hx]

/-- A text that is no number for one host is none for another. -/
theorem readText_none {s : String} (hs : (s.toList.all fun c => decide (c.val < 128)) = true)
    (hx : decimalOfText .ascii s = none) (x : Dec) : readText h s ≠ .ok x := by
  rw [readText, decimalOfText_ascii h hs, hx]
  simp

theorem default_risk : (Arg.str "0.02").read h = .ok (.finite false 2 (-2)) :=
  readText_of_ascii (by decide +kernel) (by decide +kernel)

theorem default_win : (Arg.str "0.5").read h = .ok (.finite false 5 (-1)) :=
  readText_of_ascii (by decide +kernel) (by decide +kernel)

/-- A false argument that is a number is zero. -/
theorem eq_zero_of_false {a : Arg} {q : ℚ} (ha : a.truthy = false) (hq : a.Is h q) : q = 0 := by
  obtain ⟨x, hx, hvalue⟩ := hq
  have hzero : ∀ {s : String} {n : Bool} {e : ℤ}, Arg.read h a = readText h s →
      (s.toList.all fun c => decide (c.val < 128)) = true →
        decimalOfText .ascii s = some (.finite n 0 e) → q = 0 := by
    intro s n e hread hascii hnumber
    rw [hread, readText_of_ascii hascii hnumber] at hx
    cases hx
    simpa [Dec.toRat] using hvalue.symm
  cases a with
  | none => exact absurd hx (readText_none (by decide +kernel) (by decide +kernel) x)
  | int n =>
    obtain rfl : n = 0 := by simpa [Arg.truthy] using ha
    exact hzero (s := "0") (n := false) (e := 0) rfl (by decide +kernel) (by decide +kernel)
  | float r =>
    have hr : r = "0.0" ∨ r = "-0.0" := by
      by_contra hne
      simp only [not_or] at hne
      simp [Arg.truthy, hne] at ha
    rcases hr with rfl | rfl
    · exact hzero (s := "0.0") (n := false) (e := -1) rfl (by decide +kernel) (by decide +kernel)
    · exact hzero (s := "-0.0") (n := true) (e := -1) rfl (by decide +kernel) (by decide +kernel)
  | str s =>
    obtain rfl : s = "" := by simpa [Arg.truthy] using ha
    exact absurd hx (readText_none (h := h) (s := "") (by decide +kernel) (by decide +kernel) x)
  | decimal y =>
    cases hx
    cases x with
    | finite n c e =>
      obtain rfl : c = 0 := by simpa [Arg.truthy] using ha
      simpa [Dec.toRat] using hvalue.symm
    | _ => cases ha

/-! ## Monotony -/

theorem smallest_pos {distance floor : Dec} (hfloor : distance.maxOf smallest = .ok floor) :
    ∃ e, floor.ext = some e ∧ ((0 : ℚ) : WithTop ℚ) < e := by
  obtain ⟨p, q, _, hq, hmax⟩ := Dec.ext_maxOf hfloor
  have hsmallest : smallest.toRat = some (1 / 10 ^ 8) := by
    simp only [smallest, Dec.toRat]
    norm_num
  obtain rfl := Option.some.inj (hq.symm.trans (Dec.ext_of_toRat hsmallest))
  refine ⟨_, hmax, lt_of_lt_of_le ?_ (le_max_right _ _)⟩
  exact WithBot.coe_lt_coe.mpr (WithTop.coe_lt_coe.mpr (by norm_num))

variable {b x₁ x₂ s₁ s₂ : Dec} {B r₁ r₂ p₁ p₂ : ℚ}

/-- An amount at risk over a distance. -/
theorem over_mono (hb : b.toRat = some B) (hB : 0 ≤ B) (h₁ : x₁.toRat = some r₁)
    (h₂ : x₂.toRat = some r₂) (hle : r₁ ≤ r₂) {amount₁ amount₂ distance floor : Dec}
    (hfloor : distance.maxOf smallest = .ok floor) (ha₁ : b.mul x₁ = .ok amount₁)
    (ha₂ : b.mul x₂ = .ok amount₂) (hs₁ : amount₁.div floor = .ok s₁)
    (hs₂ : amount₂.div floor = .ok s₂) : s₁.AtMost s₂ := by
  obtain ⟨e, he, hpos⟩ := smallest_pos hfloor
  exact Dec.div_mono (Dec.mul_value hb h₁ ha₁) (Dec.mul_value hb h₂ ha₂)
    (Dec.rounded_mono (mul_le_mul_of_nonneg_left hle hB)) he hpos hs₁ hs₂

/-- The fraction of `kelly`. -/
def kellyFraction (p b : ℚ) : ℚ :=
  max 0 (min (Dec.rounded (Dec.rounded (Dec.rounded (p * b) - Dec.rounded (1 - p)) / b)) (1 / 4))

theorem kellyFraction_mono {p p' b : ℚ} (hb : 0 < b) (hle : p ≤ p') :
    kellyFraction p b ≤ kellyFraction p' b := by
  have hwon : Dec.rounded (p * b) ≤ Dec.rounded (p' * b) :=
    Dec.rounded_mono (mul_le_mul_of_nonneg_right hle hb.le)
  have hlost : Dec.rounded (1 - p') ≤ Dec.rounded (1 - p) := Dec.rounded_mono (by linarith)
  have hedge : Dec.rounded (Dec.rounded (p * b) - Dec.rounded (1 - p)) ≤
      Dec.rounded (Dec.rounded (p' * b) - Dec.rounded (1 - p')) :=
    Dec.rounded_mono (by linarith)
  have hdivided := Dec.rounded_mono (div_le_div_of_nonneg_right hedge hb.le)
  exact max_le_max le_rfl (min_le_min hdivided le_rfl)

theorem one_value : one.toRat = some 1 := by simp [one, Dec.toRat]

theorem zero_value : zero.toRat = some 0 := by simp [zero, Dec.toRat]

theorem quarter_value : quarter.toRat = some (1 / 4) := by
  simp only [quarter, Dec.toRat]
  norm_num

theorem kelly_value {win reward : Arg} {s : Dec} {P β : ℚ} (hb : b.toRat = some B)
    (hwin : (win.or (.str "0.5")).Is h P) (hreward : (reward.or (.str "1")).Is h β)
    (hs : kelly h b win reward = .ok s) : s.toRat = some (Dec.rounded (B * kellyFraction P β)) := by
  obtain ⟨p, hp, hP⟩ := hwin
  obtain ⟨d, hd, hβ⟩ := hreward
  unfold kelly at hs
  rcases bind_ok.mp hs with ⟨_, hp', hs⟩
  obtain rfl := Except.ok.inj (hp.symm.trans hp')
  rcases bind_ok.mp hs with ⟨_, hd', hs⟩
  obtain rfl := Except.ok.inj (hd.symm.trans hd')
  rcases bind_ok.mp hs with ⟨won, hwon, hs⟩
  rcases bind_ok.mp hs with ⟨lost, hlost, hs⟩
  rcases bind_ok.mp hs with ⟨edge, hedge, hs⟩
  rcases bind_ok.mp hs with ⟨f, hf, hs⟩
  rcases bind_ok.mp hs with ⟨least, hleast, hs⟩
  rcases bind_ok.mp hs with ⟨fraction, hfraction, hs⟩
  have hwon' := Dec.mul_value hP hβ (lift_ok.mp hwon)
  have hlost' := Dec.sub_value one_value hP (lift_ok.mp hlost)
  have hedge' := Dec.sub_value hwon' hlost' (lift_ok.mp hedge)
  have hf' := Dec.div_value hedge' hβ hf
  have hleast' := Dec.minOf_value hf' quarter_value (lift_ok.mp hleast)
  have hfraction' := Dec.maxOf_value zero_value hleast' (lift_ok.mp hfraction)
  exact Dec.mul_value hb hfraction' (lift_ok.mp hs)

/-- Whatever the method, a stake is monotone in the risk and the win rate that are used. -/
theorem byMethod_mono {i : Inputs} {win₁ win₂ : Arg} (hb : b.toRat = some B) (hB : 0 ≤ B)
    (hreward : ∃ q, (i.reward_risk.or (.str "1")).Is h q ∧ 0 < q) (hx₁ : x₁.toRat = some r₁)
    (hx₂ : x₂.toRat = some r₂) (hle : r₁ ≤ r₂) (hp₁ : (win₁.or (.str "0.5")).Is h p₁)
    (hp₂ : (win₂.or (.str "0.5")).Is h p₂) (hple : p₁ ≤ p₂)
    (hs₁ : byMethod h i b x₁ win₁ = .ok s₁) (hs₂ : byMethod h i b x₂ win₂ = .ok s₂) :
    s₁.AtMost s₂ := by
  unfold byMethod at hs₁ hs₂
  cases hmethod : i.method with
  | fixed_stake =>
    rw [hmethod] at hs₁ hs₂
    obtain rfl := Except.ok.inj (hs₁.symm.trans hs₂)
    rcases bind_ok.mp hs₁ with ⟨fixed, _, hmax⟩
    obtain ⟨p, q, _, _, hext⟩ := Dec.ext_maxOf (lift_ok.mp hmax)
    exact Dec.atMost_iff.mpr ⟨_, _, hext, hext, le_rfl⟩
  | fixed_fractional =>
    rw [hmethod] at hs₁ hs₂
    exact Dec.mul_mono hx₁ hx₂ hle hb hB (lift_ok.mp hs₁) (lift_ok.mp hs₂)
  | kelly =>
    rw [hmethod] at hs₁ hs₂
    obtain ⟨β, hβ, hpos⟩ := hreward
    rw [Dec.atMost_of_toRat (kelly_value hb hp₁ hβ hs₁) (kelly_value hb hp₂ hβ hs₂)]
    exact Dec.rounded_mono (mul_le_mul_of_nonneg_left (kellyFraction_mono hpos hple) hB)
  | atr_based =>
    rw [hmethod] at hs₁ hs₂
    rcases bind_ok.mp hs₁ with ⟨distance, hd, hs₁⟩
    rcases bind_ok.mp hs₁ with ⟨amount₁, ha₁, hs₁⟩
    rcases bind_ok.mp hs₁ with ⟨floor, hfloor, hs₁⟩
    rcases bind_ok.mp hs₂ with ⟨distance', hd', hs₂⟩
    rcases bind_ok.mp hs₂ with ⟨amount₂, ha₂, hs₂⟩
    rcases bind_ok.mp hs₂ with ⟨floor', hfloor', hs₂⟩
    obtain rfl := Except.ok.inj (hd.symm.trans hd')
    obtain rfl := Except.ok.inj (hfloor.symm.trans hfloor')
    exact over_mono hb hB hx₁ hx₂ hle (lift_ok.mp hfloor) (lift_ok.mp ha₁) (lift_ok.mp ha₂) hs₁ hs₂
  | volatility_adjusted =>
    rw [hmethod] at hs₁ hs₂
    rcases bind_ok.mp hs₁ with ⟨vol, hv, hs₁⟩
    rcases bind_ok.mp hs₁ with ⟨floor, hfloor, hs₁⟩
    rcases bind_ok.mp hs₁ with ⟨amount₁, ha₁, hs₁⟩
    rcases bind_ok.mp hs₂ with ⟨vol', hv', hs₂⟩
    rcases bind_ok.mp hs₂ with ⟨floor', hfloor', hs₂⟩
    rcases bind_ok.mp hs₂ with ⟨amount₂, ha₂, hs₂⟩
    obtain rfl := Except.ok.inj (hv.symm.trans hv')
    obtain rfl := Except.ok.inj (hfloor.symm.trans hfloor')
    exact over_mono hb hB hx₁ hx₂ hle (lift_ok.mp hfloor) (lift_ok.mp ha₁) (lift_ok.mp ha₂) hs₁ hs₂
  | dynamic =>
    rw [hmethod] at hs₁ hs₂
    rcases bind_ok.mp hs₁ with ⟨scaled₁, hscaled₁, hs₁⟩
    rcases bind_ok.mp hs₁ with ⟨capped₁, hcapped₁, hs₁⟩
    rcases bind_ok.mp hs₂ with ⟨scaled₂, hscaled₂, hs₂⟩
    rcases bind_ok.mp hs₂ with ⟨capped₂, hcapped₂, hs₂⟩
    have hfactor : (Dec.finite false 125 (-2)).toRat = some (5 / 4) := by
      simp only [Dec.toRat]
      norm_num
    have hcap : (Dec.finite false 5 (-2)).toRat = some (1 / 20) := by
      simp only [Dec.toRat]
      norm_num
    have hvalue₁ := Dec.minOf_value (Dec.mul_value hx₁ hfactor (lift_ok.mp hscaled₁)) hcap
      (lift_ok.mp hcapped₁)
    have hvalue₂ := Dec.minOf_value (Dec.mul_value hx₂ hfactor (lift_ok.mp hscaled₂)) hcap
      (lift_ok.mp hcapped₂)
    refine Dec.mul_mono hvalue₁ hvalue₂ ?_ hb hB (lift_ok.mp hs₁) (lift_ok.mp hs₂)
    exact min_le_min (Dec.rounded_mono (by linarith)) le_rfl
  | percentage_risk =>
    rw [hmethod] at hs₁ hs₂
    rcases bind_ok.mp hs₁ with ⟨amount₁, ha₁, hs₁⟩
    rcases bind_ok.mp hs₁ with ⟨distance, hd, hs₁⟩
    rcases bind_ok.mp hs₁ with ⟨floor, hfloor, hs₁⟩
    rcases bind_ok.mp hs₂ with ⟨amount₂, ha₂, hs₂⟩
    rcases bind_ok.mp hs₂ with ⟨distance', hd', hs₂⟩
    rcases bind_ok.mp hs₂ with ⟨floor', hfloor', hs₂⟩
    obtain rfl := Except.ok.inj (hd.symm.trans hd')
    obtain rfl := Except.ok.inj (hfloor.symm.trans hfloor')
    exact over_mono hb hB hx₁ hx₂ hle (lift_ok.mp hfloor) (lift_ok.mp ha₁) (lift_ok.mp ha₂) hs₁ hs₂

/-- The stakes for a risk and a win rate are those of the numbers that are used. -/
theorem calculate_mono {i : Inputs} (hi : Accepted h i) {risk₁ risk₂ win₁ win₂ : Arg}
    (hr₁ : (risk₁.or (.str "0.02")).Is h r₁) (hr₂ : (risk₂.or (.str "0.02")).Is h r₂)
    (hle : r₁ ≤ r₂) (hp₁ : (win₁.or (.str "0.5")).Is h p₁) (hp₂ : (win₂.or (.str "0.5")).Is h p₂)
    (hple : p₁ ≤ p₂) (hs₁ : calculate h i risk₁ win₁ = .ok s₁)
    (hs₂ : calculate h i risk₂ win₂ = .ok s₂) : s₁.AtMost s₂ := by
  obtain ⟨B, ⟨b, hb, hvalue⟩, hB⟩ := hi.balance
  obtain ⟨x₁, hx₁, hv₁⟩ := hr₁
  obtain ⟨x₂, hx₂, hv₂⟩ := hr₂
  rcases bind_ok.mp hs₁ with ⟨_, hb₁, hs₁⟩
  rcases bind_ok.mp hs₁ with ⟨_, hx₁', hs₁⟩
  rcases bind_ok.mp hs₂ with ⟨_, hb₂, hs₂⟩
  rcases bind_ok.mp hs₂ with ⟨_, hx₂', hs₂⟩
  obtain rfl := Except.ok.inj (hb.symm.trans hb₁)
  obtain rfl := Except.ok.inj (hb.symm.trans hb₂)
  obtain rfl := Except.ok.inj (hx₁.symm.trans hx₁')
  obtain rfl := Except.ok.inj (hx₂.symm.trans hx₂')
  exact byMethod_mono hvalue hB hi.reward_risk hv₁ hv₂ hle hp₁ hp₂ hple hs₁ hs₂

/-! ## The Kelly stake -/

theorem calculate_kelly {i : Inputs} (hi : Accepted h i) (hmethod : i.method = .kelly)
    {risk win : Arg} {s : Dec} (hbalance : (i.balance.or (.int 0)).Is h B)
    (hwin : (win.or (.str "0.5")).Is h p₁) (hs : calculate h i risk win = .ok s) :
    ∃ β, 0 < β ∧ (i.reward_risk.or (.str "1")).Is h β ∧
      s.toRat = some (Dec.rounded (B * kellyFraction p₁ β)) := by
  obtain ⟨β, hβ, hpos⟩ := hi.reward_risk
  obtain ⟨b, hb, hvalue⟩ := hbalance
  rcases bind_ok.mp hs with ⟨_, hb', hs⟩
  rcases bind_ok.mp hs with ⟨x, _, hs⟩
  obtain rfl := Except.ok.inj (hb.symm.trans hb')
  rw [byMethod, hmethod] at hs
  exact ⟨β, hpos, hβ, kelly_value hvalue hwin hβ hs⟩

theorem kellyFraction_bounds (p β : ℚ) : 0 ≤ kellyFraction p β ∧ kellyFraction p β ≤ 1 / 4 :=
  ⟨le_max_left _ _, max_le (by norm_num) (min_le_right _ _)⟩

theorem kellyFraction_zero {β : ℚ} (hβ : 0 < β) : kellyFraction 0 β = 0 := by
  have hone : Dec.rounded (1 - 0) = 1 := by
    have hdigits := @Dec.rounded_of_digits false 1 0 (by norm_num)
    simpa using hdigits
  have hnothing : Dec.rounded (0 * β) = 0 := by
    have hdigits := @Dec.rounded_of_digits false 0 0 (by norm_num)
    simpa using hdigits
  have hloss : Dec.rounded (0 - 1) = -1 := by
    have hdigits := @Dec.rounded_of_digits true 1 0 (by norm_num)
    simpa using hdigits
  have hquotient : Dec.rounded (-1 / β) ≤ 0 := by
    have hneg := Dec.rounded_mono (div_nonpos_of_nonpos_of_nonneg (by norm_num : (-1 : ℚ) ≤ 0) hβ.le)
    rwa [← hnothing, zero_mul]
  unfold kellyFraction
  rw [hone, hnothing, hloss]
  exact max_eq_left (le_trans (min_le_left _ _) hquotient)

/-! ## Division -/

theorem bind_ne_error {α β : Type} {x : Except Dec.DivSignal α} {f : α → Except Dec.DivSignal β}
    (hx : x ≠ .error .divisionByZero) (hf : ∀ a, x = .ok a → f a ≠ .error .divisionByZero) :
    (x >>= f) ≠ .error .divisionByZero := by
  cases x with
  | error e =>
    intro hzero
    apply hx
    rw [Except.error.inj hzero]
  | ok a => exact hf a rfl

theorem read_ne_divisionByZero (a : Arg) : a.read h ≠ .error .divisionByZero := by
  have htext : ∀ s, readText h s ≠ .error .divisionByZero := by
    intro s
    unfold readText
    split <;> simp
  cases a with
  | decimal x => simp [Arg.read]
  | _ => exact htext _

theorem over_ne_divisionByZero {amount distance floor : Dec}
    (hfloor : distance.maxOf smallest = .ok floor) :
    amount.div floor ≠ .error .divisionByZero := by
  intro hzero
  obtain ⟨e, he, hpos⟩ := smallest_pos hfloor
  rw [Dec.ext_of_toRat (Dec.toRat_of_divisionByZero hzero)] at he
  exact hpos.ne (Option.some.inj he)

theorem calculate_ne_divisionByZero {i : Inputs} (hi : Accepted h i) (risk win : Arg) :
    calculate h i risk win ≠ .error .divisionByZero := by
  refine bind_ne_error (read_ne_divisionByZero _) fun b _ => ?_
  refine bind_ne_error (read_ne_divisionByZero _) fun x _ => ?_
  unfold byMethod
  cases i.method with
  | fixed_stake =>
    exact bind_ne_error (read_ne_divisionByZero _) fun _ _ => lift_ne_divisionByZero
  | fixed_fractional => exact lift_ne_divisionByZero
  | kelly =>
    -- the only divisor that is an argument is the reward, which is positive
    obtain ⟨β, ⟨d, hd, hβ⟩, hpos⟩ := hi.reward_risk
    refine bind_ne_error (read_ne_divisionByZero _) fun p _ => ?_
    refine bind_ne_error (read_ne_divisionByZero _) fun d' hd' => ?_
    obtain rfl := Except.ok.inj (hd.symm.trans hd')
    refine bind_ne_error lift_ne_divisionByZero fun won _ => ?_
    refine bind_ne_error lift_ne_divisionByZero fun lost _ => ?_
    refine bind_ne_error lift_ne_divisionByZero fun edge _ => ?_
    refine bind_ne_error ?_ fun f _ => ?_
    · intro hzero
      rw [Dec.toRat_of_divisionByZero hzero] at hβ
      exact hpos.ne (Option.some.inj hβ)
    · refine bind_ne_error lift_ne_divisionByZero fun least _ => ?_
      exact bind_ne_error lift_ne_divisionByZero fun _ _ => lift_ne_divisionByZero
  | atr_based =>
    refine bind_ne_error (read_ne_divisionByZero _) fun distance _ => ?_
    refine bind_ne_error lift_ne_divisionByZero fun amount _ => ?_
    exact bind_ne_error lift_ne_divisionByZero fun floor hfloor =>
      over_ne_divisionByZero (lift_ok.mp hfloor)
  | volatility_adjusted =>
    refine bind_ne_error (read_ne_divisionByZero _) fun vol _ => ?_
    refine bind_ne_error lift_ne_divisionByZero fun floor hfloor => ?_
    exact bind_ne_error lift_ne_divisionByZero fun amount _ =>
      over_ne_divisionByZero (lift_ok.mp hfloor)
  | dynamic =>
    refine bind_ne_error lift_ne_divisionByZero fun scaled _ => ?_
    exact bind_ne_error lift_ne_divisionByZero fun _ _ => lift_ne_divisionByZero
  | percentage_risk =>
    refine bind_ne_error lift_ne_divisionByZero fun amount _ => ?_
    refine bind_ne_error (read_ne_divisionByZero _) fun distance _ => ?_
    exact bind_ne_error lift_ne_divisionByZero fun floor hfloor =>
      over_ne_divisionByZero (lift_ok.mp hfloor)

/-! ## The limits -/

theorem zero_atMost_remaining {limit current : Arg} {left : Dec}
    (hleft : remaining h limit current = .ok (some left)) : zero.AtMost left := by
  unfold remaining at hleft
  split at hleft
  · cases hleft
  · cases hleft
  · rcases bind_ok.mp hleft with ⟨x, _, hleft⟩
    rcases bind_ok.mp hleft with ⟨y, _, hleft⟩
    rcases bind_ok.mp hleft with ⟨d, _, hleft⟩
    rcases bind_ok.mp hleft with ⟨m, hmax, hleft⟩
    cases hleft
    exact (Dec.atMost_maxOf (lift_ok.mp hmax)).1

theorem calculateStake_capped {i : Inputs} {l : Limits} {risk win : Arg} {s left : Dec}
    (hs : calculateStake h i l risk win = .ok s)
    (hleft : remaining h l.max_daily_loss l.current_daily_loss = .ok (some left) ∨
      remaining h l.max_exposure l.current_exposure = .ok (some left)) : s.AtMost left := by
  rcases bind_ok.mp hs with ⟨stake, _, hs⟩
  rcases bind_ok.mp hs with ⟨loss, hloss, hs⟩
  rcases bind_ok.mp hs with ⟨exposure, hexposure, hs⟩
  rcases bind_ok.mp hs with ⟨least, hleast, hs⟩
  have hall := (Dec.atMost_of_foldlM (lift_ok.mp hleast)).2
  refine Dec.maxOf_atMost (lift_ok.mp hs) ?_ (hall left ?_)
  · rcases hleft with hleft | hleft <;> exact zero_atMost_remaining hleft
  · rw [List.mem_append, Option.mem_toList, Option.mem_toList]
    rcases hleft with hleft | hleft
    · exact Or.inl (Except.ok.inj (hloss.symm.trans hleft))
    · exact Or.inr (Except.ok.inj (hexposure.symm.trans hleft))

/-! ## False zeros -/

theorem or_of_true {a d : Arg} {q : ℚ} (ha : a.truthy = true) : (a.or d).Is h q ↔ a.Is h q := by
  rw [Arg.or, if_pos ha]

theorem or_of_false {a d : Arg} {q : ℚ} (ha : a.truthy = false) : (a.or d).Is h q ↔ d.Is h q := by
  rw [Arg.or, ha]
  rfl

theorem default_risk_is : (Arg.str "0.02").Is h (1 / 50) := by
  refine ⟨_, default_risk, ?_⟩
  simp only [Dec.toRat]
  norm_num

theorem default_win_is : (Arg.str "0.5").Is h (1 / 2) := by
  refine ⟨_, default_win, ?_⟩
  simp only [Dec.toRat]
  norm_num

/-- A number below the middle between two neighbours is not rounded beyond the lower one. -/
theorem roundTo_le_of_lt_half {w : ℚ} {m : ℕ} (hw : 0 ≤ w) (hlow : 10 ^ 27 ≤ m) (hhigh : m < 10 ^ 28)
    (hhalf : w < m + 1 / 2) : Dec.roundTo w ≤ m := by
  have hm : (10 : ℚ) ^ 27 ≤ m := by exact_mod_cast hlow
  rcases lt_or_ge w (10 ^ 27) with hsmall | hlarge
  · have hdecade : Dec.roundTo (10 ^ 27) = 10 ^ 27 := by
      have hdigits := @Dec.roundTo_of_digits (10 ^ 27) 0 (by norm_num)
      rw [zpow_zero, mul_one] at hdigits
      exact_mod_cast hdigits
    exact (Dec.roundTo_mono hw hsmall.le).trans (hdecade.trans_le hm)
  · have hpos : (0 : ℚ) < w := lt_of_lt_of_le (by norm_num) hlarge
    have hlog : Int.log 10 w = 27 := by
      apply le_antisymm
      · have hlt : w < (10 : ℚ) ^ (28 : ℤ) := by
          have hcast : (m : ℚ) + 1 ≤ 10 ^ 28 := by exact_mod_cast hhigh
          have hpow : (10 : ℚ) ^ (28 : ℤ) = 10 ^ 28 := by norm_num
          rw [hpow]
          linarith
        have hlog : Int.log 10 w < 28 :=
          (Int.lt_zpow_iff_log_lt (b := 10) (by norm_num) hpos).mp (by exact_mod_cast hlt)
        omega
      · refine (Int.zpow_le_iff_le_log (by norm_num) hpos).mp ?_
        have hpow : ((10 : ℕ) : ℚ) ^ (27 : ℤ) = 10 ^ 27 := by norm_num
        rw [hpow]
        exact hlarge
    have hdigit : Dec.lastDigit w = 0 := by
      rw [Dec.lastDigit, hlog]
      norm_num
    rw [Dec.roundTo, hdigit, zpow_zero, div_one, mul_one]
    have hbound := (Double.roundEven_bounds w).1
    have hlt : Double.roundEven w < (m : ℤ) + 1 := by
      have hcast : (Double.roundEven w : ℚ) < m + 1 := by linarith
      exact_mod_cast hcast
    exact_mod_cast Int.lt_add_one_iff.mp hlt

/-- A share of a balance, with a ratio of 2 for a Kelly stake. -/
def share (method : Method) (balance : Dec) : Inputs where
  balance := .decimal balance
  stop_loss_distance := .none
  method := method
  fixed_stake := .none
  reward_risk := .int 2
  atr := .none
  volatility := .none

/-- Of this balance, 2% lie in the middle between two decimals. -/
def between : Dec := .finite false 50000000000000000000000000075 0

theorem share_accepted {method : Method} {balance : Dec} {q : ℚ} (hbalance : balance.toRat = some q)
    (hq : 0 ≤ q) (htrue : (Arg.decimal balance).truthy = true) :
    Accepted h (share method balance) := by
  constructor
  · exact ⟨q, (or_of_true htrue).mpr ⟨balance, rfl, hbalance⟩, hq⟩
  · refine ⟨2, (or_of_true rfl).mpr ⟨.finite false 2 0, ?_, by simp [Dec.toRat]⟩, by norm_num⟩
    exact readText_of_ascii (s := "2") (by decide +kernel) (by decide +kernel)

theorem Arg.Is.unique {a : Arg} {q q' : ℚ} (hq : a.Is h q) (hq' : a.Is h q') : q = q' := by
  obtain ⟨x, hx, hvalue⟩ := hq
  obtain ⟨x', hx', hvalue'⟩ := hq'
  obtain rfl := Except.ok.inj (hx.symm.trans hx')
  exact Option.some.inj (hvalue.symm.trans hvalue')

/-- An argument that is a number has a number that is used. -/
theorem used {a d : Arg} {q q' : ℚ} (ha : a.Is h q) (hd : d.Is h q') : ∃ u, (a.or d).Is h u := by
  cases htrue : a.truthy with
  | true => exact ⟨q, (or_of_true htrue).mpr ha⟩
  | false => exact ⟨q', (or_of_false htrue).mpr hd⟩

/-- A false win rate gets a Kelly stake. -/
theorem true_of_kelly_zero {risk win : Arg} {r p : ℚ} (hrisk : risk.Is h r) (hwin : win.Is h p)
    (hzero : ∀ i, Accepted h i → i.method = .kelly → win.Is h 0 → ∀ s,
      calculate h i risk win = .ok s → s.toRat = some 0) : win.truthy = true := by
  by_contra hfalse
  rw [Bool.not_eq_true] at hfalse
  obtain rfl : p = 0 := eq_zero_of_false hfalse hwin
  obtain ⟨r', x, hx, _⟩ := used hrisk default_risk_is
  have hone : (share .kelly one).balance.or (.int 0) = .decimal one := rfl
  have htwo : (Arg.int 2).read h = .ok (.finite false 2 0) :=
    readText_of_ascii (s := "2") (by decide +kernel) (by decide +kernel)
  have hstake : ∃ s, kellyStake one (.finite false 5 (-1)) (.finite false 2 0) = .ok s ∧
      s.toRat = some (1 / 4) := by
    have hvalue : (kellyStake one (.finite false 5 (-1)) (.finite false 2 0)).toOption.bind
        Dec.toRat = some (1 / 4) := by
      decide +kernel
    cases hs : kellyStake one (.finite false 5 (-1)) (.finite false 2 0) with
    | error e =>
      rw [hs] at hvalue
      cases hvalue
    | ok s =>
      rw [hs] at hvalue
      exact ⟨s, rfl, hvalue⟩
  obtain ⟨s, hs, hvalue⟩ := hstake
  have hcalculate : calculate h (share .kelly one) risk win = .ok s := by
    refine bind_ok.mpr ⟨one, rfl, bind_ok.mpr ⟨x, hx, ?_⟩⟩
    refine bind_ok.mpr ⟨.finite false 5 (-1), ?_, bind_ok.mpr ⟨.finite false 2 0, htwo, hs⟩⟩
    rw [Arg.or, hfalse]
    exact default_win
  have haccepted : Accepted h (share .kelly one) := share_accepted one_value zero_le_one rfl
  have hnone := hzero _ haccepted rfl hwin s hcalculate
  rw [hvalue] at hnone
  norm_num at hnone

/-- A false risk gets more than a risk below the default. -/
theorem default_le_of_monotone {risk₁ risk₂ win : Arg} {r : ℚ} (hfalse : risk₁.truthy = false)
    (htrue : risk₂.truthy = true) (hr : risk₂.Is h r) (hnonneg : 0 ≤ r) (hone : r ≤ 1)
    (hmono : ∀ i s₁ s₂, Accepted h i → calculate h i risk₁ win = .ok s₁ →
      calculate h i risk₂ win = .ok s₂ → s₁.AtMost s₂) : 1 / 50 ≤ r := by
  by_contra hlt
  rw [not_le] at hlt
  have hbetween : between.toRat = some 50000000000000000000000000075 := by
    simp [between, Dec.toRat]
  have haccepted : Accepted h (share .fixed_fractional between) :=
    share_accepted hbetween (by norm_num) rfl
  obtain ⟨x, hx, hvalue⟩ := hr
  have hmore : between.mul (.finite false 2 (-2)) =
      .ok (.finite false 1000000000000000000000000002 0) := by
    decide +kernel
  -- the smaller product is a size too, so that monotony compares the two
  have hless : ∃ s, between.mul x = .ok s := by
    cases x with
    | finite n c e =>
      refine Dec.mulFinite_of_lt_pow (k := 29) ?_ (by decide)
      have hsigned := Option.some.inj hvalue
      have hsize : (c : ℚ) * 10 ^ e ≤ 1 := by
        cases n with
        | false =>
          rw [if_neg Bool.false_ne_true, one_mul] at hsigned
          rwa [hsigned]
        | true =>
          rw [if_pos rfl, mul_assoc] at hsigned
          linarith
      rw [Nat.cast_mul, zero_add, mul_assoc]
      calc ((50000000000000000000000000075 : ℕ) : ℚ) * (c * 10 ^ e)
          ≤ (50000000000000000000000000075 : ℕ) * 1 := by gcongr
        _ < 10 ^ (29 : ℤ) := by norm_num
    | _ => cases hvalue
  obtain ⟨s, hs⟩ := hless
  have hcalculate₁ : calculate h (share .fixed_fractional between) risk₁ win =
      .ok (.finite false 1000000000000000000000000002 0) := by
    refine bind_ok.mpr ⟨between, rfl, bind_ok.mpr ⟨.finite false 2 (-2), ?_, lift_ok.mpr hmore⟩⟩
    rw [Arg.or, hfalse]
    exact default_risk
  have hcalculate₂ : calculate h (share .fixed_fractional between) risk₂ win = .ok s := by
    refine bind_ok.mpr ⟨between, rfl, bind_ok.mpr ⟨x, ?_, lift_ok.mpr hs⟩⟩
    rw [Arg.or, if_pos htrue]
    exact hx
  have hle := hmono _ _ _ haccepted hcalculate₁ hcalculate₂
  have hfirst : (Dec.finite false 1000000000000000000000000002 0).toRat =
      some 1000000000000000000000000002 := by
    simp [Dec.toRat]
  rw [Dec.atMost_of_toRat hfirst (Dec.mul_value hbetween hvalue hs),
    Dec.rounded_of_nonneg (by positivity)] at hle
  -- a risk below 2% rounds to the number before, and at 2% the product is rounded up
  have hround := roundTo_le_of_lt_half (m := 1000000000000000000000000001)
    (w := 50000000000000000000000000075 * r) (by positivity) (by norm_num) (by norm_num)
    (by push_cast; linarith)
  have hnumbers := hle.trans hround
  norm_num at hnumbers

/-- With true win rates, and risks that are used in their order, the laws hold. -/
theorem lawful_of_used {risk₁ risk₂ win₁ win₂ : Arg} (hr₁ : (risk₁.or (.str "0.02")).Is h r₁)
    (hr₂ : (risk₂.or (.str "0.02")).Is h r₂) (hle : r₁ ≤ r₂) (hp₁ : win₁.Is h p₁)
    (hp₂ : win₂.Is h p₂) (hple : p₁ ≤ p₂) (ht₁ : win₁.truthy = true) (ht₂ : win₂.truthy = true) :
    Lawful h risk₁ risk₂ win₁ win₂ := by
  have hwins : ∀ win ∈ [win₁, win₂], win.truthy = true ∧ ∃ p, win.Is h p := by
    intro win hwin
    rcases List.mem_pair.mp hwin with rfl | rfl
    · exact ⟨ht₁, p₁, hp₁⟩
    · exact ⟨ht₂, p₂, hp₂⟩
  constructor
  · intro i win s₁ s₂ hi ⟨p, hp, _⟩ hs₁ hs₂
    obtain ⟨u, hu⟩ := used hp default_win_is
    exact calculate_mono hi hr₁ hr₂ hle hu hu le_rfl hs₁ hs₂
  · intro i risk s₁ s₂ hi ⟨r, hr, _⟩ hs₁ hs₂
    obtain ⟨u, hu⟩ := used hr default_risk_is
    exact calculate_mono hi hu hu le_rfl ((or_of_true ht₁).mpr hp₁) ((or_of_true ht₂).mpr hp₂) hple
      hs₁ hs₂
  · intro i hi hmethod risk _ win hwin s B hB hs
    obtain ⟨htrue, p, hp⟩ := hwins win hwin
    obtain ⟨β, hβ, _, hvalue⟩ := calculate_kelly hi hmethod hB ((or_of_true htrue).mpr hp) hs
    obtain ⟨B', hB', hnonneg⟩ := hi.balance
    obtain rfl := hB.unique hB'
    obtain ⟨hlow, hhigh⟩ := kellyFraction_bounds p β
    exact ⟨_, hvalue, Dec.rounded_nonneg (by positivity),
      Dec.rounded_mono (mul_le_mul_of_nonneg_left hhigh hnonneg)⟩
  · intro i hi hmethod risk _ win hwin hzero s hs
    obtain ⟨B, hB, _⟩ := hi.balance
    obtain ⟨β, hβ, _, hvalue⟩ := calculate_kelly hi hmethod hB
      ((or_of_true (hwins win hwin).1).mpr hzero) hs
    have hnothing : Dec.rounded (B * 0) = 0 := by
      have hdigits := @Dec.rounded_of_digits false 0 0 (by norm_num)
      simpa using hdigits
    rw [hvalue, kellyFraction_zero hβ, hnothing]
  · intro i hi risk _ win _
    exact calculate_ne_divisionByZero hi risk win
  · intro i l _ risk _ win _ s hs left hleft
    exact calculateStake_capped hs hleft

end Laws

/-- For two risks and two win rates between 0 and 1, the laws of the sizes hold exactly if the win
rates are no false zeros, and the smaller risk is no false zero, or the other is one too, or is not
below the default of 2%. -/
theorem sized_iff (h : Host) {risk₁ risk₂ win₁ win₂ : Arg} {r₁ r₂ p₁ p₂ : ℚ}
    (hr₁ : risk₁.Is h r₁) (hr₂ : risk₂.Is h r₂) (hrisk : 0 ≤ r₁ ∧ r₁ ≤ r₂ ∧ r₂ ≤ 1)
    (hp₁ : win₁.Is h p₁) (hp₂ : win₂.Is h p₂) (hwin : 0 ≤ p₁ ∧ p₁ ≤ p₂ ∧ p₂ ≤ 1) :
    Lawful h risk₁ risk₂ win₁ win₂ ↔
      (win₁.truthy = true ∧ win₂.truthy = true) ∧
        (risk₁.truthy = true ∨ risk₂.truthy = false ∨ 1 / 50 ≤ r₂) := by
  constructor
  · intro hlaws
    refine ⟨⟨?_, ?_⟩, ?_⟩
    · exact true_of_kelly_zero hr₁ hp₁ fun i hi hmethod hzero s hs =>
        hlaws.kelly_zero i hi hmethod risk₁ (by simp) win₁ (by simp) hzero s hs
    · exact true_of_kelly_zero hr₁ hp₂ fun i hi hmethod hzero s hs =>
        hlaws.kelly_zero i hi hmethod risk₁ (by simp) win₂ (by simp) hzero s hs
    · cases hfalse : risk₁.truthy with
      | true => exact Or.inl rfl
      | false =>
        cases htrue : risk₂.truthy with
        | false => exact Or.inr (Or.inl rfl)
        | true =>
          have hfraction : win₁.Fraction h := ⟨p₁, hp₁, hwin.1, hwin.2.1.trans hwin.2.2⟩
          have hle := default_le_of_monotone hfalse htrue hr₂ (hrisk.1.trans hrisk.2.1) hrisk.2.2
            fun i s₁ s₂ hi hs₁ hs₂ => hlaws.risk_monotone i win₁ s₁ s₂ hi hfraction hs₁ hs₂
          exact Or.inr (Or.inr hle)
  · rintro ⟨⟨ht₁, ht₂⟩, hrisks⟩
    cases htrue₁ : risk₁.truthy with
    | true =>
      have hu₁ := (or_of_true (d := .str "0.02") htrue₁).mpr hr₁
      cases htrue₂ : risk₂.truthy with
      | true =>
        exact lawful_of_used hu₁ ((or_of_true htrue₂).mpr hr₂) hrisk.2.1 hp₁ hp₂ hwin.2.1 ht₁ ht₂
      | false =>
        -- the larger risk is zero, and so is the smaller one
        have hzero := eq_zero_of_false htrue₂ hr₂
        have hle : r₁ ≤ 1 / 50 := by linarith
        exact lawful_of_used hu₁ ((or_of_false htrue₂).mpr default_risk_is) hle hp₁ hp₂ hwin.2.1
          ht₁ ht₂
    | false =>
      have hu₁ := (or_of_false htrue₁).mpr (default_risk_is (h := h))
      cases htrue₂ : risk₂.truthy with
      | true =>
        have hle : 1 / 50 ≤ r₂ := by simpa [htrue₁, htrue₂] using hrisks
        exact lawful_of_used hu₁ ((or_of_true htrue₂).mpr hr₂) hle hp₁ hp₂ hwin.2.1 ht₁ ht₂
      | false =>
        exact lawful_of_used hu₁ ((or_of_false htrue₂).mpr default_risk_is) le_rfl hp₁ hp₂ hwin.2.1
          ht₁ ht₂

/-- Risks of 1% and 2%, and win rates of 40% and 60%. -/
theorem sized_numbers :
    Lawful .ascii (.decimal (.finite false 1 (-2))) (.decimal (.finite false 2 (-2)))
      (.decimal (.finite false 4 (-1))) (.decimal (.finite false 6 (-1))) := by
  have hvalue : ∀ n : ℕ, ∀ e : ℤ, (Arg.decimal (.finite false n e)).Is .ascii (n * 10 ^ e) := by
    intro n e
    exact ⟨_, rfl, by simp [Dec.toRat]⟩
  exact (sized_iff .ascii (hvalue 1 (-2)) (hvalue 2 (-2)) (by norm_num) (hvalue 4 (-1))
    (hvalue 6 (-1)) (by norm_num)).mpr ⟨⟨rfl, rfl⟩, Or.inl rfl⟩

/-- Of a balance of 100, no risk gets 2 and a risk of 1% gets 1; and with a ratio of 2, no chance to
win gets a quarter. -/
theorem zero_risk_larger :
    (calculate .ascii (share .fixed_fractional (.finite false 100 0)) (.int 0) (.str "0.5")).toOption.bind
        Dec.toRat = some 2 ∧
      (calculate .ascii (share .fixed_fractional (.finite false 100 0)) (.str "0.01")
        (.str "0.5")).toOption.bind Dec.toRat = some 1 ∧
      (calculate .ascii (share .kelly (.finite false 100 0)) (.str "0.01") (.int 0)).toOption.bind
        Dec.toRat = some 25 ∧
      ¬ Lawful .ascii (.int 0) (.str "0.01") (.str "0.5") (.str "0.5") := by
  refine ⟨by decide +kernel, by decide +kernel, by decide +kernel, ?_⟩
  intro hlaws
  have hfalse : (Arg.int 0).truthy = false := rfl
  have hr : (Arg.str "0.01").Is .ascii (1 / 100) := by
    refine ⟨.finite false 1 (-2), readText_of_ascii (h := .ascii) (s := "0.01")
      (by decide +kernel) (by decide +kernel), ?_⟩
    simp only [Dec.toRat]
    norm_num
  have hwin : (Arg.str "0.5").Fraction .ascii := ⟨1 / 2, default_win_is, by norm_num⟩
  have hle := default_le_of_monotone hfalse rfl hr (by norm_num) (by norm_num)
    fun i s₁ s₂ hi hs₁ hs₂ => hlaws.risk_monotone i _ s₁ s₂ hi hwin hs₁ hs₂
  norm_num at hle

end AlgoBot.Risk.Sizing
