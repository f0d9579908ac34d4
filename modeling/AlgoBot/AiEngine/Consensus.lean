import AlgoBot.Core.DoubleError

/-!
# The consensus and its gates

The ensemble decides from the average of its models and refuses what is near the middle or below
the least confidence. `infer` hands on the direction of the average and not what was decided, and
rounds the confidence once more; recommendation and gate compare this with a threshold of their own.

* `handed_on`: what recommendation and gate are given.
* `never_exceeds_iff`: when they approve only what the consensus decided and report its confidence.
* `approved_avoided`: with the defaults they approve what the consensus avoids.
-/

namespace AlgoBot.AiEngine.Consensus

open AlgoBot.Core

/-! ## The consensus -/

inductive Decision
  | BUY
  | SELL
  | AVOID
  deriving DecidableEq, Repr

inductive Direction
  | UP
  | DOWN
  | FLAT
  | NO_MODELS
  deriving DecidableEq, Repr

/-- What the consensus reads of the output of a model; a field can be missing. -/
structure Output where
  model : String
  probability : Option Double
  weight : Option Double
  deriving DecidableEq, Repr

/-- What numpy computes of arrays. -/
structure Numpy where
  sum : List Double → Double
  average : List Double → List Double → Double
  sqrt : Double → Double

/-- `max(0., min(1., x))`. -/
def clamp (x : Double) : Double := Double.pyMax (.fin 0) (Double.pyMin (.fin 1) x)

/-- `np.clip(x, 0., 1.)`, which leaves a NaN. -/
def _clip_probability (x : Double) : Double :=
  if Double.lt x (.fin 0) then .fin 0 else if Double.lt (.fin 1) x then .fin 1 else x

/-- The outputs with a weight, or all of them. -/
def usable (predictions : List Output) : List Output :=
  let weighted := predictions.filter fun p => Double.lt (.fin 0) (p.weight.getD (.fin 0))
  if weighted = [] then predictions else weighted

def weights (np : Numpy) (predictions : List Output) : List Double :=
  let own := (usable predictions).map fun p => Double.pyMax (.fin 0) (p.weight.getD (.fin 1))
  if Double.le (np.sum own) (.fin 0) then own.map fun _ => .fin 1 else own

def probs (predictions : List Output) : List Double :=
  (usable predictions).map fun p => _clip_probability (p.probability.getD (.fin (1 / 2)))

/-- `probability`, not rounded. -/
def probability (np : Numpy) (predictions : List Output) : Double :=
  np.average (probs predictions) (weights np predictions)

def std (np : Numpy) (predictions : List Output) : Double :=
  np.sqrt (np.average ((probs predictions).map fun p =>
    let off := Double.sub p (probability np predictions)
    Double.mul off off) (weights np predictions))

def agreement (np : Numpy) (predictions : List Output) : Double :=
  clamp (Double.sub (.fin 1) (Double.div (std np predictions) (.fin (1 / 2))))

/-- The distance of the probability from the middle. -/
def distance (np : Numpy) (predictions : List Output) : Double :=
  Double.abs (Double.sub (probability np predictions) (.fin (1 / 2)))

/-- `confidence`, not rounded. -/
def confidence (np : Numpy) (predictions : List Output) : Double :=
  clamp (Double.mul (Double.mul (distance np predictions) (.fin 2))
    (Double.add (.fin (1 / 2)) (Double.mul (.fin (1 / 2)) (agreement np predictions))))

def direction (np : Numpy) (predictions : List Output) : Direction :=
  if Double.lt (.fin (1 / 2)) (probability np predictions) then .UP
  else if Double.lt (probability np predictions) (.fin (1 / 2)) then .DOWN
  else .FLAT

/-- The average is within the band, or its confidence below the least. -/
def avoided (np : Numpy) (avoid_band min_confidence : Double) (predictions : List Output) : Bool :=
  Double.lt (distance np predictions) avoid_band ||
    Double.lt (confidence np predictions) min_confidence

/-- `_decision` of a direction. -/
def Direction.decision : Direction → Decision
  | .UP => .BUY
  | .DOWN => .SELL
  | .FLAT => .AVOID
  | .NO_MODELS => .AVOID

/-- The result of `consensus`. -/
structure Result where
  decision : Decision
  direction : Direction
  probability : Double
  confidence : Double
  agreement : Double
  std_dev : Double
  models_used : ℕ
  model_types : List String
  deriving DecidableEq, Repr

/-- `EnsemblePredictor.consensus`. -/
def consensus (np : Numpy) (avoid_band min_confidence : Double) (predictions : List Output) :
    Result :=
  if predictions = [] then ⟨.AVOID, .NO_MODELS, .fin (1 / 2), .fin 0, .fin 0, .fin 0, 0, []⟩
  else {
    decision :=
      if avoided np avoid_band min_confidence predictions then .AVOID
      else if Double.lt (.fin (1 / 2)) (probability np predictions) then .BUY
      else if Double.lt (probability np predictions) (.fin (1 / 2)) then .SELL
      else .AVOID
    direction := direction np predictions
    probability := Double.round 4 (probability np predictions)
    confidence := Double.round 4 (confidence np predictions)
    agreement := Double.round 4 (agreement np predictions)
    std_dev := Double.round 4 (std np predictions)
    models_used := (usable predictions).length
    model_types := (usable predictions).map Output.model }

/-! ## The gates -/

/-- What the payload of a prediction has of the consensus. -/
structure Served where
  decision : Decision
  confidence : Double
  models_used : ℕ
  deriving DecidableEq, Repr

def within (x low high : Double) : Bool := Double.le low x && Double.le x high

/-- The check of what the ensemble returns; a `disagreement` it never returns. -/
def valid (result : Result) : Bool :=
  result.probability.isFinite && result.confidence.isFinite && result.agreement.isFinite &&
    within result.probability (.fin 0) (.fin 1) && within result.confidence (.fin 0) (.fin 100) &&
    within result.agreement (.fin 0) (.fin 1) && 1 ≤ result.models_used

/-- `infer` of a trained ensemble. -/
def infer (result : Result) : Served :=
  if valid result then
    ⟨result.direction.decision, Double.round 2 result.confidence, result.models_used⟩
  else ⟨.AVOID, .fin 0, 0⟩

/-- The confidence in percent, if it is a fraction. -/
def percent (c : Double) : Double := if within c (.fin 0) (.fin 1) then Double.mul c (.fin 100) else c

/-- The price action of a prediction, as `_num` reads it. -/
structure PriceAction where
  confluence : Double
  chop : Double
  alignment : Double
  trend : Double
  deriving DecidableEq, Repr

def MIN_CONFIDENCE : Double := .fin 65

def MIN_CONFLUENCE : Double := .fin (1 / 2)

def MAX_CHOP : Double := Double.ofRat (4 / 5)

def PriceAction.blocked (price : PriceAction) : Bool :=
  Double.lt MAX_CHOP price.chop || Double.lt price.confluence MIN_CONFLUENCE ||
    (Double.eq price.alignment (.fin 0) && Double.lt (Double.ofRat (3 / 20)) (Double.abs price.trend))

/-- An `AIRecommendation`; `none` is `WAIT`. -/
structure Recommendation where
  recommendation : Option Decision
  confidence : Double
  risk_level : String
  deriving DecidableEq, Repr

/-- `RecommendationService.recommend`. -/
def recommend (served : Served) (price : PriceAction) (risk_score : Double) : Recommendation :=
  let actionable := decide (served.decision ≠ .AVOID) &&
    Double.le MIN_CONFIDENCE (percent served.confidence) && decide (1 ≤ served.models_used) &&
      !price.blocked
  { recommendation := if actionable then some served.decision else none
    confidence := percent served.confidence
    risk_level :=
      if Double.lt (Double.ofRat (3 / 5)) risk_score then "high"
      else if Double.lt (Double.ofRat (3 / 10)) risk_score then "medium"
      else "low" }

/-- `ConsensusDecisionGate.validate`, with the way that numbers are printed with two places and the
direction of the order, if it is given. -/
def validate (fixed2 : Double → String) (served : Served) (price : PriceAction)
    (intended : Option Decision) : Bool × String :=
  if served.decision = .AVOID then (false, "Ensemble consensus is not actionable")
  else if Double.lt (percent served.confidence) MIN_CONFIDENCE then
    (false, "Ensemble confidence " ++ fixed2 (percent served.confidence) ++ "% below " ++
      fixed2 MIN_CONFIDENCE ++ "% gate")
  else if served.models_used < 1 then (false, "No trained ensemble models available")
  else if Double.lt price.confluence (.fin (1 / 2)) then
    (false, "Price-action confluence below 0.50 gate")
  else if Double.lt (Double.ofRat (4 / 5)) price.chop then
    (false, "Market is too choppy for the price-action gate")
  else if intended.any (· ≠ served.decision) then
    (false, "Order direction conflicts with ensemble consensus")
  else (true, "Ensemble consensus approved")

/-! ## What is handed on -/

section Gates

variable {np : Numpy} {avoid_band min_confidence : Double} {predictions : List Output}
  {price : PriceAction} {risk_score : Double} {fixed2 : Double → String} {intended : Option Decision}

theorem clamp_unit (x : Double) : ∃ q, clamp x = .fin q ∧ 0 ≤ q ∧ q ≤ 1 := by
  unfold clamp Double.pyMin
  split
  · next hless =>
    -- the value itself, if it is positive
    unfold Double.pyMax
    split
    · next hpos =>
      cases x with
      | nan => cases hless
      | inf neg => cases neg <;> simp [Double.lt] at hless hpos
      | fin q =>
        exact ⟨q, rfl, (Double.lt_fin.mp hpos).le, (Double.lt_fin.mp hless).le⟩
    · exact ⟨0, rfl, le_rfl, zero_le_one⟩
  · refine ⟨1, ?_, zero_le_one, le_rfl⟩
    rw [Double.pyMax, if_pos (Double.lt_fin.mpr zero_lt_one)]

theorem confidence_unit (np : Numpy) (predictions : List Output) :
    ∃ c, confidence np predictions = .fin c ∧ 0 ≤ c ∧ c ≤ 1 := clamp_unit _

theorem agreement_unit (np : Numpy) (predictions : List Output) :
    ∃ a, agreement np predictions = .fin a ∧ 0 ≤ a ∧ a ≤ 1 := clamp_unit _

theorem within_fin {q low high : ℚ} :
    within (.fin q) (.fin low) (.fin high) = true ↔ low ≤ q ∧ q ≤ high := by
  rw [within, Bool.and_eq_true, Double.le_fin, Double.le_fin]

theorem isFinite_of_within {x : Double} {low high : ℚ}
    (h : within x (.fin low) (.fin high) = true) : x.isFinite = true := by
  cases x with
  | nan => simp [within, Double.le, Double.lt, Double.eq] at h
  | inf neg => cases neg <;> simp [within, Double.le, Double.lt, Double.eq] at h
  | fin q => rfl

/-- A rounded number of the unit interval is in it. -/
theorem within_round {x : Double} {q : ℚ} (hx : x = .fin q) (hlow : 0 ≤ q) (hhigh : q ≤ 1) :
    within (Double.round 4 x) (.fin 0) (.fin 1) = true := by
  obtain ⟨_, y, hround, hy, hy_low, hy_high, _⟩ := Double.round_unit hlow hhigh (le_refl 4)
  rw [hx, hround, hy]
  exact within_fin.mpr ⟨hy_low, hy_high⟩

theorem usable_ne_nil (hne : predictions ≠ []) : usable predictions ≠ [] := by
  unfold usable
  dsimp only
  split
  · exact hne
  · assumption

/-- The outputs have a probability. -/
def lawful (np : Numpy) (predictions : List Output) : Bool :=
  decide (predictions ≠ []) &&
    within (Double.round 4 (probability np predictions)) (.fin 0) (.fin 1)

theorem ne_nil_of_lawful (hlawful : lawful np predictions = true) : predictions ≠ [] := by
  rintro rfl
  simp [lawful] at hlawful

theorem valid_iff :
    valid (consensus np avoid_band min_confidence predictions) = lawful np predictions := by
  by_cases hne : predictions = []
  · simp [consensus, hne, valid, lawful]
  obtain ⟨c, hc, hc_low, hc_high⟩ := confidence_unit np predictions
  obtain ⟨a, ha, ha_low, ha_high⟩ := agreement_unit np predictions
  have hconfidence := within_round hc hc_low hc_high
  have hagreement := within_round ha ha_low ha_high
  have hpercent : within (Double.round 4 (confidence np predictions)) (.fin 0) (.fin 100) = true := by
    obtain ⟨_, y, hround, hy, hy_low, hy_high, _⟩ :=
      Double.round_unit hc_low hc_high (le_refl 4)
    rw [hc, hround, hy]
    exact within_fin.mpr ⟨hy_low, hy_high.trans (by norm_num)⟩
  have hmodels : 1 ≤ (usable predictions).length :=
    List.length_pos_iff.mpr (usable_ne_nil hne)
  rw [consensus, if_neg hne, valid, lawful]
  simp only [isFinite_of_within hconfidence, isFinite_of_within hagreement, hpercent, hagreement,
    hmodels, hne, decide_true, Bool.and_true, ne_eq, not_false_eq_true, Bool.true_and]
  cases hprobability : within (Double.round 4 (probability np predictions)) (.fin 0) (.fin 1) with
  | true => simp [isFinite_of_within hprobability]
  | false => simp

/-- What recommendation and gate are given: the direction, and the confidence rounded twice. -/
theorem handed_on (hlawful : lawful np predictions = true) :
    infer (consensus np avoid_band min_confidence predictions) =
      ⟨(direction np predictions).decision,
        Double.round 2 (Double.round 4 (confidence np predictions)),
        (usable predictions).length⟩ := by
  have hne := ne_nil_of_lawful hlawful
  rw [infer, valid_iff, if_pos hlawful, consensus, if_neg hne]

theorem nothing_handed_on (hlawful : lawful np predictions = false) :
    infer (consensus np avoid_band min_confidence predictions) = ⟨.AVOID, .fin 0, 0⟩ := by
  rw [infer, valid_iff, hlawful]
  rfl

/-- The consensus decides for its direction, if it does not avoid. -/
theorem consensus_decision (hne : predictions ≠ []) :
    (consensus np avoid_band min_confidence predictions).decision =
      if avoided np avoid_band min_confidence predictions then .AVOID
      else (direction np predictions).decision := by
  rw [consensus, if_neg hne]
  dsimp only
  unfold direction
  split_ifs <;> rfl

/-! ## What is approved -/

/-- The price action and the direction of the order let the gate approve. -/
def opened (price : PriceAction) (intended : Option Decision) (decision : Decision) : Bool :=
  !Double.lt price.confluence MIN_CONFLUENCE && !Double.lt MAX_CHOP price.chop &&
    !intended.any (· ≠ decision)

/-- The confidence that is handed on, in percent. -/
def handedPercent (np : Numpy) (predictions : List Output) : Double :=
  Double.mul (Double.round 2 (Double.round 4 (confidence np predictions))) (.fin 100)

/-- The outputs have a side, and the confidence reaches the threshold of the gates. -/
structure Reaches (np : Numpy) (predictions : List Output) : Prop where
  lawful : lawful np predictions = true
  sided : (direction np predictions).decision ≠ .AVOID
  confident : Double.le MIN_CONFIDENCE (handedPercent np predictions) = true

theorem percent_handed : percent (Double.round 2 (Double.round 4 (confidence np predictions))) =
    handedPercent np predictions := by
  obtain ⟨c, hc, hc_low, hc_high⟩ := confidence_unit np predictions
  obtain ⟨_, a, hround, ha, ha_low, ha_high, _⟩ := Double.round_unit hc_low hc_high (le_refl 4)
  obtain ⟨_, b, hround', hb, hb_low, hb_high, _⟩ :=
    Double.round_unit ha_low ha_high (show 2 ≤ 4 by norm_num)
  rw [handedPercent, percent, hc, hround, ha, hround', hb,
    if_pos (within_fin.mpr ⟨hb_low, hb_high⟩)]

/-- The percentage of a handed confidence is a finite number. -/
theorem handedPercent_fin : ∃ q, handedPercent np predictions = .fin q := by
  obtain ⟨c, hc, hc_low, hc_high⟩ := confidence_unit np predictions
  obtain ⟨_, a, hround, ha, ha_low, ha_high, _⟩ := Double.round_unit hc_low hc_high (le_refl 4)
  obtain ⟨_, b, hround', hb, hb_low, hb_high, _⟩ :=
    Double.round_unit ha_low ha_high (show 2 ≤ 4 by norm_num)
  obtain ⟨q, hq, _⟩ := Double.ofRat_near (x := b * 100) (by positivity) (by linarith)
  refine ⟨q, ?_⟩
  rw [handedPercent, hc, hround, ha, hround', hb]
  exact hq

/-- What is recommended. -/
theorem recommended_iff (hlawful : lawful np predictions = true) {d : Decision} :
    (recommend (infer (consensus np avoid_band min_confidence predictions)) price
        risk_score).recommendation = some d ↔
      (Reaches np predictions ∧ price.blocked = false) ∧ (direction np predictions).decision = d := by
  have hne := ne_nil_of_lawful hlawful
  have hmodels : 1 ≤ (usable predictions).length := List.length_pos_iff.mpr (usable_ne_nil hne)
  rw [handed_on hlawful, recommend]
  simp only [percent_handed, hmodels, decide_true, Bool.and_true]
  rw [ite_eq_iff]
  constructor
  · rintro (⟨hactionable, hd⟩ | ⟨-, hd⟩)
    · simp only [Bool.and_eq_true, decide_eq_true_eq, Bool.not_eq_true'] at hactionable
      obtain ⟨⟨hsided, hconfident⟩, hfree⟩ := hactionable
      exact ⟨⟨⟨hlawful, hsided, hconfident⟩, hfree⟩, Option.some.inj hd⟩
    · cases hd
  · rintro ⟨⟨hreaches, hfree⟩, rfl⟩
    left
    simp [hreaches.sided, hreaches.confident, hfree]

/-- What the gate approves. -/
theorem approved_iff (hlawful : lawful np predictions = true) :
    (validate fixed2 (infer (consensus np avoid_band min_confidence predictions)) price
        intended).1 = true ↔
      Reaches np predictions ∧ opened price intended (direction np predictions).decision = true := by
  have hne := ne_nil_of_lawful hlawful
  have hmodels : ¬ (usable predictions).length < 1 :=
    Nat.not_lt.mpr (List.length_pos_iff.mpr (usable_ne_nil hne))
  obtain ⟨q, hq⟩ := @handedPercent_fin np predictions
  have hthreshold : Double.lt (handedPercent np predictions) MIN_CONFIDENCE = false ↔
      Double.le MIN_CONFIDENCE (handedPercent np predictions) = true := by
    rw [hq, MIN_CONFIDENCE, Double.le_fin, ← Bool.not_eq_true, Double.lt_fin, not_lt]
  rw [handed_on hlawful, validate]
  simp only [percent_handed, if_neg hmodels]
  constructor
  · intro happroved
    split at happroved
    · cases happroved
    · next hsided =>
      split at happroved
      · cases happroved
      · next hconfident =>
        split at happroved
        · cases happroved
        · next hconfluence =>
          split at happroved
          · cases happroved
          · next hchop =>
            split at happroved
            · cases happroved
            · next hintended =>
              refine ⟨⟨hlawful, hsided, hthreshold.mp (Bool.eq_false_iff.mpr hconfident)⟩, ?_⟩
              rw [opened, MIN_CONFLUENCE, MAX_CHOP, Bool.eq_false_iff.mpr hconfluence,
                Bool.eq_false_iff.mpr hchop, Bool.eq_false_iff.mpr hintended]
              rfl
  · rintro ⟨hreaches, hopened⟩
    simp only [opened, MIN_CONFLUENCE, MAX_CHOP, Bool.and_eq_true, Bool.not_eq_true'] at hopened
    obtain ⟨⟨hconfluence, hchop⟩, hintended⟩ := hopened
    rw [if_neg hreaches.sided,
      if_neg (Bool.eq_false_iff.mp (hthreshold.mpr hreaches.confident)),
      if_neg (Bool.eq_false_iff.mp hconfluence), if_neg (Bool.eq_false_iff.mp hchop),
      if_neg (Bool.eq_false_iff.mp hintended)]

theorem consensus_confidence (hne : predictions ≠ []) :
    (consensus np avoid_band min_confidence predictions).confidence =
      Double.round 4 (confidence np predictions) := by
  rw [consensus, if_neg hne]

theorem percent_nothing : percent (.fin 0) = .fin 0 := by decide +kernel

/-! ## Within the consensus -/

/-- Recommendation and gate approve only what the consensus has decided, and the recommendation has
its confidence, in percent. -/
structure NeverExceeds (result : Result) (price : PriceAction) (risk_score : Double)
    (fixed2 : Double → String) (intended : Option Decision) : Prop where
  recommended : ∀ d, (recommend (infer result) price risk_score).recommendation = some d →
    result.decision = d
  approved : (validate fixed2 (infer result) price intended).1 = true →
    result.decision = (infer result).decision
  reported : (recommend (infer result) price risk_score).confidence =
    Double.mul result.confidence (.fin 100)

/-- Where nothing is handed on nothing is approved, and the confidence that is reported is none. -/
theorem neverExceeds_nothing {result : Result} (hnothing : infer result = ⟨.AVOID, .fin 0, 0⟩) :
    NeverExceeds result price risk_score fixed2 intended ↔
      Double.mul result.confidence (.fin 100) = .fin 0 := by
  have hreported : (recommend (infer result) price risk_score).confidence = .fin 0 := by
    rw [hnothing]
    exact percent_nothing
  constructor
  · intro hwithin
    rw [← hwithin.reported, hreported]
  · intro hzero
    refine ⟨?_, ?_, hreported.trans hzero.symm⟩
    · intro d hd
      rw [hnothing] at hd
      cases hd
    · intro happroved
      rw [hnothing] at happroved
      cases happroved

/-- The confidence of the consensus, as a percentage, is none only if it is none. -/
theorem confidence_zero :
    Double.mul (Double.round 4 (confidence np predictions)) (.fin 100) = .fin 0 ↔
      Double.round 4 (confidence np predictions) = .fin 0 := by
  obtain ⟨c, hc, hc_low, hc_high⟩ := confidence_unit np predictions
  rw [hc]
  exact Double.percent_zero hc_low hc_high

/-- The confidence that is handed on is that of the consensus only if this has two places. -/
theorem confidence_handed :
    handedPercent np predictions =
        Double.mul (Double.round 4 (confidence np predictions)) (.fin 100) ↔
      Double.round 2 (Double.round 4 (confidence np predictions)) =
        Double.round 4 (confidence np predictions) := by
  obtain ⟨c, hc, hc_low, hc_high⟩ := confidence_unit np predictions
  rw [handedPercent, hc]
  exact Double.percent_inj hc_low hc_high

/-- A decision for the side of the outputs is not avoided. -/
theorem decided_iff (hne : predictions ≠ []) (hsided : (direction np predictions).decision ≠ .AVOID) :
    (consensus np avoid_band min_confidence predictions).decision =
        (direction np predictions).decision ↔
      avoided np avoid_band min_confidence predictions = false := by
  rw [consensus_decision hne]
  cases avoided np avoid_band min_confidence predictions with
  | true => simpa using hsided.symm
  | false => simp

/-- The gates never exceed the consensus exactly if they do not open for outputs that it avoids, and
its confidence has two places, or is none where the outputs have no probability. -/
theorem never_exceeds_iff (np : Numpy) (avoid_band min_confidence : Double)
    (predictions : List Output) (price : PriceAction) (risk_score : Double)
    (fixed2 : Double → String) (intended : Option Decision) :
    NeverExceeds (consensus np avoid_band min_confidence predictions) price risk_score fixed2
        intended ↔
      (Reaches np predictions → (price.blocked = false ∨
          opened price intended (direction np predictions).decision = true) →
        avoided np avoid_band min_confidence predictions = false) ∧
      (predictions ≠ [] →
        if lawful np predictions then
          Double.round 2 (Double.round 4 (confidence np predictions)) =
            Double.round 4 (confidence np predictions)
        else Double.round 4 (confidence np predictions) = .fin 0) := by
  by_cases hne : predictions = []
  · -- no model has an output
    subst hne
    have hlawful : lawful np [] = false := rfl
    rw [neverExceeds_nothing (nothing_handed_on hlawful)]
    have hnone : (consensus np avoid_band min_confidence []).confidence = .fin 0 := by
      rw [consensus, if_pos rfl]
    have hzero : Double.mul (.fin 0) (.fin 100) = .fin 0 := by decide +kernel
    rw [hnone]
    refine iff_of_true hzero ⟨fun hreaches => ?_, fun hne => absurd rfl hne⟩
    have htrue := hreaches.lawful
    rw [hlawful] at htrue
    cases htrue
  have hconfidence := @consensus_confidence np avoid_band min_confidence predictions hne
  cases hlawful : lawful np predictions with
  | false =>
    rw [neverExceeds_nothing (nothing_handed_on hlawful), hconfidence, confidence_zero]
    constructor
    · intro hzero
      refine ⟨fun hreaches => ?_, fun _ => ?_⟩
      · rw [hreaches.lawful] at hlawful
        cases hlawful
      · rw [if_neg Bool.false_ne_true]
        exact hzero
    · rintro ⟨-, hzero⟩
      simpa using hzero hne
  | true =>
    have hreported : (recommend (infer (consensus np avoid_band min_confidence predictions)) price
        risk_score).confidence = handedPercent np predictions := by
      rw [handed_on hlawful]
      exact percent_handed
    constructor
    · rintro ⟨hrecommended, happroved, hsame⟩
      rw [hreported, hconfidence, confidence_handed] at hsame
      refine ⟨fun hreaches hopen => (decided_iff hne hreaches.sided).mp ?_, fun _ => ?_⟩
      · rcases hopen with hfree | hopened
        · exact hrecommended _ ((recommended_iff hlawful).mpr ⟨⟨hreaches, hfree⟩, rfl⟩)
        · have hdecided := happroved ((approved_iff hlawful).mpr ⟨hreaches, hopened⟩)
          rwa [handed_on hlawful] at hdecided
      · rw [if_pos rfl]
        exact hsame
    · rintro ⟨hopen, hplaces⟩
      have hplaces := hplaces hne
      rw [if_pos rfl] at hplaces
      constructor
      · intro d hd
        obtain ⟨⟨hreaches, hfree⟩, rfl⟩ := (recommended_iff hlawful).mp hd
        exact (decided_iff hne hreaches.sided).mpr (hopen hreaches (.inl hfree))
      · intro happroved
        obtain ⟨hreaches, hopened⟩ := (approved_iff hlawful).mp happroved
        rw [handed_on hlawful]
        exact (decided_iff hne hreaches.sided).mpr (hopen hreaches (.inr hopened))
      · rw [hreported, hconfidence, confidence_handed]
        exact hplaces

end Gates

/-! ## The defaults -/

/-- Sums in order; the root is only of zero and of one, which are their own. -/
def inOrder : Numpy where
  sum values := values.foldl Double.add (.fin 0)
  average values weights :=
    Double.div ((List.zipWith Double.mul values weights).foldl Double.add (.fin 0))
      (weights.foldl Double.add (.fin 0))
  sqrt x := x

/-- One model, with a confidence of 0.649. -/
def oneModel : List Output := [⟨"rf", some (Double.ofRat (8245 / 10000)), some (.fin 1)⟩]

/-- A price action that blocks nothing. -/
def clearPrices : PriceAction := ⟨.fin 1, .fin 0, .fin 1, .fin 0⟩

/-- With the default band and confidence the consensus avoids, and what is recommended and approved
is to buy. -/
theorem approved_avoided :
    let result := consensus inOrder (Double.ofRat (1 / 10)) (Double.ofRat (13 / 20)) oneModel
    result.decision = .AVOID ∧
      (recommend (infer result) clearPrices (.fin 0)).recommendation = some .BUY ∧
      (validate (fun _ => "") (infer result) clearPrices none).1 = true ∧
      ¬ NeverExceeds result clearPrices (.fin 0) (fun _ => "") none := by
  intro result
  have hdecision : result.decision = .AVOID := by decide +kernel
  have hrecommended : (recommend (infer result) clearPrices (.fin 0)).recommendation = some .BUY := by
    decide +kernel
  have happroved : (validate (fun _ => "") (infer result) clearPrices none).1 = true := by
    decide +kernel
  refine ⟨hdecision, hrecommended, happroved, fun hwithin => ?_⟩
  have hbuy := hwithin.recommended .BUY hrecommended
  rw [hdecision] at hbuy
  cases hbuy

end AlgoBot.AiEngine.Consensus
