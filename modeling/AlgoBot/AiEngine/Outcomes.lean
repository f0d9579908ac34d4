import AlgoBot.Core.Double
import AlgoBot.Core.Machine
import AlgoBot.MarketData.Models

/-!
# The outcomes of predictions

`resolve_prediction_outcomes` takes the predictions that are a horizon old and
have no outcome yet, and labels each of them by the first candles stored after
it. Any number of its runs overlap, one prediction at a time, while candles come
in late, are missing or are still forming.

The age of a prediction is counted from its creation, but candles close on the
grid of their timeframe, and nothing looks at the epochs of the candles found.

* `outcomes_iff`: in every run each prediction is labelled once, by closed candles
  that follow it without a gap, and by the same label ever after, exactly if each
  turn comes after the last of these candles has closed, finds all of them stored
  and no outcome.
* `closed_of_late`: a prediction that is one more candle old has a closed horizon.
* `forming_labelled`: a label by a candle that still forms.
-/

namespace AlgoBot.AiEngine

open AlgoBot.Core AlgoBot.Python AlgoBot.MarketData

/-! ## Rows -/

/-- `payload["reference_price"]`, as `float()` finds it. -/
inductive Reference
  | absent
  /-- A `TypeError` or a `ValueError`. -/
  | refused
  | overflow
  | price (x : Double)
  deriving DecidableEq, Repr

structure Payload where
  reference_price : Reference
  model_id : Value
  model_version : Value
  model_algorithm : Value

structure Prediction where
  pk : ℕ
  symbol : String
  timeframe : String
  prediction : String
  /-- None if it is no object. -/
  payload : Option Payload
  /-- In microseconds. -/
  created_at : ℕ

inductive Direction
  | up
  | down
  | flat
  deriving DecidableEq, Repr

/-- A `PredictionOutcome`, but for the time it was written at. -/
structure Label where
  actual_direction : Direction
  actual_return : Double
  correct : Bool
  horizon_candles : ℤ
  reference_price : Double
  close : Double
  predicted_direction : Direction
  model_id : Value
  model_version : Value
  model_algorithm : Value

structure Outcome where
  label : Label
  resolved_at : ℕ

/-- Candles on the grid of their timeframe, where `persist_candles` and `bucket_epoch` put them. -/
structure CandleStore where
  candles : Candles
  aligned : ∀ bar c, candles.lookup bar = some c → bar.timeframe ≠ .tick →
    (bar.timeframe.seconds : ℤ) ∣ bar.epoch

/-- A run of the task. -/
structure Resolving where
  timeframe : Timeframe
  horizon_candles : ℤ
  todo : List Prediction

structure Research where
  now : ℕ
  markets : List MarketSymbol
  store : CandleStore
  predictions : List Prediction
  outcomes : AList fun _ : ℕ => Outcome
  runs : ℕ → Option Resolving
  /-- The predictions labelled so far, the last one first. -/
  labelled : List ℕ

/-! ## The label -/

/-- `_timeframe_storage_aliases` of a canonical timeframe. -/
def timeframe_storage_aliases : Timeframe → List String
  | .s1 => ["1s", "S1"]
  | .s5 => ["5s", "S5"]
  | .s15 => ["15s", "S15"]
  | .s30 => ["30s", "S30"]
  | .m1 => ["1m", "M1"]
  | .m2 => ["2m", "M2"]
  | .m5 => ["5m", "M5"]
  | .m10 => ["10m", "M10"]
  | .m15 => ["15m", "M15"]
  | .m30 => ["30m", "M30"]
  | .h1 => ["1h", "H1"]
  | .h4 => ["4h", "H4"]
  | .d1 => ["1d", "D1"]
  | timeframe => [timeframe.name]

/-- `int(prediction.created_at.timestamp())`. -/
def Prediction.epoch (p : Prediction) : ℤ := p.created_at / 1000000

/-- `base_close`; `none` where it raises, or where the database has no JSON for it. -/
def base_close (p : Prediction) (opening : ℚ) : Option Double :=
  match p.payload with
  | none => none
  | some payload =>
      match payload.reference_price with
      | .absent => some (Double.ofRat opening)
      | .refused => some (Double.ofRat opening)
      | .overflow => none
      | .price x => if x.isFinite then some x else none

def Direction.of (actual_return : Double) : Direction :=
  if Double.lt (.fin 0) actual_return then .up
  else if Double.lt actual_return (.fin 0) then .down
  else .flat

def predicted_direction (host : Host) (prediction : String) : Direction :=
  let predicted := upper host prediction
  if ["BUY", "LONG", "UP"].contains predicted then .up
  else if ["SELL", "SHORT", "DOWN"].contains predicted then .down
  else .flat

inductive Turn
  | skipped
  | raised
  | resolved (label : Label)

/-- The label by the candles found. -/
def label (host : Host) (horizon_candles : ℤ) (p : Prediction) (future : List (ℤ × Candle)) :
    Turn :=
  match future.head?, future.getLast?, p.payload with
  | some first, some last, some payload =>
      match base_close p first.2.opening with
      | none => .raised
      | some base =>
          let close := Double.ofRat last.2.close
          let actual_return :=
            if Double.eq base (.fin 0) then .fin 0 else Double.div (Double.sub close base) base
          let actual := Direction.of actual_return
          let predicted := predicted_direction host p.prediction
          -- the column takes no negative horizon
          if horizon_candles < 0 then .raised
          else
            .resolved
              { actual_direction := actual
                actual_return := actual_return
                correct := predicted == actual
                horizon_candles := horizon_candles
                reference_price := base
                close := close
                predicted_direction := predicted
                model_id := payload.model_id
                model_version := payload.model_version
                model_algorithm := payload.model_algorithm }
  | _, _, _ => .raised

/-- `max(1, int(horizon_candles))`. -/
def Resolving.limit (run : Resolving) : ℕ := max 1 run.horizon_candles.toNat

/-- `future`, unless the market is unknown. -/
def future (host : Host) (s : Research) (run : Resolving) (p : Prediction) :
    Option (List (ℤ × Candle)) :=
  (market host s.markets p.symbol).bind fun row =>
    next_candles host s.markets s.store.candles row.symbol run.timeframe p.epoch run.limit

/-- The body of the loop over `pending`. -/
def turn (host : Host) (s : Research) (run : Resolving) (p : Prediction) : Turn :=
  match future host s run p with
  | none => .skipped
  | some future =>
      if (future.length : ℤ) < run.horizon_candles then .skipped
      else label host run.horizon_candles p future

/-! ## The task -/

/-- `pending`. -/
def pending (s : Research) (timeframe : Timeframe) (horizon_candles : ℤ) (batch_size : ℕ) :
    List Prediction :=
  let seconds := max 1 timeframe.seconds
  ((s.predictions.filter fun p =>
      (timeframe_storage_aliases timeframe).contains p.timeframe &&
        p.created_at + 1000000 * (seconds * max 1 horizon_candles.toNat) ≤ s.now &&
        (s.outcomes.lookup p.pk).isNone).insertionSort
    fun p q => p.created_at ≤ q.created_at).take batch_size

inductive ResearchAction
  | wait (microseconds : ℕ)
  /-- Anything that writes candles or the catalogue. -/
  | ingest (markets : List MarketSymbol) (store : CandleStore)
  | predict (p : Prediction)
  | start (i : ℕ) (timeframe : String) (horizon_candles : ℤ) (batch_size : ℕ)
  /-- Run `i` comes to its next prediction, or ends. -/
  | advance (i : ℕ)

namespace Research

def setRun (s : Research) (i : ℕ) (run : Option Resolving) : Research :=
  { s with runs := fun j => if j = i then run else s.runs j }

/-- `update_or_create`. -/
def write (s : Research) (pk : ℕ) (label : Label) : Research :=
  { s with
    outcomes := s.outcomes.insert pk ⟨label, s.now⟩
    labelled := pk :: s.labelled }

def next (host : Host) (s : Research) : ResearchAction → Option Research
  | .wait microseconds => some { s with now := s.now + microseconds }
  | .ingest markets store => some { s with markets := markets, store := store }
  | .predict p =>
      if s.predictions.any fun q => q.pk = p.pk then none
      else some { s with predictions := { p with created_at := s.now } :: s.predictions }
  | .start i timeframe horizon_candles batch_size =>
      match s.runs i, MarketData.normalize_timeframe host timeframe with
      | some _, _ => none
      | none, none => none
      | none, some .tick => none
      | none, some timeframe =>
          some (s.setRun i (some ⟨timeframe, horizon_candles,
            pending s timeframe horizon_candles batch_size⟩))
  | .advance i =>
      match s.runs i with
      | none => none
      | some run =>
          match run.todo with
          | [] => some (s.setRun i none)
          | p :: rest =>
              match turn host s run p with
              | .skipped => some (s.setRun i (some { run with todo := rest }))
              | .raised => some (s.setRun i none)
              | .resolved label =>
                  some ((s.write p.pk label).setRun i (some { run with todo := rest }))

end Research

def research (host : Host) : Machine Research ResearchAction where
  next := Research.next host

/-! ## What the claim asks -/

/-- The epoch of the first candle after the prediction. -/
def Prediction.next (p : Prediction) (timeframe : Timeframe) : ℤ :=
  (p.epoch / timeframe.seconds + 1) * timeframe.seconds

/-- The epochs of the candles of the timeframe that follow the prediction. -/
def Prediction.grid (p : Prediction) (timeframe : Timeframe) (n : ℕ) : List ℤ :=
  (List.range n).map fun i : ℕ => p.next timeframe + i * timeframe.seconds

/-- The candle of this epoch has closed. -/
def Closed (now : ℕ) (timeframe : Timeframe) (epoch : ℤ) : Prop :=
  1000000 * (epoch + timeframe.seconds) ≤ now

instance (now : ℕ) (timeframe : Timeframe) (epoch : ℤ) : Decidable (Closed now timeframe epoch) :=
  inferInstanceAs (Decidable (_ ≤ _))

/-- What a later run may find: candles that had closed are as they were. -/
structure Later (s t : Research) : Prop where
  now : s.now ≤ t.now
  markets : t.markets = s.markets
  closed : ∀ bar c, s.store.candles.lookup bar = some c →
    broker_sourced bar.timeframe c = true → Closed s.now bar.timeframe bar.epoch →
    t.store.candles.lookup bar = some c

/-- The prediction is labelled by the candles that follow it without a gap, each of them closed, and
a later run would label it the same. -/
structure Sound (host : Host) (s : Research) (run : Resolving) (p : Prediction) (label : Label) :
    Prop where
  consecutive : ∀ found, future host s run p = some found →
    found.map (·.1) = p.grid run.timeframe run.limit
  closed : ∀ found, future host s run p = some found → ∀ row ∈ found,
    Closed s.now run.timeframe row.1
  stable : ∀ t, Later s t → turn host t run p = .resolved label

/-- Where the step labels a prediction, it does so soundly. -/
def Labels (host : Host) (s : Research) : ResearchAction → Prop
  | .advance i => ∀ run p rest label, s.runs i = some run → run.todo = p :: rest →
      turn host s run p = .resolved label → Sound host s run p label
  | _ => True

/-- Each prediction is labelled at most once. -/
def LabelledOnce (s : Research) : Prop := s.labelled.Nodup

/-- The payload of the prediction gives a reference price that can be stored, or leaves it to the
first candle. -/
def Prediction.readable (p : Prediction) : Bool :=
  p.payload.any fun payload =>
    match payload.reference_price with
    | .overflow => false
    | .price x => x.isFinite
    | _ => true

/-- All candles of the horizon are stored, the last of them has closed, and no other run has written
an outcome. -/
structure Ripe (host : Host) (s : Research) (run : Resolving) (p : Prediction)
    (row : MarketSymbol) :
    Prop where
  stored : ∀ e ∈ p.grid run.timeframe run.limit, ∃ c,
    s.store.candles.lookup ⟨row.pk, run.timeframe, e⟩ = some c ∧
      broker_sourced run.timeframe c = true
  closed : 1000000 * (p.next run.timeframe + run.limit * run.timeframe.seconds) ≤ s.now
  fresh : s.outcomes.lookup p.pk = none

/-- Where a run comes to a prediction with enough candles after it, the prediction is ripe. -/
def Waits (host : Host) (s : Research) : ResearchAction → Prop
  | .advance i => ∀ run p rest row row', s.runs i = some run → run.todo = p :: rest →
      market host s.markets p.symbol = some row → market host s.markets row.symbol = some row' →
      0 ≤ run.horizon_candles → p.readable = true → run.limit ≤ 10000 →
      run.limit ≤ (after s.store.candles row'.pk run.timeframe p.epoch).length →
      Ripe host s run p row'
  | _ => True

/-! ## Windows -/

/-- A strictly increasing list of grid points starts with the first `n` of them exactly if it has
them. -/
theorem take_eq_grid {l : List ℤ} {g step : ℤ} (hstep : 0 < step) (n : ℕ)
    (hsorted : l.Pairwise (· < ·)) (hgrid : ∀ e ∈ l, ∃ k : ℕ, e = g + k * step) :
    l.take n = (List.range n).map (fun i : ℕ => g + i * step) ↔
      ∀ i : ℕ, i < n → g + i * step ∈ l := by
  constructor
  · intro htake i hi
    apply List.mem_of_mem_take
    rw [htake]
    exact List.mem_map.mpr ⟨i, List.mem_range.mpr hi, rfl⟩
  · intro hall
    induction n generalizing l g with
    | zero => rfl
    | succ n ih =>
      cases l with
      | nil => exact absurd (hall 0 n.succ_pos) List.not_mem_nil
      | cons e l =>
        rw [List.pairwise_cons] at hsorted
        -- the first point is the smallest, so it stands first
        have hhead : e = g := by
          obtain ⟨k, hk⟩ := hgrid e List.mem_cons_self
          have hle : g ≤ e := by
            have hnonneg : 0 ≤ (k : ℤ) * step := Int.mul_nonneg (Int.natCast_nonneg k) hstep.le
            omega
          have hfirst := hall 0 n.succ_pos
          rcases List.mem_cons.mp hfirst with heq | hmem
          · simpa using heq.symm
          · have hlt := hsorted.1 _ hmem
            simp only [Nat.cast_zero, zero_mul, add_zero] at hlt
            omega
        subst hhead
        have hrest : ∀ e' ∈ l, ∃ k : ℕ, e' = e + step + k * step := by
          intro e' hmem
          obtain ⟨k, hk⟩ := hgrid e' (List.mem_cons_of_mem _ hmem)
          have hlt := hsorted.1 e' hmem
          cases k with
          | zero => simp [hk] at hlt
          | succ k => exact ⟨k, by rw [hk]; push_cast; ring⟩
        have hshift : ∀ i : ℕ, e + ((i + 1 : ℕ) : ℤ) * step = e + step + i * step := by
          intro i
          push_cast
          ring
        have hmem : ∀ i : ℕ, i < n → e + step + i * step ∈ l := by
          intro i hi
          have h := hall (i + 1) (Nat.succ_lt_succ hi)
          rw [hshift] at h
          rcases List.mem_cons.mp h with heq | hmem
          · have hpos : 0 ≤ (i : ℤ) * step := Int.mul_nonneg (Int.natCast_nonneg i) hstep.le
            omega
          · exact hmem
        rw [List.take_succ_cons, ih hsorted.2 hrest hmem, List.range_succ_eq_map, List.map_cons,
          List.map_map]
        refine congrArg₂ List.cons (by simp) (List.map_congr_left fun i _ => ?_)
        exact (hshift i).symm

variable {host : Host} {s t : Research} {run : Resolving} {p : Prediction} {row row' : MarketSymbol}
  {found : List (ℤ × Candle)} {n : ℕ} {e : ℤ} {c : Candle} {timeframe : Timeframe}

theorem seconds_pos (h : timeframe ≠ .tick) : (0 : ℤ) < timeframe.seconds := by
  cases timeframe <;> first | exact absurd rfl h | decide

theorem mem_grid :
    e ∈ p.grid timeframe n ↔ ∃ i : ℕ, i < n ∧ e = p.next timeframe + i * timeframe.seconds := by
  simp [Prediction.grid, eq_comm]

/-- A stored candle after the prediction is one of the grid. -/
theorem grid_of_after (htimeframe : timeframe ≠ .tick)
    (hmem : (e, c) ∈ after s.store.candles row.pk timeframe p.epoch) :
    ∃ k : ℕ, e = p.next timeframe + k * timeframe.seconds := by
  obtain ⟨hlookup, hafter, _⟩ := mem_after.mp hmem
  obtain ⟨m, hm⟩ := s.store.aligned _ c hlookup htimeframe
  have hpos := seconds_pos htimeframe
  have hm' : e = timeframe.seconds * m := hm
  have hlt : p.epoch / timeframe.seconds < m := by
    rw [hm', mul_comm] at hafter
    exact Int.ediv_lt_of_lt_mul hpos hafter
  refine ⟨(m - (p.epoch / timeframe.seconds + 1)).toNat, ?_⟩
  have hnonneg : 0 ≤ m - (p.epoch / timeframe.seconds + 1) := by omega
  rw [Int.toNat_of_nonneg hnonneg, hm', Prediction.next]
  ring

/-- The candles found are those of the grid exactly if these are stored. -/
theorem found_iff (htimeframe : timeframe ≠ .tick) :
    ((after s.store.candles row.pk timeframe p.epoch).take n).map (·.1) = p.grid timeframe n ↔
      ∀ e ∈ p.grid timeframe n, ∃ c, s.store.candles.lookup ⟨row.pk, timeframe, e⟩ = some c ∧
        broker_sourced timeframe c = true := by
  have hsorted : ((after s.store.candles row.pk timeframe p.epoch).map (·.1)).Pairwise (· < ·) :=
    List.pairwise_map.mpr pairwise_after
  have hgrid : ∀ e ∈ (after s.store.candles row.pk timeframe p.epoch).map (·.1), ∃ k : ℕ,
      e = p.next timeframe + k * timeframe.seconds := by
    intro e he
    obtain ⟨⟨e', c⟩, hmem, rfl⟩ := List.mem_map.mp he
    exact grid_of_after htimeframe hmem
  rw [List.map_take, Prediction.grid, take_eq_grid (seconds_pos htimeframe) n hsorted hgrid]
  constructor
  · intro hall e he
    obtain ⟨i, hi, rfl⟩ := mem_grid.mp he
    obtain ⟨⟨e', c⟩, hmem, heq⟩ := List.mem_map.mp (hall i hi)
    obtain ⟨hlookup, _, hsource⟩ := mem_after.mp hmem
    exact ⟨c, by rw [← heq]; exact hlookup, hsource⟩
  · intro hall i hi
    obtain ⟨c, hlookup, hsource⟩ := hall _ (mem_grid.mpr ⟨i, hi, rfl⟩)
    refine List.mem_map.mpr ⟨(_, c), mem_after.mpr ⟨hlookup, ?_, hsource⟩, rfl⟩
    have hpos := seconds_pos htimeframe
    have hnext : p.epoch < p.next timeframe := Int.lt_ediv_add_one_mul_self p.epoch hpos
    have hnonneg : 0 ≤ (i : ℤ) * timeframe.seconds := Int.mul_nonneg (Int.natCast_nonneg i) hpos.le
    omega

/-- The candles of the grid have closed exactly if the last one has. -/
theorem closed_grid_iff (now : ℕ) (htimeframe : timeframe ≠ .tick) (hn : 0 < n) :
    (∀ e ∈ p.grid timeframe n, Closed now timeframe e) ↔
      1000000 * (p.next timeframe + n * timeframe.seconds) ≤ now := by
  have hpos := seconds_pos htimeframe
  constructor
  · intro hall
    have hlast := hall _ (mem_grid.mpr ⟨n - 1, by omega, rfl⟩)
    have hcast : ((n - 1 : ℕ) : ℤ) = n - 1 := by omega
    rw [Closed, hcast] at hlast
    refine le_trans (le_of_eq ?_) hlast
    ring
  · intro hlast e he
    obtain ⟨i, hi, rfl⟩ := mem_grid.mp he
    have hi' : (i : ℤ) + 1 ≤ n := by omega
    have hle : ((i : ℤ) + 1) * timeframe.seconds ≤ n * timeframe.seconds :=
      Int.mul_le_mul_of_nonneg_right hi' hpos.le
    rw [Closed]
    linarith

/-! ## A turn -/

theorem base_close_isSome (p : Prediction) (opening : ℚ) :
    (base_close p opening).isSome = p.readable := by
  unfold base_close Prediction.readable
  cases p.payload with
  | none => rfl
  | some payload =>
    cases h : payload.reference_price with
    | price x => cases hx : x.isFinite <;> simp [h, hx]
    | _ => simp [h]

/-- Candles give a label if there are any and the prediction can be read. -/
theorem label_resolved_iff {horizon : ℤ} :
    (∃ l, label host horizon p found = .resolved l) ↔
      found ≠ [] ∧ 0 ≤ horizon ∧ p.readable = true := by
  cases found with
  | nil => simp [label]
  | cons first rest =>
    obtain ⟨last, hlast⟩ : ∃ last, (first :: rest).getLast? = some last :=
      ⟨_, List.getLast?_eq_some_getLast (List.cons_ne_nil first rest)⟩
    rw [← base_close_isSome p first.2.opening]
    simp only [label, List.head?_cons, hlast]
    cases hpayload : p.payload with
    | none => simp [base_close, hpayload]
    | some payload =>
      cases hbase : base_close p first.2.opening with
      | none => simp [hbase]
      | some base =>
        by_cases hneg : horizon < 0
        · simp [hbase, hneg]
        · simp [hbase, hneg, not_lt.mp hneg]

theorem limit_pos (run : Resolving) : 0 < run.limit := by
  unfold Resolving.limit
  omega

/-- The candles a run finds. -/
theorem future_eq_some : future host s run p = some found ↔
    ∃ row row', market host s.markets p.symbol = some row ∧
      market host s.markets row.symbol = some row' ∧
      found = (after s.store.candles row'.pk run.timeframe p.epoch).take (min run.limit 10000) := by
  have hmax : max run.limit 1 = run.limit := by
    have := limit_pos run
    omega
  simp only [future, next_candles, Option.bind_eq_some_iff, Option.map_eq_some_iff, hmax]
  constructor
  · rintro ⟨row, hrow, row', hrow', rfl⟩
    exact ⟨row, row', hrow, hrow', rfl⟩
  · rintro ⟨row, row', hrow, hrow', rfl⟩
    exact ⟨row, hrow, row', hrow', rfl⟩

theorem turn_resolved_iff {l : Label} : turn host s run p = .resolved l ↔
    ∃ found, future host s run p = some found ∧ run.limit ≤ found.length ∧
      label host run.horizon_candles p found = .resolved l := by
  unfold turn
  cases hfuture : future host s run p with
  | none => simp
  | some found =>
    simp only [Option.some.injEq, exists_eq_left']
    constructor
    · intro h
      split at h
      · cases h
      · next hlength =>
        have hne := (label_resolved_iff.mp ⟨l, h⟩).1
        have hpos := List.length_pos_iff.mpr hne
        refine ⟨?_, h⟩
        unfold Resolving.limit
        omega
    · rintro ⟨hlimit, hlabel⟩
      have hnot : ¬ (found.length : ℤ) < run.horizon_candles := by
        unfold Resolving.limit at hlimit
        omega
      rw [if_neg hnot]
      exact hlabel

/-- A turn labels a readable prediction of a market with enough candles after it. -/
theorem turn_labels_iff : (∃ l, turn host s run p = .resolved l) ↔
    ∃ row row', market host s.markets p.symbol = some row ∧
      market host s.markets row.symbol = some row' ∧ 0 ≤ run.horizon_candles ∧
      p.readable = true ∧ run.limit ≤ 10000 ∧
      run.limit ≤ (after s.store.candles row'.pk run.timeframe p.epoch).length := by
  simp only [turn_resolved_iff, future_eq_some]
  constructor
  · rintro ⟨l, found, ⟨row, row', hrow, hrow', rfl⟩, hlimit, hlabel⟩
    obtain ⟨_, hhorizon, hreadable⟩ := label_resolved_iff.mp ⟨l, hlabel⟩
    rw [List.length_take] at hlimit
    exact ⟨row, row', hrow, hrow', hhorizon, hreadable, by omega, by omega⟩
  · rintro ⟨row, row', hrow, hrow', hhorizon, hreadable, hbound, hlength⟩
    have hpos := limit_pos run
    have hne : (after s.store.candles row'.pk run.timeframe p.epoch).take (min run.limit 10000) ≠
        [] := by
      apply List.ne_nil_of_length_pos
      rw [List.length_take]
      omega
    obtain ⟨l, hl⟩ := label_resolved_iff.mpr ⟨hne, hhorizon, hreadable⟩
    refine ⟨l, _, ⟨row, row', hrow, hrow', rfl⟩, ?_, hl⟩
    rw [List.length_take]
    omega

/-- Rows that are looked up at the same epochs are the same. -/
theorem eq_of_lookup {f : ℤ → Option Candle} {xs ys : List (ℤ × Candle)}
    (hxs : ∀ x ∈ xs, f x.1 = some x.2) (hys : ∀ y ∈ ys, f y.1 = some y.2)
    (hepochs : xs.map (·.1) = ys.map (·.1)) : xs = ys := by
  induction xs generalizing ys with
  | nil => exact (List.map_eq_nil_iff.mp hepochs.symm).symm
  | cons x xs ih =>
    cases ys with
    | nil => cases hepochs
    | cons y ys =>
      rw [List.map_cons, List.map_cons] at hepochs
      obtain ⟨hhead, htail⟩ := List.cons.inj hepochs
      have hx := hxs x List.mem_cons_self
      have hy := hys y List.mem_cons_self
      have hsame : x = y := by
        rw [hhead, hy] at hx
        exact Prod.ext hhead (Option.some.inj hx).symm
      rw [hsame, ih (fun x hx => hxs x (List.mem_cons_of_mem _ hx))
        (fun y hy => hys y (List.mem_cons_of_mem _ hy)) htail]

/-- Closed candles that follow the prediction without a gap are what a later run finds. -/
theorem found_later (htimeframe : run.timeframe ≠ .tick) (hlater : Later s t)
    (hstored : ∀ e ∈ p.grid run.timeframe n, ∃ c,
      s.store.candles.lookup ⟨row.pk, run.timeframe, e⟩ = some c ∧
        broker_sourced run.timeframe c = true)
    (hclosed : ∀ e ∈ p.grid run.timeframe n, Closed s.now run.timeframe e) :
    (after t.store.candles row.pk run.timeframe p.epoch).take n =
      (after s.store.candles row.pk run.timeframe p.epoch).take n := by
  have hkept : ∀ e ∈ p.grid run.timeframe n, ∀ c,
      s.store.candles.lookup ⟨row.pk, run.timeframe, e⟩ = some c →
      broker_sourced run.timeframe c = true →
      t.store.candles.lookup ⟨row.pk, run.timeframe, e⟩ = some c :=
    fun e he c hlookup hsource => hlater.closed _ c hlookup hsource (hclosed e he)
  have hstored' : ∀ e ∈ p.grid run.timeframe n, ∃ c,
      t.store.candles.lookup ⟨row.pk, run.timeframe, e⟩ = some c ∧
        broker_sourced run.timeframe c = true := by
    intro e he
    obtain ⟨c, hlookup, hsource⟩ := hstored e he
    exact ⟨c, hkept e he c hlookup hsource, hsource⟩
  have hs := (found_iff htimeframe).mpr hstored
  have ht := (found_iff htimeframe).mpr hstored'
  apply eq_of_lookup (f := fun e => t.store.candles.lookup ⟨row.pk, run.timeframe, e⟩)
  · intro x hx
    exact (mem_after.mp (List.mem_of_mem_take hx)).1
  · intro x hx
    obtain ⟨hlookup, _, hsource⟩ := mem_after.mp (List.mem_of_mem_take hx)
    have hgrid : x.1 ∈ p.grid run.timeframe n := by
      rw [← hs]
      exact List.mem_map_of_mem hx
    exact hkept x.1 hgrid x.2 hlookup hsource
  · rw [hs, ht]

/-- A label is sound exactly if all candles of the horizon are stored and the last one has
closed. -/
theorem sound_iff {l : Label} (htimeframe : run.timeframe ≠ .tick)
    (hrow : market host s.markets p.symbol = some row)
    (hrow' : market host s.markets row.symbol = some row') (hbound : run.limit ≤ 10000)
    (hturn : turn host s run p = .resolved l) :
    Sound host s run p l ↔
      (∀ e ∈ p.grid run.timeframe run.limit, ∃ c,
        s.store.candles.lookup ⟨row'.pk, run.timeframe, e⟩ = some c ∧
          broker_sourced run.timeframe c = true) ∧
      1000000 * (p.next run.timeframe + run.limit * run.timeframe.seconds) ≤ s.now := by
  have hmin : min run.limit 10000 = run.limit := by omega
  have hfuture : future host s run p =
      some ((after s.store.candles row'.pk run.timeframe p.epoch).take run.limit) :=
    future_eq_some.mpr ⟨row, row', hrow, hrow', by rw [hmin]⟩
  rw [← closed_grid_iff s.now htimeframe (limit_pos run)]
  constructor
  · intro h
    have hgrid := h.consecutive _ hfuture
    refine ⟨(found_iff htimeframe).mp hgrid, fun e he => ?_⟩
    rw [← hgrid] at he
    obtain ⟨x, hx, rfl⟩ := List.mem_map.mp he
    exact h.closed _ hfuture x hx
  · rintro ⟨hstored, hclosed⟩
    have hgrid := (found_iff htimeframe).mpr hstored
    constructor
    · intro found hfound
      rw [hfuture] at hfound
      cases hfound
      exact hgrid
    · intro found hfound x hx
      rw [hfuture] at hfound
      cases hfound
      apply hclosed
      rw [← hgrid]
      exact List.mem_map_of_mem hx
    · intro t hlater
      obtain ⟨found, hfound, hlength, hlabel⟩ := turn_resolved_iff.mp hturn
      rw [hfuture] at hfound
      cases hfound
      refine turn_resolved_iff.mpr ⟨_, ?_, hlength, hlabel⟩
      rw [← found_later htimeframe hlater hstored hclosed]
      refine future_eq_some.mpr ⟨row, row', ?_, ?_, by rw [hmin]⟩
      · rw [hlater.markets]
        exact hrow
      · rw [hlater.markets]
        exact hrow'

/-! ## Runs -/

/-- Runs have a timeframe of candles, and what is labelled has an outcome. -/
structure ResearchInv (s : Research) : Prop where
  timeframe : ∀ i run, s.runs i = some run → run.timeframe ≠ .tick
  outcome : ∀ pk, pk ∈ s.labelled ↔ s.outcomes.lookup pk ≠ none

variable {s' : Research} {a : ResearchAction} {as : List ResearchAction} {i : ℕ}

theorem setRun_runs (s : Research) (i : ℕ) (run : Option Resolving) (j : ℕ) :
    (s.setRun i run).runs j = if j = i then run else s.runs j := rfl

theorem ResearchInv.setRun (h : ResearchInv s) {run : Option Resolving}
    (hrun : ∀ r, run = some r → r.timeframe ≠ .tick) : ResearchInv (s.setRun i run) where
  timeframe j r hr := by
    rw [setRun_runs] at hr
    split at hr
    · exact hrun r hr
    · exact h.timeframe j r hr
  outcome := h.outcome

theorem ResearchInv.write (h : ResearchInv s) (pk : ℕ) (label : Label) :
    ResearchInv (s.write pk label) where
  timeframe := h.timeframe
  outcome pk' := by
    show pk' ∈ pk :: s.labelled ↔ (s.outcomes.insert pk ⟨label, s.now⟩).lookup pk' ≠ none
    rw [List.mem_cons, h.outcome pk']
    by_cases hpk : pk' = pk
    · simp [hpk]
    · simp [hpk]

theorem next_inv (h : ResearchInv s) (hnext : (research host).next s a = some s') :
    ResearchInv s' := by
  cases a with
  | wait microseconds =>
    cases hnext
    exact ⟨h.timeframe, h.outcome⟩
  | ingest markets store =>
    cases hnext
    exact ⟨h.timeframe, h.outcome⟩
  | predict p =>
    simp only [research, Research.next] at hnext
    split at hnext
    · cases hnext
    · cases hnext
      exact ⟨h.timeframe, h.outcome⟩
  | start i timeframe horizon_candles batch_size =>
    simp only [research, Research.next] at hnext
    split at hnext
    · cases hnext
    · cases hnext
    · cases hnext
    · next hnot _ _ =>
      cases hnext
      refine h.setRun fun r hr => ?_
      cases hr
      exact hnot
  | advance i =>
    simp only [research, Research.next] at hnext
    split at hnext
    · cases hnext
    · next run hrun =>
      have htimeframe := h.timeframe i run hrun
      split at hnext
      · cases hnext
        exact h.setRun fun r hr => by cases hr
      · next p rest htodo =>
        split at hnext
        · cases hnext
          exact h.setRun fun r hr => by cases hr; exact htimeframe
        · cases hnext
          exact h.setRun fun r hr => by cases hr
        · next label _ =>
          cases hnext
          exact (h.write p.pk label).setRun fun r hr => by cases hr; exact htimeframe

/-- A step labels nothing, or the prediction a run comes to. -/
theorem next_labelled (hnext : (research host).next s a = some s') :
    (s'.labelled = s.labelled ∧ ∀ i run p rest, a = .advance i → s.runs i = some run →
        run.todo = p :: rest → ∀ l, turn host s run p ≠ .resolved l) ∨
      ∃ i run p rest l, a = .advance i ∧ s.runs i = some run ∧ run.todo = p :: rest ∧
        turn host s run p = .resolved l ∧ s'.labelled = p.pk :: s.labelled := by
  cases a with
  | advance i =>
    simp only [research, Research.next] at hnext
    split at hnext
    · cases hnext
    · next run hrun =>
      split at hnext
      · next htodo =>
        cases hnext
        refine Or.inl ⟨rfl, ?_⟩
        intro j run' p rest hj hrun' htodo'
        cases hj
        rw [hrun] at hrun'
        cases hrun'
        rw [htodo] at htodo'
        cases htodo'
      · next p rest htodo =>
        have hother : ∀ {r}, turn host s run p = r → (∀ l, r ≠ .resolved l) →
            ∀ j run' p' rest', ResearchAction.advance i = .advance j → s.runs j = some run' →
              run'.todo = p' :: rest' → ∀ l, turn host s run' p' ≠ .resolved l := by
          intro r hturn hr j run' p' rest' hj hrun' htodo' l hl
          cases hj
          rw [hrun] at hrun'
          cases hrun'
          rw [htodo] at htodo'
          cases htodo'
          exact hr l (hturn.symm.trans hl)
        split at hnext
        · next hturn =>
          cases hnext
          exact Or.inl ⟨rfl, hother hturn fun l hl => by cases hl⟩
        · next hturn =>
          cases hnext
          exact Or.inl ⟨rfl, hother hturn fun l hl => by cases hl⟩
        · next l hturn =>
          cases hnext
          exact Or.inr ⟨i, run, p, rest, l, rfl, hrun, htodo, hturn, rfl⟩
  | wait microseconds =>
    cases hnext
    exact Or.inl ⟨rfl, fun i run p rest hi => by cases hi⟩
  | ingest markets store =>
    cases hnext
    exact Or.inl ⟨rfl, fun i run p rest hi => by cases hi⟩
  | predict p =>
    simp only [research, Research.next] at hnext
    split at hnext
    · cases hnext
    · cases hnext
      exact Or.inl ⟨rfl, fun i run p rest hi => by cases hi⟩
  | start i timeframe horizon_candles batch_size =>
    simp only [research, Research.next] at hnext
    split at hnext
    · cases hnext
    · cases hnext
    · cases hnext
    · cases hnext
      exact Or.inl ⟨rfl, fun i run p rest hi => by cases hi⟩

/-- One step labels once and soundly exactly if it waits for its candles. -/
theorem waits_iff (h : ResearchInv s) (honce : LabelledOnce s)
    (hnext : (research host).next s a = some s') :
    LabelledOnce s' ∧ Labels host s a ↔ Waits host s a := by
  rcases next_labelled hnext with ⟨hsame, hnone⟩ |
      ⟨i, run, p, rest, l, rfl, hrun, htodo, hturn, hlabelled⟩
  · have hone : LabelledOnce s' := by
      rw [LabelledOnce, hsame]
      exact honce
    cases a with
    | advance i =>
      constructor
      · intro _ run p rest row row' hrun htodo hrow hrow' hhorizon hreadable hbound hlength
        obtain ⟨l, hl⟩ := turn_labels_iff.mpr
          ⟨row, row', hrow, hrow', hhorizon, hreadable, hbound, hlength⟩
        exact absurd hl (hnone i run p rest rfl hrun htodo l)
      · intro _
        refine ⟨hone, fun run p rest l hrun htodo hturn => ?_⟩
        exact absurd hturn (hnone i run p rest rfl hrun htodo l)
    | _ => exact ⟨fun _ => trivial, fun _ => ⟨hone, trivial⟩⟩
  · have htimeframe := h.timeframe i run hrun
    obtain ⟨row, row', hrow, hrow', hhorizon, hreadable, hbound, hlength⟩ :=
      turn_labels_iff.mp ⟨l, hturn⟩
    have hsound := sound_iff htimeframe hrow hrow' hbound hturn
    have hfresh : LabelledOnce s' ↔ s.outcomes.lookup p.pk = none := by
      rw [LabelledOnce, hlabelled, List.nodup_cons, h.outcome p.pk, not_not]
      exact and_iff_left honce
    rw [hfresh]
    constructor
    · rintro ⟨hnone, hlabels⟩ run' p' rest' r r' hrun' htodo' hr hr' _ _ _ _
      rw [hrun] at hrun'
      cases hrun'
      rw [htodo] at htodo'
      cases htodo'
      rw [hrow] at hr
      cases hr
      rw [hrow'] at hr'
      cases hr'
      obtain ⟨hstored, hclosed⟩ := hsound.mp (hlabels run p rest l hrun htodo hturn)
      exact ⟨hstored, hclosed, hnone⟩
    · intro hwaits
      have hripe :=
        hwaits run p rest row row' hrun htodo hrow hrow' hhorizon hreadable hbound hlength
      refine ⟨hripe.fresh, fun run' p' rest' l' hrun' htodo' hturn' => ?_⟩
      rw [hrun] at hrun'
      cases hrun'
      rw [htodo] at htodo'
      cases htodo'
      rw [hturn] at hturn'
      cases hturn'
      exact hsound.mpr ⟨hripe.stored, hripe.closed⟩

theorem outcomes_iff (hinv : ResearchInv s) (honce : LabelledOnce s)
    (hrun : (research host).Run s as t) :
    Machine.RunIf.Always (research host) LabelledOnce s as ∧
        (research host).RunIf (Labels host) s as t ↔
      (research host).RunIf (Waits host) s as t := by
  have hkeep : ∀ s a s', ResearchInv s → (research host).next s a = some s' → ResearchInv s' :=
    fun s a s' hs hn => next_inv hs hn
  have hstep : ∀ s a s', ResearchInv s → LabelledOnce s → (research host).next s a = some s' →
      (LabelledOnce s' ∧ Labels host s a ↔ Waits host s a) :=
    fun s a s' hs hp hn => waits_iff hs hp hn
  rw [Machine.RunIf.always_and_iff hkeep hstep hrun hinv]
  exact and_iff_right honce

/-! ### A candle that still forms -/

def r75 : MarketSymbol := ⟨1, "R_75", true, true⟩

/-- Nothing predicted yet, ten seconds after a minute has begun. -/
def unresearched : Research where
  now := 1700000050000000
  markets := [r75]
  store := ⟨∅, fun _ _ h => by cases h⟩
  predictions := []
  outcomes := ∅
  runs _ := none
  labelled := []

theorem researchInv_unresearched : ResearchInv unresearched where
  timeframe i run h := by cases h
  outcome pk := by simp [unresearched]

/-- The candle of the next minute. -/
def minute (close : ℚ) : CandleStore where
  candles := AList.insert ⟨1, .m1, 1700000100⟩ ⟨100, 101, 99, close, 0, .connected_broker⟩ ∅
  aligned bar c h _ := by
    by_cases hbar : bar = ⟨1, .m1, 1700000100⟩
    · rw [hbar]
      decide
    · rw [AList.lookup_insert_ne hbar] at h
      cases h

def buy : Prediction where
  pk := 1
  symbol := "R_75"
  timeframe := "M1"
  prediction := "BUY"
  payload := some ⟨.price (.fin 100), .int 1, .str "20250101000000", .str "rf"⟩
  created_at := 0

/-- The task starts so long after the prediction. -/
def startedAfter (microseconds : ℕ) : List ResearchAction :=
  [.predict buy, .wait microseconds, .ingest [r75] (minute 101), .start 0 "M1" 1 500]

/-- The minute after the prediction has ten seconds to go. -/
theorem forming_labelled :
    ¬ ∃ t, (research .ascii).RunIf (Labels .ascii) unresearched
      (startedAfter 100000000 ++ [.advance 0]) t := by
  rintro ⟨t, ht⟩
  have hexec : ((research .ascii).exec unresearched (startedAfter 100000000)).any
      (fun u => (u.runs 0).any fun run =>
        match run.todo with
        | [] => false
        | p :: _ =>
            (match turn .ascii u run p with
              | .resolved _ => true
              | _ => false) &&
            (future .ascii u run p).any fun found => found.any fun row =>
              !decide (Closed u.now run.timeframe row.1)) = true := by
    decide +kernel
  obtain ⟨u, hu, hrun⟩ := (Option.any_eq_true _ _).mp hexec
  obtain ⟨run, hrun, hturn⟩ := (Option.any_eq_true _ _).mp hrun
  have hlabels := ht.guard_of_exec hu
  cases htodo : run.todo with
  | nil => simp [htodo] at hturn
  | cons p rest =>
    rw [htodo] at hturn
    obtain ⟨hresolved, hfound⟩ := Bool.and_eq_true_iff.mp hturn
    obtain ⟨found, hfound, hforming⟩ := (Option.any_eq_true _ _).mp hfound
    obtain ⟨row, hrow, hopen⟩ := List.any_eq_true.mp hforming
    cases hl : turn Host.ascii u run p with
    | resolved l =>
      have hclosed := (hlabels run p rest l hrun htodo hl).closed found hfound row hrow
      simp [hclosed] at hopen
    | _ => simp [hl] at hresolved

/-- The prediction a run comes to is ripe. -/
def ripe (host : Host) (s : Research) : ResearchAction → Bool
  | .advance i =>
      match s.runs i with
      | none => false
      | some run =>
          match run.todo with
          | [] => false
          | p :: _ =>
              (((market host s.markets p.symbol).bind fun row =>
                market host s.markets row.symbol).all fun row =>
                  (p.grid run.timeframe run.limit).all fun e =>
                    (s.store.candles.lookup ⟨row.pk, run.timeframe, e⟩).any
                      (broker_sourced run.timeframe)) &&
              decide (1000000 * (p.next run.timeframe + run.limit * run.timeframe.seconds) ≤ s.now) &&
              (s.outcomes.lookup p.pk).isNone
  | _ => true

theorem waits_of_ripe (h : ripe host s a = true) : Waits host s a := by
  cases a with
  | advance i =>
    intro run p rest row row' hrun htodo hrow hrow' _ _ _ _
    simp only [ripe, hrun, htodo, hrow, hrow', Option.bind_some, Option.all_some,
      Bool.and_eq_true, decide_eq_true_eq, Option.isNone_iff_eq_none, List.all_eq_true] at h
    obtain ⟨⟨hstored, hclosed⟩, hfresh⟩ := h
    refine ⟨fun e he => ?_, hclosed, hfresh⟩
    exact (Option.any_eq_true _ _).mp (hstored e he)
  | _ => exact trivial

/-- Ten seconds later the candle has closed. -/
theorem closed_labelled :
    ∃ t, (research .ascii).RunIf (Labels .ascii) unresearched
      (startedAfter 110000000 ++ [.advance 0]) t := by
  have hsome : ((research .ascii).execIf (fun s a => ripe .ascii s a = true) unresearched
      (startedAfter 110000000 ++ [.advance 0])).isSome = true := by
    decide +kernel
  obtain ⟨t, ht⟩ := Machine.exists_runIf hsome
  exact ⟨t, ((outcomes_iff researchInv_unresearched List.nodup_nil
    (ht.mono fun _ _ _ => trivial)).mpr (ht.mono fun _ _ => waits_of_ripe)).2⟩

end AlgoBot.AiEngine
