import AlgoBot.Core.Rounding
import AlgoBot.MarketData.Announcements

/-!
# Candles and their ticks

`ingest` stores a tick once and then brings the candles of all timeframes up to date,
without a transaction around both. `persist_broker_tick_history` stores ticks, too,
and leaves the candles of a second and more.

* `candles_aggregate`: every candle of the tick stream is the aggregate of the stored
  ticks in its bucket, in a run without failures between a tick and its candles, whose
  history adds no tick to the bucket of a candle, and whose first live tick of a bucket
  is the first one that is stored.
* `tick_skipped`: a tick whose candles fail, and that is sent again.
-/

namespace AlgoBot.MarketData

open AlgoBot.Core

/-! ## Columns -/

/-- A column of eight decimals. -/
def column (x : ℚ) : ℚ := Double.roundEven (x * 10 ^ 8) / 10 ^ 8

/-- At most eight decimals. -/
def OnGrid (x : ℚ) : Prop := ∃ n : ℤ, x = n / 10 ^ 8

theorem onGrid_column (x : ℚ) : OnGrid (column x) := ⟨Double.roundEven (x * 10 ^ 8), rfl⟩

theorem OnGrid.column_eq {x : ℚ} (hx : OnGrid x) : column x = x := by
  obtain ⟨n, rfl⟩ := hx
  rw [column, div_mul_cancel₀ _ (by norm_num), Double.roundEven_intCast]

theorem OnGrid.add {x y : ℚ} (hx : OnGrid x) (hy : OnGrid y) : OnGrid (x + y) := by
  obtain ⟨n, rfl⟩ := hx
  obtain ⟨m, rfl⟩ := hy
  exact ⟨n + m, by push_cast; ring⟩

theorem column_mono : Monotone column := by
  intro x y hle
  unfold column
  have hround : Double.roundEven (x * 10 ^ 8) ≤ Double.roundEven (y * 10 ^ 8) :=
    Double.roundEven_mono (by linarith)
  have hcast : (Double.roundEven (x * 10 ^ 8) : ℚ) ≤ Double.roundEven (y * 10 ^ 8) := by
    exact_mod_cast hround
  exact div_le_div_of_nonneg_right hcast (by norm_num)

/-! ## Rows -/

/-- A row of `Tick`. -/
structure TickRow where
  market : ℕ
  epoch : ℤ
  quote : ℚ
  volume : ℚ
  deriving DecidableEq

/-- The stored ticks, in the order of their ids, and the candles. -/
structure Tape where
  ticks : List TickRow
  store : Store

def Tape.initial : Tape := ⟨[], fun _ => none⟩

inductive TapeStep
  /-- A tick is ingested; the update of its candles may fail after so many timeframes. -/
  | ingest (tick : LiveTick) (failure : Option ℕ)
  | persistTicks (market : ℕ) (items : List TickItem)

namespace Tape

/-- `unique_together` of a tick. -/
def has (s : Tape) (market : ℕ) (epoch : ℤ) (quote : ℚ) : Bool :=
  s.ticks.any fun r => r.market = market && r.epoch = epoch && r.quote = column quote

/-- `validate_tick`. -/
def accepts (s : Tape) (tick : LiveTick) : Bool :=
  !(tick.quote < 0 || tick.volume < 0) &&
    s.ticks.all fun r => r.market ≠ tick.market || r.epoch ≤ tick.epoch

def row (tick : LiveTick) : TickRow :=
  ⟨tick.market, tick.epoch, column tick.quote, column tick.volume⟩

/-- The candle of a timeframe after a tick. -/
def touched (tick : LiveTick) (timeframe : Timeframe) : Option Candle → Option Candle
  | none => some ⟨column tick.quote, column tick.quote, column tick.quote, column tick.quote,
      column tick.volume, .tick_stream⟩
  | some c =>
    if guarded timeframe c then some c
    else some { c with
      high := column (max c.high tick.quote)
      low := column (min c.low tick.quote)
      close := column tick.quote
      volume := column (c.volume + tick.volume) }

/-- `update_from_tick`. -/
def updateFromTick (store : Store) (tick : LiveTick) (timeframes : List Timeframe) : Store :=
  timeframes.foldl
    (fun store timeframe =>
      let bar := tick.bar timeframe
      Function.update store bar (touched tick timeframe (store bar)))
    store

/-- `TickService.ingest`. -/
def ingest (s : Tape) (tick : LiveTick) (failure : Option ℕ) : Tape :=
  if s.has tick.market tick.epoch tick.quote then s
  else if s.accepts tick then
    { ticks := s.ticks ++ [row tick]
      store := updateFromTick s.store tick
        (match failure with
        | none => Timeframe.all
        | some done => Timeframe.all.take done) }
  else s

/-- One row of `bulk_create` with `ignore_conflicts`. -/
def insertTick (market : ℕ) (s : Tape) (item : TickItem) : Tape :=
  if 0 < item.quote && !s.has market item.epoch item.quote then
    { s with ticks := s.ticks ++ [⟨market, item.epoch, column item.quote, 0⟩] }
  else s

end Tape

/-- The stored ticks and the candles of a second and more; the candles of the timeframe `tick` that
the history writes are left out. -/
def tapeStep (s : Tape) : TapeStep → Option Tape
  | .ingest tick failure => some (s.ingest tick failure)
  | .persistTicks market items => some (items.foldl (Tape.insertTick market) s)

def tape : Machine Tape TapeStep where
  next := tapeStep

/-! ## Aggregates -/

/-- First, greatest, least, last and sum. -/
structure IsAggregate (rows : List TickRow) (c : Candle) : Prop where
  opening : rows.head?.map TickRow.quote = some c.opening
  high : (∃ r ∈ rows, r.quote = c.high) ∧ ∀ r ∈ rows, r.quote ≤ c.high
  low : (∃ r ∈ rows, r.quote = c.low) ∧ ∀ r ∈ rows, c.low ≤ r.quote
  close : rows.getLast?.map TickRow.quote = some c.close
  volume : c.volume = (rows.map TickRow.volume).sum

namespace Tape

/-- The ticks of a bucket, by their ids. -/
def rowsIn (s : Tape) (bar : Bar) : List TickRow :=
  s.ticks.filter fun r =>
    r.market = bar.market && bucket_epoch r.epoch bar.timeframe.seconds = bar.epoch

/-- The ticks of a bucket in the order of time. -/
def inOrder (s : Tape) (bar : Bar) : List TickRow :=
  (s.rowsIn bar).insertionSort fun a b => a.epoch ≤ b.epoch

/-- The candles of the tick stream aggregate the stored ticks. -/
def Aggregated (s : Tape) : Prop :=
  ∀ bar c, 1 ≤ bar.timeframe.seconds → s.store bar = some c → c.source = .tick_stream →
    IsAggregate (s.inOrder bar) c

/-- No update fails, a new tick has at most eight decimals of volume and starts its candles with the
buckets, and the history adds no tick to the bucket of a candle. -/
def careful (s : Tape) : TapeStep → Bool
  | .ingest tick failure =>
    s.has tick.market tick.epoch tick.quote || !s.accepts tick ||
      failure.isNone && column tick.volume = tick.volume &&
        Timeframe.all.all fun timeframe => timeframe = .tick ||
          (s.store (tick.bar timeframe)).isSome || (s.rowsIn (tick.bar timeframe)).isEmpty
  | .persistTicks market items =>
    items.all fun item => s.has market item.epoch item.quote ||
      Timeframe.all.all fun timeframe => timeframe = .tick ||
        (s.store ⟨market, timeframe, bucket_epoch item.epoch timeframe.seconds⟩).isNone

/-! ## One step -/

/-- What holds of the tape in a careful run. -/
structure Inv (s : Tape) : Prop where
  grid : ∀ r ∈ s.ticks, OnGrid r.quote ∧ OnGrid r.volume
  source : ∀ bar c, s.store bar = some c → c.source = .tick_stream
  sorted : ∀ bar c, 1 ≤ bar.timeframe.seconds → s.store bar = some c →
    (s.rowsIn bar).Pairwise fun a b => a.epoch ≤ b.epoch
  aggregate : ∀ bar c, 1 ≤ bar.timeframe.seconds → s.store bar = some c →
    IsAggregate (s.rowsIn bar) c

variable {s : Tape} {tick : LiveTick} {bar : Bar} {c : Candle} {r : TickRow} {rows : List TickRow}

theorem initial_inv : initial.Inv := by
  constructor
  · intro r hr
    cases hr
  · intro bar c hc
    cases hc
  · intro bar c _ hc
    cases hc
  · intro bar c _ hc
    cases hc

theorem Inv.aggregated (hs : s.Inv) : s.Aggregated := by
  intro bar c hseconds hc _
  rw [inOrder, (hs.sorted bar c hseconds hc).insertionSort_eq]
  exact hs.aggregate bar c hseconds hc

theorem rowsIn_append (store : Store) :
    rowsIn ⟨s.ticks ++ [r], store⟩ bar =
      if r.market = bar.market ∧ bucket_epoch r.epoch bar.timeframe.seconds = bar.epoch then
        s.rowsIn bar ++ [r]
      else s.rowsIn bar := by
  unfold rowsIn
  rw [List.filter_append]
  split
  · next hbar => rw [List.filter_cons_of_pos (by simpa using hbar), List.filter_nil]
  · next hbar => rw [List.filter_cons_of_neg (by simpa using hbar), List.filter_nil, List.append_nil]

theorem isAggregate_singleton :
    IsAggregate [r] ⟨r.quote, r.quote, r.quote, r.quote, r.volume, .tick_stream⟩ := by
  constructor <;> simp

/-- One more tick. -/
theorem isAggregate_append (hc : IsAggregate rows c) :
    IsAggregate (rows ++ [r]) { c with
      high := max c.high r.quote
      low := min c.low r.quote
      close := r.quote
      volume := c.volume + r.volume } := by
  constructor
  · have hopening := hc.opening
    cases rows with
    | nil => cases hopening
    | cons a rest => simpa using hopening
  · obtain ⟨⟨a, ha, hhigh⟩, hall⟩ := hc.high
    constructor
    · rcases le_total c.high r.quote with hle | hle
      · exact ⟨r, by simp, by simp [hle]⟩
      · exact ⟨a, by simp [ha], by simp [hle, hhigh]⟩
    · intro b hb
      rcases List.mem_append.mp hb with hb | hb
      · exact (hall b hb).trans (le_max_left _ _)
      · obtain rfl := List.mem_singleton.mp hb
        exact le_max_right _ _
  · obtain ⟨⟨a, ha, hlow⟩, hall⟩ := hc.low
    constructor
    · rcases le_total c.low r.quote with hle | hle
      · exact ⟨a, by simp [ha], by simp [hle, hlow]⟩
      · exact ⟨r, by simp, by simp [hle]⟩
    · intro b hb
      rcases List.mem_append.mp hb with hb | hb
      · exact (min_le_left _ _).trans (hall b hb)
      · obtain rfl := List.mem_singleton.mp hb
        exact min_le_right _ _
  · simp
  · simp [hc.volume]

/-- A tick brings the candle of its bar up to date, in each of the timeframes. -/
theorem updateFromTick_apply {store : Store} {timeframes : List Timeframe}
    (hdistinct : timeframes.Nodup) :
    updateFromTick store tick timeframes bar =
      if bar.timeframe ∈ timeframes ∧ tick.bar bar.timeframe = bar then
        touched tick bar.timeframe (store bar)
      else store bar := by
  induction timeframes generalizing store with
  | nil => rw [if_neg fun h => List.not_mem_nil h.1, updateFromTick, List.foldl_nil]
  | cons timeframe rest ih =>
    obtain ⟨hnew, hrest⟩ := List.nodup_cons.mp hdistinct
    have hfold : updateFromTick store tick (timeframe :: rest) = updateFromTick
        (Function.update store (tick.bar timeframe)
          (touched tick timeframe (store (tick.bar timeframe)))) tick rest := rfl
    rw [hfold, ih hrest]
    by_cases hbar : bar = tick.bar timeframe
    · -- the other timeframes have other bars
      have hthis : bar.timeframe = timeframe := by rw [hbar]; rfl
      rw [hthis, if_neg fun h => hnew h.1, if_pos ⟨List.mem_cons_self, hbar.symm⟩, hbar,
        Function.update_self]
    · rw [Function.update_of_ne hbar]
      by_cases hmem : bar.timeframe ∈ rest ∧ tick.bar bar.timeframe = bar
      · rw [if_pos hmem, if_pos ⟨List.mem_cons_of_mem _ hmem.1, hmem.2⟩]
      · have hnot : ¬ (bar.timeframe ∈ timeframe :: rest ∧ tick.bar bar.timeframe = bar) := by
          rintro ⟨hmem', hsame⟩
          rcases List.mem_cons.mp hmem' with hthis | hmem'
          · exact hbar (by rw [← hsame, hthis])
          · exact hmem ⟨hmem', hsame⟩
        rw [if_neg hmem, if_neg hnot]

theorem bar_eq_iff : tick.bar bar.timeframe = bar ↔
    tick.market = bar.market ∧ bucket_epoch tick.epoch bar.timeframe.seconds = bar.epoch := by
  constructor
  · intro hbar
    exact ⟨congrArg Bar.market hbar, congrArg Bar.epoch hbar⟩
  · rintro ⟨hmarket, hepoch⟩
    exact Bar.ext hmarket rfl hepoch

theorem onGrid_sum (hrows : ∀ r ∈ rows, OnGrid r.volume) : OnGrid (rows.map TickRow.volume).sum := by
  induction rows with
  | nil => exact ⟨0, by simp⟩
  | cons r rest ih =>
    rw [List.map_cons, List.sum_cons]
    exact (hrows r List.mem_cons_self).add (ih fun x hx => hrows x (List.mem_cons_of_mem r hx))

/-- The candle of the tick stream after a tick with a volume of eight decimals. -/
theorem touched_aggregate {timeframe : Timeframe} (hrows : ∀ r ∈ rows, OnGrid r.quote ∧ OnGrid r.volume)
    (hvolume : column tick.volume = tick.volume) (hsource : c.source = .tick_stream)
    (hc : IsAggregate rows c) :
    ∃ c', touched tick timeframe (some c) = some c' ∧ c'.source = .tick_stream ∧
      IsAggregate (rows ++ [row tick]) c' := by
  have hfree : guarded timeframe c = false := by simp [guarded, hsource]
  obtain ⟨⟨a, ha, hhigh⟩, _⟩ := hc.high
  obtain ⟨⟨b, hb, hlow⟩, _⟩ := hc.low
  -- what is stored has eight decimals, and so has what is computed from it
  have hmax : column (max c.high tick.quote) = max c.high (column tick.quote) := by
    rw [column_mono.map_max, ← hhigh, (hrows a ha).1.column_eq]
  have hmin : column (min c.low tick.quote) = min c.low (column tick.quote) := by
    rw [column_mono.map_min, ← hlow, (hrows b hb).1.column_eq]
  have htotal : OnGrid c.volume := by
    rw [hc.volume]
    exact onGrid_sum fun r hr => (hrows r hr).2
  have hsum : column (c.volume + tick.volume) = c.volume + column tick.volume := by
    rw [hvolume]
    exact (htotal.add (hvolume ▸ onGrid_column tick.volume)).column_eq
  refine ⟨_, ?_, ?_, isAggregate_append hc⟩
  · simp only [touched, hfree, Bool.false_eq_true, if_false, hmax, hmin, hsum]
    rfl
  · exact hsource

theorem Inv.ingest (hs : s.Inv) (haccepts : s.accepts tick = true)
    (hvolume : column tick.volume = tick.volume)
    (hfirst : ∀ timeframe, 1 ≤ timeframe.seconds → s.store (tick.bar timeframe) = none →
      s.rowsIn (tick.bar timeframe) = []) :
    Inv ⟨s.ticks ++ [row tick], updateFromTick s.store tick Timeframe.all⟩ := by
  have happly : ∀ bar, updateFromTick s.store tick Timeframe.all bar =
      if tick.bar bar.timeframe = bar then touched tick bar.timeframe (s.store bar) else s.store bar := by
    intro bar
    rw [updateFromTick_apply (by decide)]
    simp only [Timeframe.mem_all, true_and]
  have hgrid : ∀ bar, ∀ r ∈ s.rowsIn bar, OnGrid r.quote ∧ OnGrid r.volume :=
    fun bar r hr => hs.grid r (List.mem_filter.mp hr).1
  -- the tick is not earlier than the stored ones of its market
  have hlast : ∀ bar, tick.bar bar.timeframe = bar → ∀ r ∈ s.rowsIn bar, r.epoch ≤ tick.epoch := by
    intro bar hbar r hr
    obtain ⟨hmem, hin⟩ := List.mem_filter.mp hr
    simp only [Bool.and_eq_true, decide_eq_true_eq] at hin
    simp only [accepts, Bool.and_eq_true, List.all_eq_true] at haccepts
    have hmarket : r.market = tick.market := hin.1.trans (bar_eq_iff.mp hbar).1.symm
    simpa [hmarket] using haccepts.2 r hmem
  have hrows : ∀ bar, rowsIn ⟨s.ticks ++ [row tick], updateFromTick s.store tick Timeframe.all⟩ bar =
      if tick.bar bar.timeframe = bar then s.rowsIn bar ++ [row tick] else s.rowsIn bar := by
    intro bar
    rw [rowsIn_append]
    exact if_congr bar_eq_iff.symm rfl rfl
  have hempty : ∀ bar, 1 ≤ bar.timeframe.seconds → tick.bar bar.timeframe = bar →
      s.store bar = none → s.rowsIn bar = [] := by
    intro bar hseconds hbar hnone
    rw [← hbar] at hnone ⊢
    exact hfirst _ hseconds hnone
  constructor
  · intro r hr
    rcases List.mem_append.mp hr with hold | hnew
    · exact hs.grid r hold
    · obtain rfl := List.mem_singleton.mp hnew
      exact ⟨onGrid_column _, onGrid_column _⟩
  · intro bar c hc
    change updateFromTick s.store tick Timeframe.all bar = some c at hc
    rw [happly] at hc
    split at hc
    · cases hstore : s.store bar with
      | none =>
        rw [hstore] at hc
        cases hc
        rfl
      | some old =>
        rw [hstore, touched] at hc
        have hold := hs.source bar old hstore
        split at hc
        · obtain rfl := Option.some.inj hc
          exact hold
        · obtain rfl := Option.some.inj hc
          exact hold
    · exact hs.source bar c hc
  · intro bar c hseconds hc
    rw [hrows]
    change updateFromTick s.store tick Timeframe.all bar = some c at hc
    rw [happly] at hc
    split
    · next hbar =>
      rw [List.pairwise_append]
      refine ⟨?_, List.pairwise_singleton _ _, fun r hr x hx => ?_⟩
      · cases hstore : s.store bar with
        | none =>
          rw [hempty bar hseconds hbar hstore]
          exact List.Pairwise.nil
        | some old => exact hs.sorted bar old hseconds hstore
      · obtain rfl := List.mem_singleton.mp hx
        exact hlast bar hbar r hr
    · next hbar =>
      rw [if_neg hbar] at hc
      exact hs.sorted bar c hseconds hc
  · intro bar c hseconds hc
    rw [hrows]
    change updateFromTick s.store tick Timeframe.all bar = some c at hc
    rw [happly] at hc
    split
    · next hbar =>
      rw [if_pos hbar] at hc
      cases hstore : s.store bar with
      | none =>
        rw [hstore] at hc
        cases hc
        rw [hempty bar hseconds hbar hstore]
        exact isAggregate_singleton
      | some old =>
        obtain ⟨c', hc', _, hall⟩ := @touched_aggregate _ _ _ bar.timeframe (hgrid bar) hvolume
          (hs.source bar old hstore) (hs.aggregate bar old hseconds hstore)
        rw [hstore, hc'] at hc
        cases hc
        exact hall
    · next hbar =>
      rw [if_neg hbar] at hc
      exact hs.aggregate bar c hseconds hc

/-- The history may add ticks to buckets without candles. -/
theorem Inv.insertTick (hs : s.Inv) {market : ℕ} {item : TickItem}
    (hitem : s.has market item.epoch item.quote = true ∨ ∀ timeframe : Timeframe,
      1 ≤ timeframe.seconds →
        s.store ⟨market, timeframe, bucket_epoch item.epoch timeframe.seconds⟩ = none) :
    (s.insertTick market item).Inv := by
  unfold Tape.insertTick
  split
  · next hinsert =>
    simp only [Bool.and_eq_true, Bool.not_eq_true'] at hinsert
    have hnone := hitem.resolve_left (by rw [hinsert.2]; nofun)
    have hrows : ∀ bar c, 1 ≤ bar.timeframe.seconds → s.store bar = some c →
        rowsIn { s with ticks := s.ticks ++ [⟨market, item.epoch, column item.quote, 0⟩] } bar =
          s.rowsIn bar := by
      intro bar c hseconds hc
      rw [rowsIn_append, if_neg]
      rintro ⟨rfl, hepoch⟩
      have hbar : bar = ⟨bar.market, bar.timeframe,
          bucket_epoch item.epoch bar.timeframe.seconds⟩ := Bar.ext rfl rfl hepoch.symm
      rw [hbar, hnone bar.timeframe hseconds] at hc
      cases hc
    constructor
    · intro r hr
      rcases List.mem_append.mp hr with hold | hnew
      · exact hs.grid r hold
      · obtain rfl := List.mem_singleton.mp hnew
        exact ⟨onGrid_column _, 0, by simp⟩
    · exact hs.source
    · intro bar c hseconds hc
      rw [hrows bar c hseconds hc]
      exact hs.sorted bar c hseconds hc
    · intro bar c hseconds hc
      rw [hrows bar c hseconds hc]
      exact hs.aggregate bar c hseconds hc
  · exact hs

theorem has_insertTick {market : ℕ} {item : TickItem} {epoch : ℤ} {quote : ℚ}
    (h : s.has market epoch quote = true) : (s.insertTick market item).has market epoch quote = true := by
  unfold Tape.insertTick
  split
  · unfold has at h ⊢
    rw [List.any_append, h, Bool.true_or]
  · exact h

theorem store_insertTick {market : ℕ} {item : TickItem} : (s.insertTick market item).store = s.store := by
  unfold Tape.insertTick
  split <;> rfl

theorem Inv.persistTicks {market : ℕ} {items : List TickItem} (hs : s.Inv)
    (hitems : ∀ item ∈ items, s.has market item.epoch item.quote = true ∨
      ∀ timeframe : Timeframe, 1 ≤ timeframe.seconds →
        s.store ⟨market, timeframe, bucket_epoch item.epoch timeframe.seconds⟩ = none) :
    (items.foldl (Tape.insertTick market) s).Inv := by
  induction items generalizing s with
  | nil => exact hs
  | cons item rest ih =>
    refine ih (hs.insertTick (hitems item List.mem_cons_self)) fun next hnext => ?_
    rw [store_insertTick]
    exact (hitems next (List.mem_cons_of_mem item hnext)).imp_left has_insertTick

theorem ne_tick {timeframe : Timeframe} (hseconds : 1 ≤ timeframe.seconds) :
    timeframe ≠ .tick := by
  rintro rfl
  exact absurd hseconds (by decide)

theorem careful_step {s' : Tape} {x : TapeStep} (hs : s.Inv) (hcareful : s.careful x = true)
    (hnext : tape.next s x = some s') : s'.Inv := by
  change tapeStep s x = some s' at hnext
  cases x with
  | ingest tick failure =>
    cases hnext
    unfold Tape.ingest
    split
    · exact hs
    · next hnew =>
      split
      · next haccepts =>
        simp only [careful, hnew, haccepts, Bool.not_true, Bool.false_or, Bool.and_eq_true,
          Bool.or_eq_true, decide_eq_true_eq, Option.isNone_iff_eq_none, List.all_eq_true,
          List.isEmpty_iff] at hcareful
        obtain ⟨⟨rfl, hvolume⟩, hfirst⟩ := hcareful
        refine hs.ingest haccepts hvolume fun timeframe hseconds hnone => ?_
        rcases hfirst timeframe (Timeframe.mem_all timeframe) with (htick | hsome) | hrows
        · exact absurd htick (ne_tick hseconds)
        · rw [hnone] at hsome
          cases hsome
        · exact hrows
      · exact hs
  | persistTicks market items =>
    cases hnext
    simp only [careful, List.all_eq_true, Bool.or_eq_true, decide_eq_true_eq,
      Option.isNone_iff_eq_none] at hcareful
    refine hs.persistTicks fun item hitem => (hcareful item hitem).imp_right ?_
    intro hnone timeframe hseconds
    exact (hnone timeframe (Timeframe.mem_all timeframe)).resolve_left (ne_tick hseconds)

end Tape

/-! ## Runs -/

/-- In a careful run the candles of the tick stream aggregate the stored ticks. -/
theorem candles_aggregate {xs : List TapeStep} {s : Tape}
    (hrun : tape.RunIf (fun s x => s.careful x = true) Tape.initial xs s) : s.Aggregated := by
  refine (hrun.invariant ?_ Tape.initial_inv).aggregated
  intro s x s' hcareful hs hnext
  exact Tape.careful_step hs hcareful hnext

/-- Two ticks of one minute, the first of them twice, and a tick of the history. -/
theorem minute_aggregates : ∃ s, tape.RunIf (fun s x => s.careful x = true) Tape.initial
      [.persistTicks 1 [⟨100000, 4⟩], .ingest ⟨2, 30, 5, 1⟩ none, .ingest ⟨2, 30, 5, 1⟩ none,
        .ingest ⟨2, 40, 7, 2⟩ none] s ∧ s.Aggregated := by
  have henabled : (tape.execIf (fun s x => s.careful x = true) Tape.initial
      [.persistTicks 1 [⟨100000, 4⟩], .ingest ⟨2, 30, 5, 1⟩ none, .ingest ⟨2, 30, 5, 1⟩ none,
        .ingest ⟨2, 40, 7, 2⟩ none]).isSome = true := by
    decide +kernel
  obtain ⟨s, hrun⟩ := Machine.exists_runIf henabled
  exact ⟨s, hrun, candles_aggregate hrun⟩

/-- The candles of the second tick fail, and the tick is sent again. -/
theorem tick_skipped : ¬ ∀ xs s, tape.Run Tape.initial xs s → s.Aggregated := by
  intro hall
  have hexec : (tape.exec Tape.initial
      [.ingest ⟨1, 30, 5, 1⟩ none, .ingest ⟨1, 40, 7, 1⟩ (some 0), .ingest ⟨1, 40, 7, 1⟩ none]).map
        (fun s => (s.store ⟨1, .m1, 0⟩, s.inOrder ⟨1, .m1, 0⟩)) =
      some (some ⟨5, 5, 5, 5, 1, .tick_stream⟩, [⟨1, 30, 5, 1⟩, ⟨1, 40, 7, 1⟩]) := by
    decide +kernel
  obtain ⟨s, hs, hvalues⟩ := Option.map_eq_some_iff.mp hexec
  obtain ⟨hstore, hrows⟩ := Prod.mk.inj hvalues
  have haggregate := hall _ s (Machine.exec_eq_some_iff.mp hs) _ _ (by decide) hstore rfl
  rw [hrows] at haggregate
  have hclose := haggregate.close
  simp at hclose

end AlgoBot.MarketData
