import AlgoBot.MarketData.Aggregation

/-!
# The snapshot of a market

`ingest` brings the snapshot of a market up to date with each new tick. The first tick creates
the snapshot, and a created snapshot has a key, so the update that is meant for the later
ticks runs as well.

* `prices_fold`: the last, the greatest and the least price are those of the stored ticks.
* `snapshot_folds`: the volume is theirs, too, all along a run, exactly if each first tick has
  no volume and no volume has more decimals than the column.
* `volume_doubled`: one tick.
-/

namespace AlgoBot.MarketData

open AlgoBot.Core

/-! ## Steps -/

/-- `MarketSnapshot`, without bid and ask. -/
structure MarketSnapshot where
  last_price : ℚ
  high : ℚ
  low : ℚ
  volume : ℚ
  deriving DecidableEq

/-- `update_snapshot`. -/
def update_snapshot (stored : Option MarketSnapshot) (tick : LiveTick) : MarketSnapshot :=
  -- `get_or_create`; what it returns has a key in both cases
  let snap := stored.getD ⟨tick.quote, tick.quote, tick.quote, tick.volume⟩
  { last_price := column tick.quote
    high := column (max snap.high tick.quote)
    low := column (min snap.low tick.quote)
    volume := column (snap.volume + tick.volume) }

/-- The ticks and candles, and the snapshot of each market. -/
structure Board where
  tape : Tape
  snapshots : ℕ → Option MarketSnapshot

namespace Board

def initial : Board := ⟨Tape.initial, fun _ => none⟩

/-- `TickService.ingest`. -/
def ingest (s : Board) (tick : LiveTick) : Board :=
  if s.tape.has tick.market tick.epoch tick.quote then s
  else if s.tape.accepts tick then
    { tape := s.tape.ingest tick none
      snapshots := Function.update s.snapshots tick.market
        (some (update_snapshot (s.snapshots tick.market) tick)) }
  else s

end Board

def board : Machine Board LiveTick where
  next s tick := some (s.ingest tick)

/-! ## Folds -/

/-- Last, greatest and least price. -/
structure PricesFold (rows : List TickRow) (snap : MarketSnapshot) : Prop where
  last_price : rows.getLast?.map TickRow.quote = some snap.last_price
  high : (∃ r ∈ rows, r.quote = snap.high) ∧ ∀ r ∈ rows, r.quote ≤ snap.high
  low : (∃ r ∈ rows, r.quote = snap.low) ∧ ∀ r ∈ rows, snap.low ≤ r.quote

structure IsFold (rows : List TickRow) (snap : MarketSnapshot) : Prop
    extends PricesFold rows snap where
  volume : snap.volume = (rows.map TickRow.volume).sum

namespace Board

/-- The ticks of a market. -/
def rowsOf (s : Board) (market : ℕ) : List TickRow :=
  s.tape.ticks.filter fun r => r.market = market

/-- The snapshot of each market folds its ticks. -/
def Folds (s : Board) : Prop :=
  ∀ market, s.rowsOf market ≠ [] →
    ∃ snap, s.snapshots market = some snap ∧ IsFold (s.rowsOf market) snap

/-- A new tick doubles as itself if it is the first of its market, and else adds up. -/
def careful (s : Board) (tick : LiveTick) : Bool :=
  s.tape.has tick.market tick.epoch tick.quote || !s.tape.accepts tick ||
    match s.snapshots tick.market with
    | none => column (tick.volume + tick.volume) = column tick.volume
    | some snap => column (snap.volume + tick.volume) = snap.volume + column tick.volume

/-- What holds in every run. -/
structure Inv (s : Board) : Prop where
  grid : ∀ r ∈ s.tape.ticks, OnGrid r.quote
  missing : ∀ market, s.snapshots market = none → s.rowsOf market = []
  prices : ∀ market snap, s.snapshots market = some snap → PricesFold (s.rowsOf market) snap

end Board

/-! ## One step -/

variable {s s' : Board} {tick : LiveTick} {snap : MarketSnapshot} {rows : List TickRow}

theorem PricesFold.ne_nil (h : PricesFold rows snap) : rows ≠ [] := by
  rintro rfl
  cases h.last_price

/-- The first tick of a market. -/
theorem pricesFold_first : PricesFold [Tape.row tick] (update_snapshot none tick) := by
  constructor <;> simp [update_snapshot, Tape.row]

/-- One more tick. -/
theorem PricesFold.append (hgrid : ∀ r ∈ rows, OnGrid r.quote) (h : PricesFold rows snap) :
    PricesFold (rows ++ [Tape.row tick]) (update_snapshot (some snap) tick) := by
  obtain ⟨⟨a, ha, hhigh⟩, hmost⟩ := h.high
  obtain ⟨⟨b, hb, hlow⟩, hleast⟩ := h.low
  -- the stored prices are those of stored ticks and need no rounding
  have hmax : (update_snapshot (some snap) tick).high = max snap.high (column tick.quote) := by
    rw [update_snapshot, Option.getD_some, column_mono.map_max, ← hhigh, (hgrid a ha).column_eq]
  have hmin : (update_snapshot (some snap) tick).low = min snap.low (column tick.quote) := by
    rw [update_snapshot, Option.getD_some, column_mono.map_min, ← hlow, (hgrid b hb).column_eq]
  constructor
  · simp [update_snapshot, Tape.row]
  · rw [hmax]
    constructor
    · rcases le_total snap.high (column tick.quote) with hle | hle
      · exact ⟨Tape.row tick, by simp, by simp [hle, Tape.row]⟩
      · exact ⟨a, by simp [ha], by simp [hle, hhigh]⟩
    · intro r hr
      rcases List.mem_append.mp hr with hr | hr
      · exact (hmost r hr).trans (le_max_left _ _)
      · obtain rfl := List.mem_singleton.mp hr
        exact le_max_right _ _
  · rw [hmin]
    constructor
    · rcases le_total snap.low (column tick.quote) with hle | hle
      · exact ⟨b, by simp [hb], by simp [hle, hlow]⟩
      · exact ⟨Tape.row tick, by simp, by simp [hle, Tape.row]⟩
    · intro r hr
      rcases List.mem_append.mp hr with hr | hr
      · exact (min_le_left _ _).trans (hleast r hr)
      · obtain rfl := List.mem_singleton.mp hr
        exact min_le_right _ _

namespace Board

variable {market : ℕ}

theorem initial_inv : initial.Inv := by
  constructor
  · intro r hr
    cases hr
  · intro market _
    rfl
  · intro market snap hsnap
    cases hsnap

/-- What a new tick does. -/
theorem ingest_new (hnew : s.tape.has tick.market tick.epoch tick.quote = false)
    (haccepts : s.tape.accepts tick = true) :
    (s.ingest tick).tape.ticks = s.tape.ticks ++ [Tape.row tick] ∧
      (s.ingest tick).snapshots = Function.update s.snapshots tick.market
        (some (update_snapshot (s.snapshots tick.market) tick)) := by
  simp [ingest, Tape.ingest, hnew, haccepts]

/-- Any other tick does nothing. -/
theorem ingest_old
    (hold : ¬ (s.tape.has tick.market tick.epoch tick.quote = false ∧ s.tape.accepts tick = true)) :
    s.ingest tick = s := by
  unfold ingest
  split
  · rfl
  · next hnew =>
    split
    · next haccepts => exact absurd ⟨by simpa using hnew, haccepts⟩ hold
    · rfl

theorem rowsOf_new (hticks : s'.tape.ticks = s.tape.ticks ++ [Tape.row tick]) :
    s'.rowsOf market =
      if market = tick.market then s.rowsOf market ++ [Tape.row tick] else s.rowsOf market := by
  unfold rowsOf
  rw [hticks, List.filter_append]
  split
  · next hmarket => rw [List.filter_cons_of_pos (by simp [hmarket, Tape.row]), List.filter_nil]
  · next hmarket =>
    have hother : ¬ tick.market = market := fun h => hmarket h.symm
    rw [List.filter_cons_of_neg (by simp [Tape.row, hother]), List.filter_nil,
      List.append_nil]

theorem Inv.ingest (hs : s.Inv) : (s.ingest tick).Inv := by
  by_cases hnew : s.tape.has tick.market tick.epoch tick.quote = false ∧ s.tape.accepts tick = true
  · obtain ⟨hticks, hsnapshots⟩ := ingest_new hnew.1 hnew.2
    constructor
    · intro r hr
      rw [hticks] at hr
      rcases List.mem_append.mp hr with hr | hr
      · exact hs.grid r hr
      · obtain rfl := List.mem_singleton.mp hr
        exact onGrid_column _
    · intro market hnone
      rw [hsnapshots] at hnone
      by_cases hmarket : market = tick.market
      · rw [hmarket, Function.update_self] at hnone
        cases hnone
      · rw [Function.update_of_ne hmarket] at hnone
        rw [rowsOf_new hticks, if_neg hmarket, hs.missing market hnone]
    · intro market snap hsnap
      rw [hsnapshots] at hsnap
      rw [rowsOf_new hticks]
      by_cases hmarket : market = tick.market
      · rw [hmarket, Function.update_self] at hsnap
        rw [if_pos hmarket, hmarket, ← Option.some.inj hsnap]
        cases hbefore : s.snapshots tick.market with
        | none =>
          rw [hs.missing _ hbefore]
          exact pricesFold_first
        | some before =>
          refine (hs.prices _ before hbefore).append fun r hr => ?_
          exact hs.grid r (List.mem_filter.mp hr).1
      · rw [Function.update_of_ne hmarket] at hsnap
        rw [if_neg hmarket]
        exact hs.prices market snap hsnap
  · rw [ingest_old hnew]
    exact hs

/-- With the prices right, what is left is the volume. -/
theorem Inv.folds_iff (hs : s.Inv) : s.Folds ↔ ∀ market snap, s.snapshots market = some snap →
    snap.volume = ((s.rowsOf market).map TickRow.volume).sum := by
  constructor
  · intro hfolds market snap hsnap
    obtain ⟨snap', hsnap', hfold⟩ := hfolds market (hs.prices market snap hsnap).ne_nil
    obtain rfl := Option.some.inj (hsnap.symm.trans hsnap')
    exact hfold.volume
  · intro hvolume market hrows
    cases hsnap : s.snapshots market with
    | none => exact absurd (hs.missing market hsnap) hrows
    | some snap => exact ⟨snap, rfl, hs.prices market snap hsnap, hvolume market snap hsnap⟩

/-- A tick keeps the volumes right exactly if it is a careful one. -/
theorem folds_step (hs : s.Inv) (hfolds : s.Folds) :
    (s.ingest tick).Folds ↔ s.careful tick = true := by
  by_cases hnew : s.tape.has tick.market tick.epoch tick.quote = false ∧ s.tape.accepts tick = true
  · obtain ⟨hticks, hsnapshots⟩ := ingest_new hnew.1 hnew.2
    have hvolume := hs.folds_iff.mp hfolds
    rw [hs.ingest.folds_iff, hsnapshots]
    -- only the market of the tick has another snapshot
    have hone : (∀ market snap, Function.update s.snapshots tick.market
          (some (update_snapshot (s.snapshots tick.market) tick)) market = some snap →
          snap.volume = (((s.ingest tick).rowsOf market).map TickRow.volume).sum) ↔
        (update_snapshot (s.snapshots tick.market) tick).volume =
          ((s.rowsOf tick.market).map TickRow.volume).sum + column tick.volume := by
      constructor
      · intro hall
        have hthis := hall tick.market _ (Function.update_self ..)
        rw [rowsOf_new hticks, if_pos rfl] at hthis
        simpa [Tape.row] using hthis
      · intro hthis market snap hsnap
        rw [rowsOf_new hticks]
        by_cases hmarket : market = tick.market
        · rw [hmarket, Function.update_self] at hsnap
          rw [if_pos hmarket, hmarket, ← Option.some.inj hsnap, hthis]
          simp [Tape.row]
        · rw [Function.update_of_ne hmarket] at hsnap
          rw [if_neg hmarket]
          exact hvolume market snap hsnap
    rw [hone, careful, hnew.1, hnew.2]
    cases hbefore : s.snapshots tick.market with
    | none => simp [update_snapshot, hs.missing _ hbefore]
    | some before => simp [update_snapshot, hvolume _ before hbefore]
  · rw [ingest_old hnew]
    refine iff_of_true hfolds ?_
    cases hhas : s.tape.has tick.market tick.epoch tick.quote with
    | true => simp [careful, hhas]
    | false =>
      have hrefused : s.tape.accepts tick = false := by
        simpa [hhas] using hnew
      simp [careful, hhas, hrefused]

/-- The first tick of a market is a careful one exactly if it has no volume, for volumes of at most
eight decimals. -/
theorem careful_first (hnew : s.tape.has tick.market tick.epoch tick.quote = false)
    (haccepts : s.tape.accepts tick = true) (hfirst : s.snapshots tick.market = none)
    (hvolume : OnGrid tick.volume) : s.careful tick = true ↔ tick.volume = 0 := by
  rw [careful, hnew, haccepts, hfirst]
  simp only [Bool.not_true, Bool.or_self, Bool.false_or, decide_eq_true_eq, hvolume.column_eq,
    (hvolume.add hvolume).column_eq]
  constructor
  · intro h
    linarith
  · intro h
    rw [h, add_zero]

end Board

/-! ## Runs -/

/-- In every run the last, the greatest and the least price are those of the stored ticks. -/
theorem prices_fold {xs : List LiveTick} {s : Board} (hrun : board.Run Board.initial xs s)
    (market : ℕ) (hrows : s.rowsOf market ≠ []) :
    ∃ snap, s.snapshots market = some snap ∧ PricesFold (s.rowsOf market) snap := by
  have hs : s.Inv := by
    refine hrun.invariant ?_ Board.initial_inv
    intro s tick s' _ hs hnext
    obtain rfl := Option.some.inj hnext
    exact hs.ingest
  cases hsnap : s.snapshots market with
  | none => exact absurd (hs.missing market hsnap) hrows
  | some snap => exact ⟨snap, rfl, hs.prices market snap hsnap⟩

/-- The snapshots fold the ticks all along a run exactly if each of its ticks is a careful one. -/
theorem snapshot_folds {xs : List LiveTick} {s : Board} (hrun : board.Run Board.initial xs s) :
    Machine.RunIf.Always board Board.Folds Board.initial xs ↔
      board.RunIf (fun s tick => s.careful tick = true) Board.initial xs s := by
  have hinitial : Board.initial.Folds := by
    intro market hrows
    exact absurd rfl hrows
  have hiff := Machine.RunIf.always_iff (M := board) (P := Board.Folds)
    (G := fun s tick => s.careful tick = true)
    (by
      intro s tick s' (hs : s.Inv) hnext
      obtain rfl := Option.some.inj hnext
      exact hs.ingest)
    (by
      intro s tick s' hs hfolds hnext
      obtain rfl := Option.some.inj hnext
      exact Board.folds_step hs hfolds)
    hrun Board.initial_inv
  rw [hiff]
  exact and_iff_right hinitial

/-- A tick without volume, and one with volume. -/
theorem snapshot_of_two : ∃ s, board.Run Board.initial [⟨1, 30, 5, 0⟩, ⟨1, 40, 7, 2⟩] s ∧
    (Machine.RunIf.Always board Board.Folds Board.initial [⟨1, 30, 5, 0⟩, ⟨1, 40, 7, 2⟩] ↔
      board.RunIf (fun s tick => s.careful tick = true) Board.initial
        [⟨1, 30, 5, 0⟩, ⟨1, 40, 7, 2⟩] s) := by
  have henabled : (board.exec Board.initial [⟨1, 30, 5, 0⟩, ⟨1, 40, 7, 2⟩]).isSome = true := by
    decide +kernel
  obtain ⟨s, hrun⟩ := Machine.exists_run henabled
  exact ⟨s, hrun, snapshot_folds hrun⟩

/-- One tick of volume 2 leaves a snapshot of volume 4. -/
theorem volume_doubled : ¬ ∀ xs s, board.Run Board.initial xs s → s.Folds := by
  intro hall
  have hexec : (board.exec Board.initial [⟨1, 30, 5, 2⟩]).map
        (fun s => (s.snapshots 1, s.rowsOf 1)) =
      some (some ⟨5, 5, 5, 4⟩, [⟨1, 30, 5, 2⟩]) := by
    decide +kernel
  obtain ⟨s, hs, hvalues⟩ := Option.map_eq_some_iff.mp hexec
  obtain ⟨hsnap, hrows⟩ := Prod.mk.inj hvalues
  obtain ⟨snap, hsnap', hfold⟩ := hall _ s (Machine.exec_eq_some_iff.mp hs) 1 (by simp [hrows])
  obtain rfl := Option.some.inj (hsnap.symm.trans hsnap')
  have hvolume := hfold.volume
  rw [hrows] at hvolume
  norm_num at hvolume

end AlgoBot.MarketData
