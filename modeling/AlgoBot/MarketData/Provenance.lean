import AlgoBot.Core.Machine
import AlgoBot.MarketData.Models

/-!
# The provenance of candles

Three writers share the candles: `update_from_tick` of the live ticks, which finds a
candle and saves it later, `persist_candles`, and `persist_broker_tick_history`, which
inserts the missing candles and then replaces the others. A candle of the connected
broker should have the values that the broker gave last.

The guard of `update_from_tick` protects such a candle in the timeframes of a minute
and more, when it is found.

* `brokers_kept`: the candles of the connected broker keep its values in a run whose
  live ticks find such candles only in the protected timeframes, whose broker data are
  not persisted over a candle that a tick is about to save, and whose tick history
  replaces no volume.
* `tick_overwrites`: a live tick at the epoch of a candle of the tick history.
-/

namespace AlgoBot.MarketData

open AlgoBot.Core

/-! ## What is written -/

/-- The stored candles, by what is unique of them; none is ever deleted. -/
abbrev Store := Bar → Option Candle

/-- Candles of one market and timeframe, by their epochs. -/
abbrev Incoming := ℤ → Option Candle

/-- A record of `persist_candles` whose values are finite numbers. -/
structure CandleItem where
  epoch : ℤ
  opening : ℚ
  high : ℚ
  low : ℚ
  close : ℚ
  volume : ℚ

/-- The checks of `persist_candles`. -/
def CandleItem.valid (item : CandleItem) (seconds : ℕ) : Bool :=
  !(seconds ≠ 0 && item.epoch % seconds ≠ 0) &&
    !(item.high < max item.opening item.close || item.low > min item.opening item.close ||
      item.high < item.low || item.volume < 0)

/-- `incoming` of `persist_candles`: the last record of an epoch counts. -/
def incomingCandles (timeframe : Timeframe) (items : List CandleItem) : Incoming :=
  items.foldl
    (fun incoming item =>
      if item.valid timeframe.seconds then
        Function.update incoming item.epoch
          (some ⟨item.opening, item.high, item.low, item.close, item.volume, .connected_broker⟩)
      else incoming)
    fun _ => none

/-- A record of the tick history whose values are finite numbers. -/
structure TickItem where
  epoch : ℤ
  quote : ℚ
  deriving DecidableEq

/-- One row of the tick history, joined to the candle of its epoch. -/
def addQuote (candles : Incoming) (row : TickItem) : Incoming :=
  Function.update candles row.epoch <| some <|
    match candles row.epoch with
    | none => ⟨row.quote, row.quote, row.quote, row.quote, 0, .connected_broker⟩
    | some c => { c with high := max c.high row.quote, low := min c.low row.quote, close := row.quote }

/-- `candle_by_epoch`, of the positive quotes without their duplicates. -/
def candleByEpoch (items : List TickItem) : Incoming :=
  ((items.filter fun item => 0 < item.quote).eraseDups).foldl addQuote fun _ => none

/-- The incoming candle of a bar. -/
def Incoming.at (incoming : Incoming) (market : ℕ) (timeframe : Timeframe) (bar : Bar) :
    Option Candle :=
  if bar.market = market ∧ bar.timeframe = timeframe then incoming bar.epoch else none

/-! ## The writers -/

/-- A live tick that `ingest` has stored. -/
structure LiveTick where
  market : ℕ
  epoch : ℤ
  quote : ℚ
  volume : ℚ
  deriving DecidableEq

/-- `bucket_epoch`. -/
def bucket_epoch (epoch : ℤ) (seconds : ℕ) : ℤ :=
  if seconds = 0 then epoch else epoch - epoch % seconds

def LiveTick.bar (tick : LiveTick) (timeframe : Timeframe) : Bar :=
  ⟨tick.market, timeframe, bucket_epoch tick.epoch timeframe.seconds⟩

/-- The candle that a tick creates. -/
def LiveTick.candle (tick : LiveTick) : Candle :=
  ⟨tick.quote, tick.quote, tick.quote, tick.quote, tick.volume, .tick_stream⟩

/-- A candle of the broker is left alone. -/
def guarded (timeframe : Timeframe) (c : Candle) : Bool :=
  (c.source = .deriv_candles || c.source = .connected_broker) && 60 ≤ timeframe.seconds

/-- The columns that a tick saves, on the row as it is then. -/
def LiveTick.saveOn (tick : LiveTick) (found row : Candle) : Candle :=
  { row with
    high := max found.high tick.quote
    low := min found.low tick.quote
    close := tick.quote
    volume := found.volume + tick.volume }

inductive Writer
  /-- `update_from_tick`: the timeframes to come, and a candle that is found and not yet saved. -/
  | live (tick : LiveTick) (timeframes : List Timeframe) (held : Option (Bar × Candle))
  /-- `persist_broker_tick_history`, after it has inserted the missing candles. -/
  | history (market : ℕ) (items : List TickItem)
  | ended

/-- The candles, the writers, and what a broker gave last for each candle. -/
structure Feed where
  store : Store
  writers : List Writer
  persisted : Bar → Option Candle

def Feed.initial : Feed := ⟨fun _ => none, [], fun _ => none⟩

inductive FeedStep
  | ingest (tick : LiveTick)
  | find (i : ℕ)
  | save (i : ℕ)
  | persistCandles (market : ℕ) (timeframe : Timeframe) (items : List CandleItem)
  | persistTicks (market : ℕ) (items : List TickItem)
  | replace (i : ℕ)
  /-- An exception, or the end of the process. -/
  | abandon (i : ℕ)

/-- The step is one of a live tick. -/
def FeedStep.live : FeedStep → Bool
  | ingest _ | find _ | save _ => true
  | _ => false

namespace Feed

def withWriter (s : Feed) (i : ℕ) (w : Writer) : Feed := { s with writers := s.writers.set i w }

/-- `get_or_create`, and whether the candle is to be saved. -/
def find (s : Feed) (i : ℕ) (tick : LiveTick) (timeframe : Timeframe) (rest : List Timeframe) : Feed :=
  let bar := tick.bar timeframe
  match s.store bar with
  | none =>
    { s.withWriter i (.live tick rest none) with
      store := Function.update s.store bar (some tick.candle) }
  | some c =>
    s.withWriter i (.live tick rest (if guarded timeframe c then none else some (bar, c)))

def save (s : Feed) (i : ℕ) (tick : LiveTick) (rest : List Timeframe) (bar : Bar) (found : Candle) :
    Feed :=
  { s.withWriter i (.live tick rest none) with
    store := Function.update s.store bar ((s.store bar).map (tick.saveOn found)) }

/-- The candles of a market and timeframe are inserted or replaced, in one transaction. -/
def upsert (s : Feed) (market : ℕ) (timeframe : Timeframe) (incoming : Incoming) : Feed :=
  { s with
    store := fun bar => incoming.at market timeframe bar <|> s.store bar
    persisted := fun bar => incoming.at market timeframe bar <|> s.persisted bar }

/-- `bulk_create` with `ignore_conflicts`. -/
def insertMissing (s : Feed) (market : ℕ) (incoming : Incoming) : Feed :=
  { s with
    store := fun bar => s.store bar <|> incoming.at market .tick bar
    persisted := fun bar =>
      if (s.store bar).isSome then s.persisted bar
      else incoming.at market .tick bar <|> s.persisted bar }

/-- `bulk_update` of all columns but the volume. -/
def replaceStored (s : Feed) (market : ℕ) (incoming : Incoming) : Feed :=
  { s with
    store := fun bar =>
      match s.store bar, incoming.at market .tick bar with
      | some c, some fresh => some { fresh with volume := c.volume }
      | old, _ => old
    persisted := fun bar =>
      if (s.store bar).isSome then incoming.at market .tick bar <|> s.persisted bar
      else s.persisted bar }

end Feed

def feedStep (s : Feed) : FeedStep → Option Feed
  | .ingest tick => some { s with writers := s.writers ++ [.live tick Timeframe.all none] }
  | .find i =>
    match s.writers[i]? with
    | some (.live tick (timeframe :: rest) none) => some (s.find i tick timeframe rest)
    | _ => none
  | .save i =>
    match s.writers[i]? with
    | some (.live tick rest (some (bar, found))) => some (s.save i tick rest bar found)
    | _ => none
  | .persistCandles market timeframe items =>
    some (s.upsert market timeframe (incomingCandles timeframe items))
  | .persistTicks market items =>
    let inserted := s.insertMissing market (candleByEpoch items)
    some { inserted with writers := s.writers ++ [.history market items] }
  | .replace i =>
    match s.writers[i]? with
    | some (.history market items) =>
      some ((s.replaceStored market (candleByEpoch items)).withWriter i .ended)
    | _ => none
  | .abandon i => if i < s.writers.length then some (s.withWriter i .ended) else none

/-- The writers of the candles. -/
def feed : Machine Feed FeedStep where
  next := feedStep

/-! ## What is kept -/

namespace Feed

/-- The candles of the connected broker have the values that it gave last. -/
def Faithful (s : Feed) : Prop :=
  ∀ bar c, s.store bar = some c → c.source = .connected_broker → s.persisted bar = some c

/-- The candles of the connected broker are left as they are. -/
def Kept (s s' : Feed) : Prop :=
  ∀ bar c, s.store bar = some c → c.source = .connected_broker → s'.store bar = some c

/-- A tick is about to save one of the candles. -/
def awaited (s : Feed) (market : ℕ) (timeframe : Timeframe) (incoming : Incoming) : Bool :=
  s.writers.any fun
    | .live _ _ (some (bar, _)) => (incoming.at market timeframe bar).isSome
    | _ => false

/-- A tick finds candles of the broker only where they are protected, broker data are not persisted
over a candle that a tick is about to save, and the tick history replaces no volume. -/
def careful (s : Feed) : FeedStep → Bool
  | .find i =>
    match s.writers[i]? with
    | some (.live tick (timeframe :: _) none) =>
      (s.store (tick.bar timeframe)).all fun c =>
        c.source ≠ .connected_broker || 60 ≤ timeframe.seconds
    | _ => true
  | .persistCandles market timeframe items =>
    !s.awaited market timeframe (incomingCandles timeframe items)
  | .replace i =>
    match s.writers[i]? with
    | some (.history market items) =>
      !s.awaited market .tick (candleByEpoch items) &&
        items.all fun item => (s.store ⟨market, .tick, item.epoch⟩).all fun c => c.volume = 0
    | _ => true
  | _ => true

/-- What holds of the feed in a careful run: the broker's values, and that no tick is about to save
a candle of the broker. -/
structure Inv (s : Feed) : Prop where
  faithful : s.Faithful
  held : ∀ tick rest bar found, .live tick rest (some (bar, found)) ∈ s.writers →
    ∃ c, s.store bar = some c ∧ c.source ≠ .connected_broker

theorem initial_inv : initial.Inv := by
  constructor
  · intro bar c hc
    cases hc
  · intro tick rest bar found hmem
    cases hmem

end Feed

/-! ## The incoming candles -/

section Incoming

variable {timeframe : Timeframe} {market : ℕ} {incoming : Incoming} {bar : Bar} {c : Candle} {e : ℤ}

/-- A candle of the tick history. -/
def IsQuoted (items : List TickItem) (e : ℤ) (c : Candle) : Prop :=
  c.source = .connected_broker ∧ c.volume = 0 ∧ ∃ item ∈ items, item.epoch = e

theorem isQuoted_addQuote {items : List TickItem} {acc : Incoming} {row : TickItem}
    (hrow : row ∈ items) (hacc : ∀ e c, acc e = some c → IsQuoted items e c)
    (hc : addQuote acc row e = some c) : IsQuoted items e c := by
  unfold addQuote at hc
  rw [Function.update_apply] at hc
  split at hc
  · next he =>
    cases hold : acc row.epoch with
    | none =>
      rw [hold] at hc
      cases hc
      exact ⟨rfl, rfl, row, hrow, he.symm⟩
    | some old =>
      rw [hold] at hc
      cases hc
      obtain ⟨hsource, hvolume, _⟩ := hacc _ _ hold
      exact ⟨hsource, hvolume, row, hrow, he.symm⟩
  · exact hacc e c hc

theorem isQuoted_of_candleByEpoch {items : List TickItem} (hc : candleByEpoch items e = some c) :
    IsQuoted items e c := by
  suffices hfold : ∀ rows : List TickItem, (∀ row ∈ rows, row ∈ items) → ∀ acc : Incoming,
      (∀ e c, acc e = some c → IsQuoted items e c) →
        ∀ e c, rows.foldl addQuote acc e = some c → IsQuoted items e c by
    refine hfold _ (fun row hrow => ?_) (fun _ => none) ?_ e c hc
    · exact (List.mem_filter.mp (List.mem_eraseDups.mp hrow)).1
    · intro e c hnone
      cases hnone
  intro rows
  induction rows with
  | nil => exact fun _ _ hacc => hacc
  | cons row rows ih =>
    intro hrows acc hacc
    refine ih (fun r hr => hrows r (List.mem_cons_of_mem row hr)) _ fun e c hc => ?_
    exact isQuoted_addQuote (hrows row List.mem_cons_self) hacc hc

theorem Incoming.of_at (hc : incoming.at market timeframe bar = some c) :
    bar = ⟨market, timeframe, bar.epoch⟩ ∧ incoming bar.epoch = some c := by
  unfold Incoming.at at hc
  split at hc
  · next hbar => exact ⟨Bar.ext hbar.1 hbar.2 rfl, hc⟩
  · cases hc

end Incoming

/-! ## One step -/

namespace Feed

variable {s s' : Feed} {i market : ℕ} {tick : LiveTick} {timeframe : Timeframe} {bar : Bar}
  {incoming : Incoming} {x : FeedStep}

theorem mem_withWriter {w w' : Writer} (hw : w ∈ (s.withWriter i w').writers) :
    w = w' ∨ w ∈ s.writers :=
  (List.mem_or_eq_of_mem_set hw).symm

theorem at_of_not_awaited {rest : List Timeframe} {found : Candle}
    (hfree : s.awaited market timeframe incoming = false)
    (hmem : .live tick rest (some (bar, found)) ∈ s.writers) :
    incoming.at market timeframe bar = none := by
  have hnot := List.any_eq_false.mp hfree _ hmem
  simpa using hnot

/-- A candle that is not the broker's is created or saved. -/
theorem Inv.update (hs : s.Inv) (changed : Bar) (row : Candle)
    (hold : ∀ c, s.store changed = some c → c.source ≠ .connected_broker)
    (hrow : row.source ≠ .connected_broker)
    (hstore : s'.store = Function.update s.store changed (some row))
    (hpersisted : s'.persisted = s.persisted)
    (hwriters : ∀ tick rest bar found, .live tick rest (some (bar, found)) ∈ s'.writers →
      .live tick rest (some (bar, found)) ∈ s.writers) : s'.Inv ∧ s.Kept s' := by
  refine ⟨⟨?_, ?_⟩, ?_⟩
  · intro b c hc hsource
    rw [hstore, Function.update_apply] at hc
    split at hc
    · cases hc
      exact absurd hsource hrow
    · rw [hpersisted]
      exact hs.faithful b c hc hsource
  · intro tick rest b found hmem
    obtain ⟨c, hc, hsource⟩ := hs.held tick rest b found (hwriters _ _ _ _ hmem)
    by_cases hb : b = changed
    · exact ⟨row, by rw [hstore, hb, Function.update_self], hrow⟩
    · exact ⟨c, by rw [hstore, Function.update_of_ne hb, hc], hsource⟩
  · intro b c hc hsource
    have hb : b ≠ changed := by
      rintro rfl
      exact hold c hc hsource
    rw [hstore, Function.update_of_ne hb, hc]

theorem Inv.find {rest : List Timeframe} (hs : s.Inv)
    (hcareful : ∀ c, s.store (tick.bar timeframe) = some c →
      c.source ≠ .connected_broker ∨ 60 ≤ timeframe.seconds) :
    (s.find i tick timeframe rest).Inv ∧ s.Kept (s.find i tick timeframe rest) := by
  unfold Feed.find
  dsimp only
  cases hstore : s.store (tick.bar timeframe) with
  | none =>
    refine hs.update (tick.bar timeframe) tick.candle ?_ nofun rfl rfl ?_
    · intro c hc
      rw [hstore] at hc
      cases hc
    · intro tick' rest' bar found hmem
      rcases mem_withWriter hmem with hnew | hold
      · cases hnew
      · exact hold
  | some c =>
    refine ⟨⟨hs.faithful, ?_⟩, fun _ _ hc _ => hc⟩
    intro tick' rest' bar found hmem
    rcases mem_withWriter hmem with hnew | hold
    · -- what is held is not guarded, so it is not the broker's
      injection hnew with _ _ hheld
      split at hheld
      · cases hheld
      · next hguard =>
        obtain ⟨rfl, rfl⟩ := Prod.mk.inj (Option.some.inj hheld)
        refine ⟨found, hstore, fun hsource => hguard ?_⟩
        have hminute := (hcareful found hstore).resolve_left (not_not.mpr hsource)
        simp [guarded, hsource, hminute]
    · exact hs.held tick' rest' bar found hold

theorem Inv.save {rest : List Timeframe} {found : Candle} (hs : s.Inv)
    (hmem : .live tick rest (some (bar, found)) ∈ s.writers) :
    (s.save i tick rest bar found).Inv ∧ s.Kept (s.save i tick rest bar found) := by
  obtain ⟨c, hc, hsource⟩ := hs.held tick rest bar found hmem
  refine hs.update bar (tick.saveOn found c) ?_ hsource ?_ rfl ?_
  · intro c' hc'
    obtain rfl := Option.some.inj (hc.symm.trans hc')
    exact hsource
  · simp [Feed.save, hc]
  · intro tick' rest' bar' found' hmem'
    rcases mem_withWriter hmem' with hnew | hold
    · cases hnew
    · exact hold

/-- Broker data that no tick is about to save over are kept until the next ones. -/
theorem Inv.upsert (hs : s.Inv) (hfree : s.awaited market timeframe incoming = false) :
    (s.upsert market timeframe incoming).Inv := by
  constructor
  · intro b c hc hsource
    cases hat : incoming.at market timeframe b with
    | some fresh => simpa [Feed.upsert, hat] using hc
    | none =>
      have hold : s.store b = some c := by simpa [Feed.upsert, hat] using hc
      simpa [Feed.upsert, hat] using hs.faithful b c hold hsource
  · intro tick rest b found hmem
    obtain ⟨c, hc, hsource⟩ := hs.held tick rest b found hmem
    exact ⟨c, by simp [Feed.upsert, at_of_not_awaited hfree hmem, hc], hsource⟩

theorem Inv.insertMissing (hs : s.Inv) : (s.insertMissing market incoming).Inv := by
  constructor
  · intro b c hc hsource
    cases hstore : s.store b with
    | some old =>
      have hold : old = c := by simpa [Feed.insertMissing, hstore] using hc
      have hfaithful := hs.faithful b c (hold ▸ hstore) hsource
      simpa [Feed.insertMissing, hstore] using hfaithful
    | none =>
      have hat : incoming.at market .tick b = some c := by
        simpa [Feed.insertMissing, hstore] using hc
      simp [Feed.insertMissing, hstore, hat]
  · intro tick rest b found hmem
    obtain ⟨c, hc, hsource⟩ := hs.held tick rest b found hmem
    exact ⟨c, by simp [Feed.insertMissing, hc], hsource⟩

theorem Inv.replaceStored {items : List TickItem} (hs : s.Inv)
    (hfree : s.awaited market .tick (candleByEpoch items) = false)
    (hvolume : ∀ item ∈ items, ∀ c, s.store ⟨market, .tick, item.epoch⟩ = some c → c.volume = 0) :
    (s.replaceStored market (candleByEpoch items)).Inv := by
  constructor
  · intro b c hc hsource
    cases hstore : s.store b with
    | none => simp [Feed.replaceStored, hstore] at hc
    | some old =>
      cases hat : (candleByEpoch items).at market .tick b with
      | none =>
        have hold : old = c := by simpa [Feed.replaceStored, hstore, hat] using hc
        have hfaithful := hs.faithful b c (hold ▸ hstore) hsource
        simpa [Feed.replaceStored, hstore, hat] using hfaithful
      | some fresh =>
        -- the volume is left, and both are zero
        obtain ⟨hbar, hfresh⟩ := Incoming.of_at hat
        obtain ⟨_, hzero, item, hitem, hepoch⟩ := isQuoted_of_candleByEpoch hfresh
        rw [hbar, ← hepoch] at hstore
        have hsame : ({ fresh with volume := old.volume } : Candle) = fresh := by
          rw [hvolume item hitem old hstore, ← hzero]
        rw [← hepoch] at hbar
        rw [hbar] at hc hat ⊢
        have hc' : fresh = c := by
          simpa [Feed.replaceStored, hstore, hat, hsame] using hc
        simp [Feed.replaceStored, hstore, hat, hc']
  · intro tick rest b found hmem
    obtain ⟨c, hc, hsource⟩ := hs.held tick rest b found hmem
    exact ⟨c, by simp [Feed.replaceStored, at_of_not_awaited hfree hmem, hc], hsource⟩

/-- A writer that has come to its end holds no candle. -/
theorem Inv.withEnded (hs : s.Inv) : (s.withWriter i .ended).Inv := by
  refine ⟨hs.faithful, fun tick rest bar found hmem => ?_⟩
  rcases mem_withWriter hmem with hnew | hold
  · cases hnew
  · exact hs.held tick rest bar found hold

theorem Inv.append {w : Writer} (hs : s.Inv)
    (hw : ∀ tick rest bar found, w ≠ .live tick rest (some (bar, found))) :
    Inv { s with writers := s.writers ++ [w] } := by
  refine ⟨hs.faithful, fun tick rest bar found hmem => ?_⟩
  rcases List.mem_append.mp hmem with hold | hnew
  · exact hs.held tick rest bar found hold
  · exact absurd (List.mem_singleton.mp hnew).symm (hw tick rest bar found)

/-- A careful step keeps the invariant, and if it is one of a live tick, the broker's candles. -/
theorem careful_step (hs : s.Inv) (hcareful : s.careful x = true) (hnext : feed.next s x = some s') :
    s'.Inv ∧ (x.live = true → s.Kept s') := by
  change feedStep s x = some s' at hnext
  cases x with
  | ingest tick =>
    cases hnext
    refine ⟨hs.append ?_, fun _ _ _ hc _ => hc⟩
    intro tick' rest bar found hw
    cases hw
  | find i =>
    simp only [feedStep] at hnext
    split at hnext
    · next tick timeframe rest hwriter =>
      cases hnext
      have hall : ∀ c, s.store (tick.bar timeframe) = some c →
          c.source ≠ .connected_broker ∨ 60 ≤ timeframe.seconds := by
        intro c hc
        simpa [careful, hwriter, hc] using hcareful
      exact ⟨(hs.find hall).1, fun _ => (hs.find hall).2⟩
    · cases hnext
  | save i =>
    simp only [feedStep] at hnext
    split at hnext
    · next tick rest bar found hwriter =>
      cases hnext
      have hmem := List.mem_of_getElem? hwriter
      exact ⟨(hs.save hmem).1, fun _ => (hs.save hmem).2⟩
    · cases hnext
  | persistCandles market timeframe items =>
    cases hnext
    exact ⟨hs.upsert (by simpa [careful] using hcareful), nofun⟩
  | persistTicks market items =>
    cases hnext
    refine ⟨hs.insertMissing.append ?_, nofun⟩
    intro tick rest bar found hw
    cases hw
  | replace i =>
    simp only [feedStep] at hnext
    split at hnext
    · next market items hwriter =>
      cases hnext
      simp only [careful, hwriter, Bool.and_eq_true, Bool.not_eq_true', List.all_eq_true] at hcareful
      refine ⟨(hs.replaceStored hcareful.1 ?_).withEnded, nofun⟩
      intro item hitem c hc
      simpa [hc] using hcareful.2 item hitem
    · cases hnext
  | abandon i =>
    simp only [feedStep] at hnext
    split at hnext
    · cases hnext
      exact ⟨hs.withEnded, nofun⟩
    · cases hnext

end Feed

/-! ## Runs -/

/-- In a careful run the candles of the connected broker have the values that it gave last, and no
live tick changes them. -/
theorem brokers_kept {xs : List FeedStep} {s : Feed}
    (hrun : feed.RunIf (fun s x => s.careful x = true) Feed.initial xs s) :
    s.Faithful ∧ ∀ x s', s.careful x = true → feed.next s x = some s' → x.live = true → s.Kept s' := by
  have hinv : s.Inv := by
    refine hrun.invariant ?_ Feed.initial_inv
    intro s x s' hcareful hs hnext
    exact (Feed.careful_step hs hcareful hnext).1
  refine ⟨hinv.faithful, fun x s' hcareful hnext hlive => ?_⟩
  exact (Feed.careful_step hinv hcareful hnext).2 hlive

/-- A minute of the broker, and a live tick in it. -/
theorem minute_kept : ∃ s, feed.RunIf (fun s x => s.careful x = true) Feed.initial
      ([.persistCandles 1 .m1 [⟨120, 100, 103, 99, 102, 2⟩], .ingest ⟨1, 150, 105, 1⟩] ++
        List.replicate 6 (.find 0)) s ∧ s.Faithful := by
  have henabled : (feed.execIf (fun s x => s.careful x = true) Feed.initial
      ([.persistCandles 1 .m1 [⟨120, 100, 103, 99, 102, 2⟩], .ingest ⟨1, 150, 105, 1⟩] ++
        List.replicate 6 (.find 0))).isSome = true := by
    decide +kernel
  obtain ⟨s, hrun⟩ := Machine.exists_runIf henabled
  exact ⟨s, hrun, (brokers_kept hrun).1⟩

/-- A tick of the history, and then a live one of the same second with another quote. -/
theorem tick_overwrites : ¬ ∀ xs s, feed.Run Feed.initial xs s → s.Faithful := by
  intro hall
  have hexec : (feed.exec Feed.initial
      [.persistTicks 1 [⟨100, 5⟩], .ingest ⟨1, 100, 7, 1⟩, .find 1, .save 1]).map
        (fun s => (s.store ⟨1, .tick, 100⟩, s.persisted ⟨1, .tick, 100⟩)) =
      some (some ⟨5, 7, 5, 7, 1, .connected_broker⟩, some ⟨5, 5, 5, 5, 0, .connected_broker⟩) := by
    decide +kernel
  obtain ⟨s, hs, hvalues⟩ := Option.map_eq_some_iff.mp hexec
  obtain ⟨hstore, hpersisted⟩ := Prod.mk.inj hvalues
  have hsame := hall _ s (Machine.exec_eq_some_iff.mp hs) _ _ hstore rfl
  rw [hpersisted] at hsame
  revert hsame
  decide +kernel

end AlgoBot.MarketData
