import Mathlib.Data.Finset.Card
import AlgoBot.MarketData.Aggregation

/-!
# The candles of the connected broker

`persist_candles` reads the records of the broker, leaves out those that are not candles of
the timeframe, keeps the last one of each epoch, and writes these over the stored candles.

* `persist_candles_upserts`: what is written, what is not touched, and what is counted.
* `duplicate_uncounted`: two records of one epoch are received, one is valid and none rejected.
-/

namespace AlgoBot.MarketData

open AlgoBot.Core AlgoBot.Python

/-! ## Records -/

/-- The records of a call, by their epochs. -/
abbrev Batch := AList fun _ : ℤ => CandleItem

/-- An integer that `str` does not convert. -/
def unprintable : Value → Bool
  | .int n => intMaxStrDigits < (Nat.toDigits 10 n.natAbs).length
  | _ => false

/-- `Decimal(str(value))` with `is_finite`; `none` is one of the exceptions that are caught. -/
def finiteDecimal (host : Host) (value : Value) : Option ℚ :=
  if unprintable value then none else (decimalOfText host (value.toStr host)).bind Dec.toRat

/-- What is read of a record; a key that is missing is a `KeyError`, and a record without keys a
`TypeError`. -/
def readCandle (host : Host) : Value → Option CandleItem
  | .dict item => do
    let epoch ← (← item.lookup "epoch").toInt host |>.toOption
    let opening ← finiteDecimal host (← item.lookup "open")
    let high ← finiteDecimal host (← item.lookup "high")
    let low ← finiteDecimal host (← item.lookup "low")
    let close ← finiteDecimal host (← item.lookup "close")
    let volume ← finiteDecimal host ((Dict.getD item "volume" (.int 0)).or (.int 0))
    return ⟨epoch, opening, high, low, close, volume⟩
  | _ => none

/-- A record that passes the checks. -/
def accepted (host : Host) (timeframe : Timeframe) (item : Value) : Option CandleItem :=
  (readCandle host item).filter fun c => c.valid timeframe.seconds

/-- The body of the loop: `incoming` and `invalid`. -/
def addRecord (host : Host) (timeframe : Timeframe) (s : Batch × ℕ) (item : Value) : Batch × ℕ :=
  match accepted host timeframe item with
  | some c => (s.1.insert c.epoch c, s.2)
  | none => (s.1, s.2 + 1)

def addRecords (host : Host) (timeframe : Timeframe) (items : List Value) : Batch × ℕ :=
  items.foldl (addRecord host timeframe) (∅, 0)

/-! ## Rows -/

/-- What a column of twenty digits takes. -/
def fitsColumn (x : ℚ) : Bool := |column x| < 10 ^ 12

def CandleItem.fits (c : CandleItem) : Bool :=
  (-2 ^ 63 ≤ c.epoch && c.epoch < 2 ^ 63) && fitsColumn c.opening && fitsColumn c.high &&
    fitsColumn c.low && fitsColumn c.close && fitsColumn c.volume

/-- The row of a record. -/
def CandleItem.row (c : CandleItem) : Candle :=
  ⟨column c.opening, column c.high, column c.low, column c.close, column c.volume,
    .connected_broker⟩

section Rows

variable (pk : ℕ) (timeframe : Timeframe)

/-- `bulk_create` with `ignore_conflicts`. -/
def bulkCreate (candles : Candles) (rows : List CandleItem) : Candles :=
  rows.foldl
    (fun candles c =>
      if (⟨pk, timeframe, c.epoch⟩ : Bar) ∈ candles then candles
      else candles.insert ⟨pk, timeframe, c.epoch⟩ c.row)
    candles

/-- `bulk_update` of the stored rows. -/
def bulkUpdate (candles : Candles) (rows : List CandleItem) : Candles :=
  rows.foldl
    (fun candles c =>
      if (⟨pk, timeframe, c.epoch⟩ : Bar) ∈ candles then
        candles.insert ⟨pk, timeframe, c.epoch⟩ c.row
      else candles)
    candles

end Rows

/-- The counters of `persist_candles`. -/
structure PersistReply where
  received : ℕ
  valid : ℕ
  rejected : ℕ
  stored_total : ℕ
  min_epoch : Option ℤ
  max_epoch : Option ℤ
  deriving DecidableEq

/-- `persist_candles`; a row that a column does not take undoes the transaction. -/
def persist_candles (host : Host) (markets : List MarketSymbol) (candles : Candles)
    (symbol timeframe : String) (items : List Value) : Except PyError (Candles × PersistReply) := do
  let some timeframe := normalize_timeframe host timeframe | throw .ValueError
  let some market := catalogue host markets (strip symbol) | throw .ValueError
  let (incoming, invalid) := addRecords host timeframe items
  let rows := incoming.entries.map fun entry => entry.2
  if !rows.all CandleItem.fits then throw .DataError
  let candles := bulkUpdate market.pk timeframe (bulkCreate market.pk timeframe candles rows) rows
  return (candles, {
    received := items.length
    valid := rows.length
    rejected := invalid
    stored_total := candles.entries.countP fun row =>
      row.1.market = market.pk && row.1.timeframe = timeframe
    min_epoch := incoming.keys.min?
    max_epoch := incoming.keys.max? })

/-! ## What the records say -/

section Records

variable {host : Host} {timeframe : Timeframe} {items : List Value} {item : Value}
  {c : CandleItem} {epoch : ℤ}

theorem accepted_valid (h : accepted host timeframe item = some c) :
    c.valid timeframe.seconds = true :=
  (Option.filter_eq_some_iff.mp h).2

/-- The last record of an epoch that passes the checks. -/
def lastOf (host : Host) (timeframe : Timeframe) (items : List Value) (epoch : ℤ) :
    Option CandleItem :=
  ((items.filterMap (accepted host timeframe)).filter fun c => c.epoch = epoch).getLast?

theorem addRecords_append :
    addRecords host timeframe (items ++ [item]) =
      addRecord host timeframe (addRecords host timeframe items) item := by
  rw [addRecords, List.foldl_append]
  rfl

theorem lastOf_append_some (h : accepted host timeframe item = some c) :
    lastOf host timeframe (items ++ [item]) epoch =
      if c.epoch = epoch then some c else lastOf host timeframe items epoch := by
  unfold lastOf
  rw [List.filterMap_append, List.filter_append, List.filterMap_cons_some h, List.filterMap_nil]
  split
  · next hepoch => simp [hepoch]
  · next hepoch => simp [hepoch]

theorem lastOf_append_none (h : accepted host timeframe item = none) :
    lastOf host timeframe (items ++ [item]) epoch = lastOf host timeframe items epoch := by
  unfold lastOf
  rw [List.filterMap_append, List.filterMap_cons_none h, List.filterMap_nil, List.append_nil]

/-- The batch has the last record of each epoch. -/
theorem lookup_addRecords :
    (addRecords host timeframe items).1.lookup epoch = lastOf host timeframe items epoch := by
  induction items using List.reverseRecOn with
  | nil => rfl
  | append_singleton items item ih =>
    rw [addRecords_append, addRecord]
    cases h : accepted host timeframe item with
    | none => rw [lastOf_append_none h, ← ih]
    | some c =>
      rw [lastOf_append_some h]
      show ((addRecords host timeframe items).1.insert c.epoch c).lookup epoch = _
      split
      · next hepoch => rw [← hepoch, AList.lookup_insert]
      · next hepoch => rw [AList.lookup_insert_ne fun heq => hepoch heq.symm, ih]

theorem rejected_addRecords :
    (addRecords host timeframe items).2 =
      items.countP fun item => (accepted host timeframe item).isNone := by
  induction items using List.reverseRecOn with
  | nil => rfl
  | append_singleton items item ih =>
    rw [addRecords_append, addRecord, List.countP_append, ← ih]
    cases h : accepted host timeframe item with
    | none => simp [h]
    | some c => simp [h]

theorem lastOf_epoch (h : lastOf host timeframe items epoch = some c) :
    c ∈ items.filterMap (accepted host timeframe) ∧ c.epoch = epoch := by
  have hmem := List.mem_of_getLast? h
  obtain ⟨hitem, hepoch⟩ := List.mem_filter.mp hmem
  exact ⟨hitem, by simpa using hepoch⟩

/-- The rows of a batch. -/
theorem mem_rows :
    c ∈ (addRecords host timeframe items).1.entries.map (fun entry => entry.2) ↔
      lastOf host timeframe items c.epoch = some c := by
  rw [List.mem_map]
  constructor
  · rintro ⟨⟨epoch, c'⟩, hentry, rfl⟩
    have hlookup := AList.mem_lookup_iff.mpr hentry
    rw [lookup_addRecords] at hlookup
    have hlast : lastOf host timeframe items epoch = some c' := hlookup
    rw [(lastOf_epoch hlast).2]
    exact hlast
  · intro hlast
    rw [← lookup_addRecords] at hlast
    exact ⟨⟨c.epoch, c⟩, AList.mem_lookup_iff.mp hlast, rfl⟩

theorem rows_distinct :
    ((addRecords host timeframe items).1.entries.map fun entry => entry.2).Pairwise
      fun a b => a.epoch ≠ b.epoch := by
  rw [List.pairwise_map]
  refine (List.nodupKeys_iff_pairwise.mp (addRecords host timeframe items).1.nodupKeys).imp_of_mem ?_
  intro a b ha hb hne
  have hkey : ∀ entry ∈ (addRecords host timeframe items).1.entries,
      entry.2.epoch = entry.1 := by
    intro entry hentry
    have hlookup := AList.mem_lookup_iff.mpr hentry
    rw [lookup_addRecords] at hlookup
    exact (lastOf_epoch hlookup).2
  rw [hkey a ha, hkey b hb]
  exact hne

/-- There is a last record of an epoch if there is any. -/
theorem exists_lastOf (hc : c ∈ items.filterMap (accepted host timeframe)) :
    ∃ d, lastOf host timeframe items c.epoch = some d := by
  have hne : (items.filterMap (accepted host timeframe)).filter (fun d => d.epoch = c.epoch) ≠ [] :=
    List.ne_nil_of_mem (List.mem_filter.mpr ⟨hc, by simp⟩)
  exact ⟨_, List.getLast?_eq_some_getLast hne⟩

/-- As many rows as the accepted records have epochs. -/
theorem length_rows :
    ((addRecords host timeframe items).1.entries.map fun entry => entry.2).length =
      ((items.filterMap (accepted host timeframe)).map CandleItem.epoch).toFinset.card := by
  have hnodup : (((addRecords host timeframe items).1.entries.map fun entry => entry.2).map
      CandleItem.epoch).Nodup := List.pairwise_map.mpr rows_distinct
  rw [← List.length_map CandleItem.epoch, ← List.toFinset_card_of_nodup hnodup]
  congr 1
  ext epoch
  rw [List.mem_toFinset, List.mem_toFinset, List.mem_map, List.mem_map]
  constructor
  · rintro ⟨c, hc, rfl⟩
    exact ⟨c, (lastOf_epoch (mem_rows.mp hc)).1, rfl⟩
  · rintro ⟨c, hc, rfl⟩
    obtain ⟨d, hd⟩ := exists_lastOf hc
    have hepoch := (lastOf_epoch hd).2
    exact ⟨d, mem_rows.mpr (by rw [hepoch, hd]), hepoch⟩

end Records

/-! ## What is written -/

section Written

variable {pk : ℕ} {timeframe : Timeframe} {candles : Candles} {rows : List CandleItem} {bar : Bar}
  {c : CandleItem}

theorem lookup_bulkCreate_other (hother : ∀ c ∈ rows, bar ≠ ⟨pk, timeframe, c.epoch⟩) :
    (bulkCreate pk timeframe candles rows).lookup bar = candles.lookup bar := by
  induction rows generalizing candles with
  | nil => rfl
  | cons c rows ih =>
    rw [bulkCreate, List.foldl_cons]
    refine (ih fun d hd => hother d (List.mem_cons_of_mem c hd)).trans ?_
    split
    · rfl
    · rw [AList.lookup_insert_ne (hother c List.mem_cons_self)]

theorem lookup_bulkUpdate_other (hother : ∀ c ∈ rows, bar ≠ ⟨pk, timeframe, c.epoch⟩) :
    (bulkUpdate pk timeframe candles rows).lookup bar = candles.lookup bar := by
  induction rows generalizing candles with
  | nil => rfl
  | cons c rows ih =>
    rw [bulkUpdate, List.foldl_cons]
    refine (ih fun d hd => hother d (List.mem_cons_of_mem c hd)).trans ?_
    split
    · rw [AList.lookup_insert_ne (hother c List.mem_cons_self)]
    · rfl

/-- A stored candle stays, and all the rows are stored. -/
theorem mem_bulkCreate (hbar : bar ∈ candles ∨ ∃ c ∈ rows, bar = ⟨pk, timeframe, c.epoch⟩) :
    bar ∈ bulkCreate pk timeframe candles rows := by
  induction rows generalizing candles with
  | nil =>
    rcases hbar with hbar | ⟨c, hc, _⟩
    · exact hbar
    · cases hc
  | cons c rows ih =>
    rw [bulkCreate, List.foldl_cons]
    apply ih
    rcases hbar with hbar | ⟨d, hd, hbar⟩
    · left
      split
      · exact hbar
      · exact (AList.mem_insert _).mpr (Or.inr hbar)
    · rcases List.mem_cons.mp hd with rfl | hd
      · left
        split
        · next hstored => rwa [hbar]
        · exact (AList.mem_insert _).mpr (Or.inl hbar)
      · exact Or.inr ⟨d, hd, hbar⟩

/-- A stored candle is replaced. -/
theorem lookup_bulkUpdate (hrows : rows.Pairwise fun a b => a.epoch ≠ b.epoch) (hc : c ∈ rows)
    (hstored : (⟨pk, timeframe, c.epoch⟩ : Bar) ∈ candles) :
    (bulkUpdate pk timeframe candles rows).lookup ⟨pk, timeframe, c.epoch⟩ = some c.row := by
  induction rows generalizing candles with
  | nil => cases hc
  | cons d rows ih =>
    obtain ⟨hd, hrest⟩ := List.pairwise_cons.mp hrows
    rw [bulkUpdate, List.foldl_cons]
    rcases List.mem_cons.mp hc with rfl | hc
    · -- the later rows have other epochs
      rw [if_pos hstored]
      refine (lookup_bulkUpdate_other fun e he => ?_).trans (AList.lookup_insert _)
      intro heq
      exact hd e he (congrArg Bar.epoch heq)
    · refine ih hrest hc ?_
      split
      · exact (AList.mem_insert _).mpr (Or.inr hstored)
      · exact hstored

theorem lookup_upsert_row (hrows : rows.Pairwise fun a b => a.epoch ≠ b.epoch) (hc : c ∈ rows) :
    (bulkUpdate pk timeframe (bulkCreate pk timeframe candles rows) rows).lookup
      ⟨pk, timeframe, c.epoch⟩ = some c.row :=
  lookup_bulkUpdate hrows hc (mem_bulkCreate (Or.inr ⟨c, hc, rfl⟩))

theorem lookup_upsert_other (hother : ∀ c ∈ rows, bar ≠ ⟨pk, timeframe, c.epoch⟩) :
    (bulkUpdate pk timeframe (bulkCreate pk timeframe candles rows) rows).lookup bar =
      candles.lookup bar :=
  (lookup_bulkUpdate_other hother).trans (lookup_bulkCreate_other hother)

end Written

/-- A candle of the timeframe. -/
structure Candle.Sound (c : Candle) (timeframe : Timeframe) (epoch : ℤ) : Prop where
  low_opening : c.low ≤ c.opening
  low_close : c.low ≤ c.close
  opening_high : c.opening ≤ c.high
  close_high : c.close ≤ c.high
  volume : 0 ≤ c.volume
  aligned : timeframe.seconds = 0 ∨ epoch % timeframe.seconds = 0

theorem column_zero : column 0 = 0 := OnGrid.column_eq ⟨0, by simp⟩

theorem CandleItem.row_sound {c : CandleItem} {timeframe : Timeframe}
    (h : c.valid timeframe.seconds = true) : c.row.Sound timeframe c.epoch := by
  simp only [CandleItem.valid, Bool.and_eq_true, Bool.not_eq_true', Bool.or_eq_false_iff,
    Bool.and_eq_false_iff, decide_eq_false_iff_not, not_lt, not_not, max_le_iff, le_min_iff] at h
  obtain ⟨haligned, ⟨⟨⟨hopening, hclose⟩, hlow, hlow'⟩, _⟩, hvolume⟩ := h
  constructor
  · exact column_mono hlow
  · exact column_mono hlow'
  · exact column_mono hopening
  · exact column_mono hclose
  · have hround := column_mono hvolume
    rwa [column_zero] at hround
  · simpa using haligned

/-! ## One call -/

section Call

variable {host : Host} {markets : List MarketSymbol} {candles candles' : Candles}
  {symbol timeframe_text : String} {items : List Value} {reply : PersistReply}

/-- What a call does that returns. -/
structure Upserts (host : Host) (timeframe : Timeframe) (pk : ℕ) (items : List Value)
    (candles candles' : Candles) (reply : PersistReply) : Prop where
  /-- The last accepted record of an epoch is stored. -/
  last_wins : ∀ epoch c, lastOf host timeframe items epoch = some c →
    candles'.lookup ⟨pk, timeframe, epoch⟩ = some c.row
  sound : ∀ epoch c, lastOf host timeframe items epoch = some c →
    c.row.Sound timeframe epoch
  untouched : ∀ bar : Bar, (bar.market = pk → bar.timeframe = timeframe →
    lastOf host timeframe items bar.epoch = none) → candles'.lookup bar = candles.lookup bar
  received : reply.received = items.length
  rejected : reply.rejected = items.countP fun item => (accepted host timeframe item).isNone
  valid : reply.valid =
    ((items.filterMap (accepted host timeframe)).map CandleItem.epoch).toFinset.card

/-- The parts of a call that returns. -/
theorem persist_candles_ok
    (hok : persist_candles host markets candles symbol timeframe_text items = .ok (candles', reply)) :
    ∃ timeframe market, normalize_timeframe host timeframe_text = some timeframe ∧
      catalogue host markets (strip symbol) = some market ∧
      ((addRecords host timeframe items).1.entries.map fun entry => entry.2).all
        CandleItem.fits = true ∧
      candles' = bulkUpdate market.pk timeframe (bulkCreate market.pk timeframe candles
        ((addRecords host timeframe items).1.entries.map fun entry => entry.2))
        ((addRecords host timeframe items).1.entries.map fun entry => entry.2) ∧
      reply.received = items.length ∧
      reply.valid = ((addRecords host timeframe items).1.entries.map fun entry => entry.2).length ∧
      reply.rejected = (addRecords host timeframe items).2 := by
  unfold persist_candles at hok
  cases htimeframe : normalize_timeframe host timeframe_text with
  | none =>
    rw [htimeframe] at hok
    cases hok
  | some timeframe =>
    cases hmarket : catalogue host markets (strip symbol) with
    | none =>
      rw [htimeframe, hmarket] at hok
      cases hok
    | some market =>
      rw [htimeframe, hmarket] at hok
      dsimp only at hok
      split at hok
      · cases hok
      · next hfits =>
        obtain ⟨rfl, rfl⟩ := Prod.mk.inj (Except.ok.inj hok)
        have hall : ((addRecords host timeframe items).1.entries.map fun entry => entry.2).all
            CandleItem.fits = true := eq_true_of_ne_false fun h => hfits (by rw [h]; rfl)
        exact ⟨timeframe, market, rfl, rfl, hall, rfl, rfl, rfl, rfl⟩

/-- Where the rows fit, the call returns. -/
theorem persist_candles_of_fits {timeframe : Timeframe} {market : MarketSymbol}
    (htimeframe : normalize_timeframe host timeframe_text = some timeframe)
    (hmarket : catalogue host markets (strip symbol) = some market)
    (hfits : ((addRecords host timeframe items).1.entries.map fun entry => entry.2).all
      CandleItem.fits = true) :
    ∃ candles' reply,
      persist_candles host markets candles symbol timeframe_text items = .ok (candles', reply) := by
  unfold persist_candles
  rw [htimeframe, hmarket]
  dsimp only
  rw [hfits]
  exact ⟨_, _, rfl⟩

theorem upserts_of_ok {timeframe : Timeframe} {market : MarketSymbol}
    (htimeframe : normalize_timeframe host timeframe_text = some timeframe)
    (hmarket : catalogue host markets (strip symbol) = some market)
    (hok : persist_candles host markets candles symbol timeframe_text items = .ok (candles', reply)) :
    Upserts host timeframe market.pk items candles candles' reply := by
  obtain ⟨_, _, htimeframe', hmarket', _, rfl, hreceived, hvalid, hrejected⟩ := persist_candles_ok hok
  obtain rfl := Option.some.inj (htimeframe.symm.trans htimeframe')
  obtain rfl := Option.some.inj (hmarket.symm.trans hmarket')
  constructor
  · intro epoch c hlast
    obtain rfl := (lastOf_epoch hlast).2
    exact lookup_upsert_row rows_distinct (mem_rows.mpr hlast)
  · intro epoch c hlast
    obtain ⟨hmem, rfl⟩ := lastOf_epoch hlast
    obtain ⟨item, _, hitem⟩ := List.mem_filterMap.mp hmem
    exact CandleItem.row_sound (accepted_valid hitem)
  · intro bar hnone
    refine lookup_upsert_other fun c hc heq => ?_
    have hlast := mem_rows.mp hc
    rw [heq] at hnone
    rw [hnone rfl rfl] at hlast
    cases hlast
  · exact hreceived
  · rw [hrejected, rejected_addRecords]
  · rw [hvalid, length_rows]

/-- A call that returns writes the last accepted record of each epoch, which is a candle of the
timeframe, over what is stored, and nothing else; a second call returns and changes nothing. Its
counters are all the records, those that are not accepted, and the epochs of the others. -/
theorem persist_candles_upserts
    (hok : persist_candles host markets candles symbol timeframe_text items = .ok (candles', reply)) :
    ∃ timeframe market, normalize_timeframe host timeframe_text = some timeframe ∧
      catalogue host markets (strip symbol) = some market ∧
      Upserts host timeframe market.pk items candles candles' reply ∧
      ∃ candles'' reply', persist_candles host markets candles' symbol timeframe_text items =
          .ok (candles'', reply') ∧
        ∀ bar, candles''.lookup bar = candles'.lookup bar := by
  obtain ⟨timeframe, market, htimeframe, hmarket, hfits, _⟩ := persist_candles_ok hok
  obtain ⟨candles'', reply', hagain⟩ :=
    @persist_candles_of_fits host markets candles' symbol timeframe_text items timeframe market
      htimeframe hmarket hfits
  have hfirst := upserts_of_ok htimeframe hmarket hok
  have hsecond := upserts_of_ok htimeframe hmarket hagain
  refine ⟨timeframe, market, htimeframe, hmarket, hfirst, candles'', reply', hagain, ?_⟩
  intro bar
  -- a row of the call, or one that neither call touches
  by_cases hbar : bar.market = market.pk ∧ bar.timeframe = timeframe
  · cases hlast : lastOf host timeframe items bar.epoch with
    | none => exact hsecond.untouched bar fun _ _ => hlast
    | some c =>
      have hrow : bar = ⟨market.pk, timeframe, bar.epoch⟩ := Bar.ext hbar.1 hbar.2 rfl
      rw [hrow, hsecond.last_wins bar.epoch c hlast, hfirst.last_wins bar.epoch c hlast]
  · exact hsecond.untouched bar fun hmarket' htimeframe' => absurd ⟨hmarket', htimeframe'⟩ hbar

end Call

def minuteItem (epoch : ℤ) (close : String) : Value :=
  .dict [("epoch", .int epoch), ("open", .str "100"), ("high", .str "103"), ("low", .str "99"),
    ("close", .str close), ("volume", .int 2)]

def minuteMarket : MarketSymbol := ⟨1, "R_100", true, true⟩

/-- A candle, one between two minutes, and one without values. -/
theorem three_records : ∃ candles reply, persist_candles Host.ascii [minuteMarket] ∅ "R_100" "1m"
      [minuteItem 120 "102", minuteItem 121 "102", .none] = .ok (candles, reply) ∧
    ∃ timeframe market, normalize_timeframe Host.ascii "1m" = some timeframe ∧
      catalogue Host.ascii [minuteMarket] (strip "R_100") = some market ∧
      Upserts Host.ascii timeframe market.pk [minuteItem 120 "102", minuteItem 121 "102", .none]
        ∅ candles reply ∧
      ∃ candles' reply', persist_candles Host.ascii [minuteMarket] candles "R_100" "1m"
          [minuteItem 120 "102", minuteItem 121 "102", .none] = .ok (candles', reply') ∧
        ∀ bar, candles'.lookup bar = candles.lookup bar := by
  have hreturns : (persist_candles Host.ascii [minuteMarket] ∅ "R_100" "1m"
      [minuteItem 120 "102", minuteItem 121 "102", .none]).toOption.isSome = true := by
    decide +kernel
  cases hok : persist_candles Host.ascii [minuteMarket] ∅ "R_100" "1m"
      [minuteItem 120 "102", minuteItem 121 "102", .none] with
  | error e =>
    rw [hok] at hreturns
    cases hreturns
  | ok result => exact ⟨result.1, result.2, rfl, persist_candles_upserts hok⟩

/-- Two records of one minute. -/
theorem duplicate_uncounted : ¬ ∀ host markets candles symbol timeframe items candles' reply,
    persist_candles host markets candles symbol timeframe items = .ok (candles', reply) →
      reply.received = reply.valid + reply.rejected := by
  intro hall
  have hcall : (persist_candles Host.ascii [minuteMarket] ∅ "R_100" "1m"
      [minuteItem 120 "102", minuteItem 120 "101"]).toOption.map
        (fun result => (result.2.received, result.2.valid, result.2.rejected)) =
      some (2, 1, 0) := by
    decide +kernel
  cases hok : persist_candles Host.ascii [minuteMarket] ∅ "R_100" "1m"
      [minuteItem 120 "102", minuteItem 120 "101"] with
  | error e =>
    rw [hok] at hcall
    cases hcall
  | ok result =>
    rw [hok] at hcall
    obtain ⟨hreceived, hrest⟩ := Prod.mk.inj (Option.some.inj hcall)
    obtain ⟨hvalid, hrejected⟩ := Prod.mk.inj hrest
    have hcount := hall _ _ _ _ _ _ result.1 result.2 hok
    rw [hreceived, hvalid, hrejected] at hcount
    cases hcount

end AlgoBot.MarketData
