import AlgoBot.Core.AsOf
import AlgoBot.Core.Double
import AlgoBot.MarketData.History
import AlgoBot.Strategies.Parity

/-!
# The dataset of directions

`build_direction_dataset` makes a row of features for each candle from the
sixtieth to the last but one: from the window of sixty candles that ends there,
and from what had been observed until then. The observations of news and of order
books are loaded once, up to the last candle but one, and cut off for each row.

* `dataset_ascending`: the candles come in the order of their epochs.
* `features_asof`: what is cut off the timeline is what was known.
* `features_of_row`: every row of the dataset is made at an index of the loop.
* `featuresAt_congr`: a row depends on the candles up to its own and on what was known then.
-/

namespace AlgoBot.AiEngine.Dataset

open AlgoBot.Core AlgoBot.Python AlgoBot.MarketData
open AlgoBot.Strategies.Parity (Sums)

/-! ## What is observed -/

/-- Times are in microseconds. -/
structure Outcome where
  symbol : String
  timeframe : String
  resolved_at : Option ℤ
  correct : Option Bool
  actual_return : Double

structure StrategySignal where
  symbol : String
  timestamp : ℤ
  /-- The timeframe of its configuration, where there is one. -/
  timeframe : Option String
  signal : Option String
  confidence : Option ℚ

structure Sentiment where
  symbol : String
  published_at : ℤ
  compound : Double
  positive : Double
  negative : Double

structure Book where
  symbol : String
  observed_at : ℤ
  imbalance : Double
  bid_volume : Double
  ask_volume : Double
  spread_bps : Double

/-- The observations that are stored. -/
structure Observations where
  outcomes : List Outcome
  signals : List StrategySignal
  sentiments : List Sentiment
  books : List Book

/-- `datetime.fromtimestamp(epoch)`. -/
def micros (epoch : ℤ) : ℤ := 1000000 * epoch

/-- `timestamp()`, in seconds. -/
def timestamp (time : ℤ) : Double := Double.ofRat (time / 1000000)

/-! ## Feedback and signals -/

def aliases : List (String × List String) :=
  [("1s", ["1s", "S1"]), ("5s", ["5s", "S5"]), ("15s", ["15s", "S15"]), ("30s", ["30s", "S30"]),
    ("1m", ["1m", "M1"]), ("2m", ["2m", "M2"]), ("5m", ["5m", "M5"]), ("10m", ["10m", "M10"]),
    ("15m", ["15m", "M15"]), ("30m", ["30m", "M30"]), ("1h", ["1h", "H1"]), ("4h", ["4h", "H4"]),
    ("1d", ["1d", "D1"])]

/-- `_timeframe_storage_aliases`. -/
def timeframe_storage_aliases (h : Host) (timeframe : String) : List String :=
  let value := strip (if timeframe = "" then "M1" else timeframe)
  match aliases.lookup (h.lower value) with
  | some values => values
  | none =>
    match aliases.find? fun entry => entry.2.contains (upper h value) with
    | some entry => entry.2
    | none => [value]

/-- The resolved outcomes, with the time they were resolved at. -/
def resolved (outcomes : List Outcome) : List (ℤ × Outcome) :=
  outcomes.filterMap fun o => o.resolved_at.map fun t => (t, o)

/-- `_historical_ai_feedback`: accuracy, mean return and count. -/
def historical_ai_feedback (h : Host) (np : Sums) (outcomes : List Outcome)
    (symbol timeframe : String) (before_epoch : ℤ) : List Double :=
  let rows := AsOf.newest Prod.fst 100
    ((AsOf.upTo Prod.fst (micros before_epoch) (resolved outcomes)).filter fun row =>
      row.2.symbol = symbol && (timeframe_storage_aliases h timeframe).contains row.2.timeframe &&
        row.2.correct.isSome)
  if rows.isEmpty then [.fin 0, .fin 0, .fin 0]
  else
    [Double.ofRat (rows.countP (fun row => row.2.correct = some true) / rows.length),
      Double.div (np.sum (rows.map fun row => row.2.actual_return)) (Double.ofRat rows.length),
      Double.ofRat rows.length]

/-- `bias`. -/
def bias (h : Host) (signal : Option String) : Double :=
  let value := upper h (signal.getD "")
  if ["BUY", "LONG", "UP", "CALL"].contains value then .fin 1
  else if ["SELL", "SHORT", "DOWN", "PUT"].contains value then .fin (-1)
  else .fin 0

/-- `current_strategy_signal_features`, as of an epoch: bias, confidence and count. -/
def current_strategy_signal_features (h : Host) (np : Sums) (signals : List StrategySignal)
    (symbol timeframe : String) (before_epoch : ℤ) : List Double :=
  let rows := AsOf.newest StrategySignal.timestamp 100
    ((AsOf.upTo StrategySignal.timestamp (micros before_epoch) signals).filter fun row =>
      row.symbol = symbol && row.timeframe.any (timeframe_storage_aliases h timeframe).contains)
  if rows.isEmpty then [.fin 0, .fin 0, .fin 0]
  else
    [Double.div (np.sum (rows.map fun row => bias h row.signal)) (Double.ofRat rows.length),
      Double.div (Double.div (np.sum (rows.map fun row => Double.ofRat (row.confidence.getD 0)))
        (Double.ofRat rows.length)) (.fin 100),
      Double.ofRat rows.length]

/-! ## The timeline -/

/-- `ExternalSignalTimeline`. -/
structure Timeline where
  sentiment : List Sentiment
  books : List Book

/-- `ExternalSignalTimeline(symbol, first_epoch, last_epoch)`. -/
def Timeline.load (o : Observations) (symbol : String) (first_epoch last_epoch : ℤ) : Timeline where
  sentiment := AsOf.sorted Sentiment.published_at (o.sentiments.filter fun row =>
    row.symbol = symbol && micros (first_epoch - 86400) ≤ row.published_at &&
      row.published_at ≤ micros last_epoch)
  books := AsOf.sorted Book.observed_at (o.books.filter fun row =>
    row.symbol = symbol && micros (first_epoch - 300) ≤ row.observed_at &&
      row.observed_at ≤ micros last_epoch)

/-- The features of the recent sentiments, the last of them the newest. -/
def sentimentFeatures (np : Sums) (epoch : ℤ) (recent : List Sentiment) : List Double :=
  match recent.getLast? with
  | none => [.fin 0, .fin 0, .fin 0, .fin 1440, .fin 0]
  | some newest =>
    let mean (read : Sentiment → Double) : Double :=
      Double.div (np.sum (recent.map read)) (Double.ofRat recent.length)
    [mean Sentiment.compound, mean Sentiment.positive, mean Sentiment.negative,
      Double.pyMax (.fin 0)
        (Double.div (Double.sub (Double.ofRat epoch) (timestamp newest.published_at)) (.fin 60)),
      .fin 1]

/-- The features of the newest order book. -/
def bookFeatures (epoch : ℤ) (book : Option Book) : List Double :=
  match book with
  | none => [.fin 0, .fin 0, .fin 0, .fin 0]
  | some book =>
    if Double.le (Double.sub (Double.ofRat epoch) (timestamp book.observed_at)) (.fin 300) then
      [book.imbalance, Double.add book.bid_volume book.ask_volume, book.spread_bps, .fin 1]
    else [.fin 0, .fin 0, .fin 0, .fin 0]

/-- `ExternalSignalTimeline.features`. -/
def Timeline.features (np : Sums) (timeline : Timeline) (epoch : ℤ) : List Double :=
  let sentiment_end := AsOf.bisect Sentiment.published_at (micros epoch) timeline.sentiment
  let sentiment_start :=
    AsOf.bisect Sentiment.published_at (micros (epoch - 86400)) timeline.sentiment
  let recent := (timeline.sentiment.take sentiment_end).drop
    (max sentiment_start (sentiment_end - 100))
  let book_end := AsOf.bisect Book.observed_at (micros epoch) timeline.books
  sentimentFeatures np epoch recent ++
    bookFeatures epoch (timeline.books.take book_end).getLast?

/-! ## The rows -/

/-- `AIDataPipeline.dataset`; `none` is a `ValueError`. -/
def dataset (h : Host) (markets : List MarketSymbol) (candles : Candles) (symbol timeframe : String)
    (limit : ℕ) : Option (List (ℤ × Candle)) := do
  let canonical ← MarketData.normalize_timeframe h timeframe
  let row ← market h markets symbol
  some (newest (min (max limit 1) 10000) (stored candles row.pk canonical))

/-- A row, with its label and the return it was made of. -/
structure Row where
  features : List Double
  label : Bool
  next_return : Double

/-- The features of a candle; `none` where one of them raises. -/
def candleFeatures (h : Host) (np : Sums) (feature_vector : List (ℤ × Candle) → Option (List Double))
    (o : Observations) (symbol timeframe : String) (timeline : Timeline)
    (candles : List (ℤ × Candle)) (i : ℕ) (current : ℤ × Candle) : Option (List Double) :=
  -- `candles[i - 59 : i + 1]`
  (feature_vector ((candles.take (i + 1)).drop (i - 59))).map fun features =>
    features ++ historical_ai_feedback h np o.outcomes symbol timeframe current.1 ++
      current_strategy_signal_features h np o.signals symbol timeframe current.1 ++
      timeline.features np current.1

/-- The turn of the loop at an index; `none` where it goes on without a row. -/
def turn (h : Host) (np : Sums) (feature_vector : List (ℤ × Candle) → Option (List Double))
    (o : Observations) (symbol timeframe : String) (timeline : Timeline)
    (candles : List (ℤ × Candle)) (i : ℕ) : Option Row := do
  let current ← candles[i]?
  let next ← candles[i + 1]?
  let features ←
    candleFeatures h np feature_vector o symbol timeframe timeline candles i current
  let current_close := Double.ofRat current.2.close
  let next_close := Double.ofRat next.2.close
  if Double.eq current_close (.fin 0) then none
  else
    let next_return := Double.div (Double.sub next_close current_close) current_close
    some ⟨features, Double.lt (.fin 0) next_return, next_return⟩

/-- The timeline that is loaded for a list of candles. -/
def timelineOf (o : Observations) (symbol : String) (candles : List (ℤ × Candle)) :
    Option Timeline := do
  let first ← candles[60]?
  let last ← candles[candles.length - 2]?
  some (Timeline.load o symbol first.1 last.1)

/-- The rows of `build_direction_dataset` for the candles it has read; `none` is its
`ValueError`. -/
def build_direction_dataset (h : Host) (np : Sums)
    (feature_vector : List (ℤ × Candle) → Option (List Double)) (o : Observations)
    (symbol timeframe : String) (candles : List (ℤ × Candle)) : Option (List Row) := do
  if candles.length < 251 then none
  else
    let timeline ← timelineOf o symbol candles
    let rows := (List.range' 60 (candles.length - 1 - 60)).filterMap
      (turn h np feature_vector o symbol timeframe timeline candles)
    if rows.isEmpty then none else some rows

/-- The features of the row that is made for an index of the loop. -/
def featuresAt (h : Host) (np : Sums) (feature_vector : List (ℤ × Candle) → Option (List Double))
    (o : Observations) (symbol timeframe : String) (candles : List (ℤ × Candle)) (i : ℕ) :
    Option (List Double) := do
  let timeline ← timelineOf o symbol candles
  let row ← turn h np feature_vector o symbol timeframe timeline candles i
  some row.features

/-! ## What was known -/

/-- Both have the same observations up to an epoch. -/
structure Agree (epoch : ℤ) (o o' : Observations) : Prop where
  outcomes : AsOf.upTo Prod.fst (micros epoch) (resolved o.outcomes) =
    AsOf.upTo Prod.fst (micros epoch) (resolved o'.outcomes)
  signals : AsOf.upTo StrategySignal.timestamp (micros epoch) o.signals =
    AsOf.upTo StrategySignal.timestamp (micros epoch) o'.signals
  sentiments : AsOf.upTo Sentiment.published_at (micros epoch) o.sentiments =
    AsOf.upTo Sentiment.published_at (micros epoch) o'.sentiments
  books : AsOf.upTo Book.observed_at (micros epoch) o.books =
    AsOf.upTo Book.observed_at (micros epoch) o'.books

variable {h : Host} {np : Sums} {feature_vector : List (ℤ × Candle) → Option (List Double)}
  {o o' : Observations} {symbol timeframe : String} {epoch first last last' : ℤ}
  {candles candles' : List (ℤ × Candle)} {i : ℕ}

theorem micros_mono {a b : ℤ} (hle : a ≤ b) : micros a ≤ micros b := by
  unfold micros
  omega

theorem historical_ai_feedback_congr (hagree : Agree epoch o o') :
    historical_ai_feedback h np o.outcomes symbol timeframe epoch =
      historical_ai_feedback h np o'.outcomes symbol timeframe epoch := by
  unfold historical_ai_feedback
  rw [hagree.outcomes]

theorem strategy_signal_features_congr (hagree : Agree epoch o o') :
    current_strategy_signal_features h np o.signals symbol timeframe epoch =
      current_strategy_signal_features h np o'.signals symbol timeframe epoch := by
  unfold current_strategy_signal_features
  rw [hagree.signals]

/-- What is loaded up to a later epoch and was known at an epoch is sorted out of what was known. -/
theorem known_loaded {α : Type} (time : α → ℤ) (kept : α → Bool) (records : List α)
    (hlast : epoch ≤ last) :
    AsOf.upTo time (micros epoch)
        (AsOf.sorted time (records.filter fun row => kept row && time row ≤ micros last)) =
      AsOf.sorted time ((AsOf.upTo time (micros epoch) records).filter kept) := by
  rw [AsOf.upTo_sorted, AsOf.upTo_filter]
  congr 1
  apply List.filter_congr
  intro row hrow
  -- what was known had its time before the end of what is loaded
  have hle : time row ≤ micros epoch := by simpa using (List.mem_filter.mp hrow).2
  have hend : decide (time row ≤ micros last) = true :=
    decide_eq_true (hle.trans (micros_mono hlast))
  rw [hend, Bool.and_true]

/-- The sentiments that are loaded and were known at an epoch. -/
theorem known_sentiment (hlast : epoch ≤ last) :
    AsOf.upTo Sentiment.published_at (micros epoch) (Timeline.load o symbol first last).sentiment =
      AsOf.sorted Sentiment.published_at
        ((AsOf.upTo Sentiment.published_at (micros epoch) o.sentiments).filter fun row =>
          row.symbol = symbol && micros (first - 86400) ≤ row.published_at) :=
  known_loaded Sentiment.published_at _ o.sentiments hlast

theorem known_books (hlast : epoch ≤ last) :
    AsOf.upTo Book.observed_at (micros epoch) (Timeline.load o symbol first last).books =
      AsOf.sorted Book.observed_at
        ((AsOf.upTo Book.observed_at (micros epoch) o.books).filter fun row =>
          row.symbol = symbol && micros (first - 300) ≤ row.observed_at) :=
  known_loaded Book.observed_at _ o.books hlast

/-- The features of a timeline are made of what it has up to the epoch. -/
theorem features_asof (timeline : Timeline)
    (hsentiment : timeline.sentiment.Pairwise fun a b => a.published_at ≤ b.published_at)
    (hbooks : timeline.books.Pairwise fun a b => a.observed_at ≤ b.observed_at) :
    timeline.features np epoch =
      let known := AsOf.upTo Sentiment.published_at (micros epoch) timeline.sentiment
      sentimentFeatures np epoch (known.drop (max
          (AsOf.bisect Sentiment.published_at (micros (epoch - 86400)) known)
          (known.length - 100))) ++
        bookFeatures epoch
          (AsOf.upTo Book.observed_at (micros epoch) timeline.books).getLast? := by
  have hlength : (AsOf.upTo Sentiment.published_at (micros epoch) timeline.sentiment).length =
      AsOf.bisect Sentiment.published_at (micros epoch) timeline.sentiment := by
    rw [AsOf.upTo, AsOf.bisect, List.countP_eq_length_filter]
  have hstart : AsOf.bisect Sentiment.published_at (micros (epoch - 86400))
      (AsOf.upTo Sentiment.published_at (micros epoch) timeline.sentiment) =
        AsOf.bisect Sentiment.published_at (micros (epoch - 86400)) timeline.sentiment :=
    AsOf.bisect_upTo (micros_mono (by omega)) timeline.sentiment
  dsimp only
  rw [hstart, hlength, Timeline.features, AsOf.take_bisect hsentiment, AsOf.take_bisect hbooks]

/-- Timelines that end later have the same features. -/
theorem timeline_congr (hagree : Agree epoch o o') (hlast : epoch ≤ last) (hlast' : epoch ≤ last') :
    (Timeline.load o symbol first last).features np epoch =
      (Timeline.load o' symbol first last').features np epoch := by
  rw [features_asof _ (AsOf.pairwise_sorted _) (AsOf.pairwise_sorted _),
    features_asof _ (AsOf.pairwise_sorted _) (AsOf.pairwise_sorted _), known_sentiment hlast,
    known_sentiment hlast', known_books hlast, known_books hlast', hagree.sentiments, hagree.books]

/-! ## Rows -/

/-- The index is one of the loop. -/
def InLoop (candles : List (ℤ × Candle)) (i : ℕ) : Prop :=
  251 ≤ candles.length ∧ i ∈ List.range' 60 (candles.length - 1 - 60)

theorem InLoop.bounds (hi : InLoop candles i) : 60 ≤ i ∧ i + 1 < candles.length := by
  obtain ⟨hlength, hmem⟩ := hi
  rw [List.mem_range'_1] at hmem
  omega

/-- Every row of the dataset is made at an index of the loop. -/
theorem features_of_row {rows : List Row} {row : Row}
    (hbuild : build_direction_dataset h np feature_vector o symbol timeframe candles = some rows)
    (hrow : row ∈ rows) : ∃ i, InLoop candles i ∧
      featuresAt h np feature_vector o symbol timeframe candles i = some row.features := by
  unfold build_direction_dataset at hbuild
  split at hbuild
  · cases hbuild
  · next hlength =>
    obtain ⟨timeline, htimeline, hrows⟩ := Option.bind_eq_some_iff.mp hbuild
    obtain ⟨_, hsome⟩ := Option.ite_none_left_eq_some.mp hrows
    obtain rfl := Option.some.inj hsome
    obtain ⟨i, hi, hturn⟩ := List.mem_filterMap.mp hrow
    refine ⟨i, ⟨not_lt.mp hlength, hi⟩, ?_⟩
    simp [featuresAt, htimeline, hturn]

/-- The candles of a dataset come in the order of their epochs. -/
theorem dataset_ascending {markets : List MarketSymbol} {store : Candles} {limit : ℕ}
    (hdataset : dataset h markets store symbol timeframe limit = some candles) :
    Ascending candles := by
  unfold dataset at hdataset
  obtain ⟨canonical, _, hdataset⟩ := Option.bind_eq_some_iff.mp hdataset
  obtain ⟨row, _, hdataset⟩ := Option.bind_eq_some_iff.mp hdataset
  obtain rfl := Option.some.inj hdataset
  rw [newest_eq_drop]
  exact ascending_stored.sublist (List.drop_sublist _ _)

/-- A candle of the loop does not come after the end of the timeline. -/
theorem epoch_le_last (hascending : Ascending candles) (hi : i + 1 < candles.length)
    {current final : ℤ × Candle} (hcurrent : candles[i]? = some current)
    (hfinal : candles[candles.length - 2]? = some final) : current.1 ≤ final.1 := by
  obtain ⟨hi', rfl⟩ := List.getElem?_eq_some_iff.mp hcurrent
  obtain ⟨hlast, rfl⟩ := List.getElem?_eq_some_iff.mp hfinal
  rcases Nat.lt_or_eq_of_le (show i ≤ candles.length - 2 by omega) with hlt | heq
  · exact (List.pairwise_iff_getElem.mp hascending i (candles.length - 2) hi' hlast hlt).le
  · simp only [heq, le_refl]

theorem getElem?_of_take {α : Type} {xs ys : List α} {n k : ℕ} (hsame : xs.take n = ys.take n)
    (hk : k < n) : xs[k]? = ys[k]? := by
  rw [← List.getElem?_take_of_lt hk, hsame, List.getElem?_take_of_lt hk]

/-- The features of a row are those of its candle, which has a close that can be divided by. -/
theorem featuresAt_eq {current next first final : ℤ × Candle} (hcurrent : candles[i]? = some current)
    (hnext : candles[i + 1]? = some next) (hfirst : candles[60]? = some first)
    (hfinal : candles[candles.length - 2]? = some final) :
    featuresAt h np feature_vector o symbol timeframe candles i =
      (candleFeatures h np feature_vector o symbol timeframe
        (Timeline.load o symbol first.1 final.1) candles i current).bind fun features =>
          if Double.eq (Double.ofRat current.2.close) (.fin 0) then none else some features := by
  unfold featuresAt timelineOf turn
  simp only [hcurrent, hnext, hfirst, hfinal, Option.bind_eq_bind, Option.bind_some]
  cases candleFeatures h np feature_vector o symbol timeframe
    (Timeline.load o symbol first.1 final.1) candles i current with
  | none => rfl
  | some features =>
    simp only [Option.bind_some]
    split <;> rfl

/-- The features of a row depend on the candles up to its own, and on what had been observed by
then. -/
theorem featuresAt_congr (hascending : Ascending candles) (hascending' : Ascending candles')
    (hi : InLoop candles i) (hi' : InLoop candles' i)
    (hsame : candles.take (i + 1) = candles'.take (i + 1))
    (hagree : ∀ current, candles[i]? = some current → Agree current.1 o o') :
    featuresAt h np feature_vector o symbol timeframe candles i =
      featuresAt h np feature_vector o' symbol timeframe candles' i := by
  obtain ⟨hlow, hhigh⟩ := hi.bounds
  obtain ⟨_, hhigh'⟩ := hi'.bounds
  obtain ⟨current, hcurrent⟩ : ∃ current, candles[i]? = some current :=
    ⟨_, List.getElem?_eq_getElem (by omega)⟩
  obtain ⟨next, hnext⟩ : ∃ next, candles[i + 1]? = some next := ⟨_, List.getElem?_eq_getElem hhigh⟩
  obtain ⟨next', hnext'⟩ : ∃ next, candles'[i + 1]? = some next :=
    ⟨_, List.getElem?_eq_getElem hhigh'⟩
  obtain ⟨first, hfirst⟩ : ∃ first, candles[60]? = some first :=
    ⟨_, List.getElem?_eq_getElem (by omega)⟩
  obtain ⟨final, hfinal⟩ : ∃ final, candles[candles.length - 2]? = some final :=
    ⟨_, List.getElem?_eq_getElem (by omega)⟩
  obtain ⟨final', hfinal'⟩ : ∃ final, candles'[candles'.length - 2]? = some final :=
    ⟨_, List.getElem?_eq_getElem (by omega)⟩
  have hcurrent' : candles'[i]? = some current := by
    rw [← getElem?_of_take hsame (Nat.lt_succ_self i), hcurrent]
  have hfirst' : candles'[60]? = some first := by
    rw [← getElem?_of_take hsame (by omega), hfirst]
  have hknown := hagree current hcurrent
  have hlast := epoch_le_last hascending hhigh hcurrent hfinal
  have hlast' := epoch_le_last hascending' hhigh' hcurrent' hfinal'
  have hfeatures : candleFeatures h np feature_vector o symbol timeframe
      (Timeline.load o symbol first.1 final.1) candles i current =
        candleFeatures h np feature_vector o' symbol timeframe
          (Timeline.load o' symbol first.1 final'.1) candles' i current := by
    unfold candleFeatures
    rw [hsame, historical_ai_feedback_congr hknown, strategy_signal_features_congr hknown,
      timeline_congr hknown hlast hlast']
  rw [featuresAt_eq hcurrent hnext hfirst hfinal, featuresAt_eq hcurrent' hnext' hfirst' hfinal',
    hfeatures]

end AlgoBot.AiEngine.Dataset
