import AlgoBot.MarketData.Aggregation

/-!
# Candles of several timeframes

`update_from_tick` brings the candles of all timeframes up to date with each tick. Where the
seconds of one timeframe divide those of another, the buckets of the finer one split those of the
coarser one, and so do the candles: nothing in the source computes one from the other.

* `sum_by_key`: a sum over a list, by the values of a key.
* `Tape.complete_step`: a bucket with a candle holds only ticks that have candles everywhere.
* `candles_nest`: in a careful run each candle is made of the finer ones in it.
-/

namespace AlgoBot.MarketData

open AlgoBot.Core

/-! ## Sums by a key -/

section Keys

variable {α κ : Type} [DecidableEq κ] (key : α → κ) (value : α → ℚ)

/-- What one element adds to the sums of all keys, its own among them. -/
theorem sum_of_key {keys : List κ} (hkeys : keys.Nodup) {x : α} (hx : key x ∈ keys)
    (group : κ → ℚ) :
    (keys.map fun k => if key x = k then value x + group k else group k).sum =
      value x + (keys.map group).sum := by
  induction keys with
  | nil => cases hx
  | cons k rest ih =>
    obtain ⟨hnew, hrest⟩ := List.nodup_cons.mp hkeys
    rw [List.map_cons, List.sum_cons, List.map_cons, List.sum_cons]
    by_cases hk : key x = k
    · have hothers : (rest.map fun k => if key x = k then value x + group k else group k) =
          rest.map group := by
        apply List.map_congr_left
        intro k' hk'
        rw [if_neg]
        rintro rfl
        exact hnew (hk ▸ hk')
      rw [if_pos hk, hothers, add_assoc]
    · rw [if_neg hk, ih hrest ((List.mem_cons.mp hx).resolve_left hk)]
      ring

/-- A sum is the sum over the keys of what has each of them. -/
theorem sum_by_key {keys : List κ} (hkeys : keys.Nodup) {xs : List α}
    (hxs : ∀ x ∈ xs, key x ∈ keys) :
    (xs.map value).sum =
      (keys.map fun k => ((xs.filter fun x => key x = k).map value).sum).sum := by
  induction xs with
  | nil => simp
  | cons x rest ih =>
    have hrest : ∀ y ∈ rest, key y ∈ keys := fun y hy => hxs y (List.mem_cons_of_mem x hy)
    rw [List.map_cons, List.sum_cons, ih hrest,
      ← sum_of_key key value hkeys (hxs x List.mem_cons_self)]
    congr 1
    apply List.map_congr_left
    intro k _
    by_cases hk : key x = k
    · rw [if_pos hk, List.filter_cons_of_pos (by simpa using hk), List.map_cons, List.sum_cons]
    · rw [if_neg hk, List.filter_cons_of_neg (by simpa using hk)]

end Keys

/-! ## Buckets -/

theorem bucket_eq {seconds : ℕ} (hseconds : 1 ≤ seconds) (epoch : ℤ) :
    bucket_epoch epoch seconds = seconds * (epoch / seconds) := by
  rw [bucket_epoch, if_neg (by omega), Int.emod_def]
  omega

theorem bucket_mono {seconds : ℕ} (hseconds : 1 ≤ seconds) {a b : ℤ} (hle : a ≤ b) :
    bucket_epoch a seconds ≤ bucket_epoch b seconds := by
  rw [bucket_eq hseconds, bucket_eq hseconds]
  have hdiv : a / (seconds : ℤ) ≤ b / seconds := Int.ediv_le_ediv (by omega) hle
  exact Int.mul_le_mul_of_nonneg_left hdiv (by omega)

/-- A finer bucket lies in the coarser one of each of its times. -/
theorem bucket_bucket {fine coarse : ℕ} (hfine : 1 ≤ fine) (hcoarse : 1 ≤ coarse)
    (hdvd : fine ∣ coarse) (epoch : ℤ) :
    bucket_epoch (bucket_epoch epoch fine) coarse = bucket_epoch epoch coarse := by
  obtain ⟨times, rfl⟩ := hdvd
  rw [bucket_eq hcoarse, bucket_eq hcoarse, bucket_eq hfine]
  have hpos : (0 : ℤ) < fine := by omega
  have hsplit : (fine : ℤ) * (epoch / fine) / ((fine * times : ℕ) : ℤ) =
      epoch / ((fine * times : ℕ) : ℤ) := by
    rw [Nat.cast_mul, Int.mul_ediv_mul_of_pos _ _ hpos, ← Int.ediv_ediv_of_nonneg hpos.le]
  rw [hsplit]

namespace Tape

/-! ## Candles of all timeframes -/

/-- The finer bar of a row. -/
def barOf (r : TickRow) (timeframe : Timeframe) : Bar :=
  ⟨r.market, timeframe, bucket_epoch r.epoch timeframe.seconds⟩

/-- The ticks of a bucket that has a candle have candles in every timeframe. -/
def Complete (s : Tape) : Prop :=
  ∀ bar c, 1 ≤ bar.timeframe.seconds → s.store bar = some c → ∀ r ∈ s.rowsIn bar,
    ∀ timeframe : Timeframe, 1 ≤ timeframe.seconds → (s.store (barOf r timeframe)).isSome = true

variable {s : Tape} {tick : LiveTick} {bar : Bar} {c : Candle} {r : TickRow}

theorem isSome_touched (tick : LiveTick) (timeframe : Timeframe) (found : Option Candle) :
    (touched tick timeframe found).isSome = true := by
  cases found with
  | none => rfl
  | some c =>
    rw [touched]
    split
    · rfl
    · rfl

/-- A new tick has all of its candles, and a candle that starts with it has no older tick. -/
theorem Complete.ingest (hs : s.Complete)
    (hfirst : ∀ timeframe, 1 ≤ timeframe.seconds → s.store (tick.bar timeframe) = none →
      s.rowsIn (tick.bar timeframe) = []) :
    Complete ⟨s.ticks ++ [row tick], updateFromTick s.store tick Timeframe.all⟩ := by
  have happly : ∀ bar, updateFromTick s.store tick Timeframe.all bar =
      if tick.bar bar.timeframe = bar then touched tick bar.timeframe (s.store bar)
      else s.store bar := by
    intro bar
    rw [updateFromTick_apply (by decide)]
    simp only [Timeframe.mem_all, true_and]
  have hgrows : ∀ bar, (s.store bar).isSome = true →
      (updateFromTick s.store tick Timeframe.all bar).isSome = true := by
    intro bar hsome
    rw [happly]
    split
    · exact isSome_touched tick _ _
    · exact hsome
  intro bar c hseconds hc r hr timeframe htimeframe
  show (updateFromTick s.store tick Timeframe.all (barOf r timeframe)).isSome = true
  have hc : updateFromTick s.store tick Timeframe.all bar = some c := hc
  have hmem := (List.mem_filter.mp hr).1
  rcases List.mem_append.mp hmem with hold | hnew
  · apply hgrows
    have hin : r ∈ s.rowsIn bar := List.mem_filter.mpr ⟨hold, (List.mem_filter.mp hr).2⟩
    cases hstore : s.store bar with
    | some found => exact hs bar found hseconds hstore r hin timeframe htimeframe
    | none =>
      rw [happly, hstore] at hc
      split at hc
      · next hbar =>
        rw [← hbar] at hstore hin
        rw [hfirst _ hseconds hstore] at hin
        cases hin
      · cases hc
  · obtain rfl := List.mem_singleton.mp hnew
    have hbar : tick.bar timeframe = barOf (row tick) timeframe := rfl
    rw [happly, ← hbar]
    exact (if_pos rfl).symm ▸ isSome_touched tick timeframe _

theorem Complete.insertTick (hs : s.Complete) {market : ℕ} {item : TickItem}
    (hitem : s.has market item.epoch item.quote = true ∨ ∀ timeframe : Timeframe,
      1 ≤ timeframe.seconds →
        s.store ⟨market, timeframe, bucket_epoch item.epoch timeframe.seconds⟩ = none) :
    (s.insertTick market item).Complete := by
  unfold Tape.insertTick
  split
  · next hinsert =>
    simp only [Bool.and_eq_true, Bool.not_eq_true'] at hinsert
    have hnone := hitem.resolve_left (by rw [hinsert.2]; nofun)
    intro bar c hseconds hc r hr timeframe htimeframe
    have hc : s.store bar = some c := hc
    show (s.store (barOf r timeframe)).isSome = true
    rw [rowsIn_append] at hr
    split at hr
    · next hin =>
      -- the bucket of the new row has no candle
      obtain ⟨rfl, hepoch⟩ := hin
      have hbar : bar = ⟨bar.market, bar.timeframe,
          bucket_epoch item.epoch bar.timeframe.seconds⟩ := Bar.ext rfl rfl hepoch.symm
      rw [hbar, hnone bar.timeframe hseconds] at hc
      cases hc
    · exact hs bar c hseconds hc r hr timeframe htimeframe
  · exact hs

theorem Complete.persistTicks {market : ℕ} {items : List TickItem} (hs : s.Complete)
    (hitems : ∀ item ∈ items, s.has market item.epoch item.quote = true ∨
      ∀ timeframe : Timeframe, 1 ≤ timeframe.seconds →
        s.store ⟨market, timeframe, bucket_epoch item.epoch timeframe.seconds⟩ = none) :
    (items.foldl (Tape.insertTick market) s).Complete := by
  induction items generalizing s with
  | nil => exact hs
  | cons item rest ih =>
    refine ih (hs.insertTick (hitems item List.mem_cons_self)) fun next hnext => ?_
    rw [store_insertTick]
    exact (hitems next (List.mem_cons_of_mem item hnext)).imp_left has_insertTick

/-- The bars of a finer timeframe in a bar. -/
def Within (fine : Timeframe) (bar b : Bar) : Prop :=
  b.market = bar.market ∧ b.timeframe = fine ∧
    bucket_epoch b.epoch bar.timeframe.seconds = bar.epoch

/-- A candle is made of the finer candles in its bar: it opens as the first of them, closes as the
last, reaches as far as they do, and has the volume of all. -/
structure Nested (s : Tape) (fine : Timeframe) (bar : Bar) (c : Candle) : Prop where
  opening : ∃ b d, Within fine bar b ∧ s.store b = some d ∧ d.opening = c.opening ∧
    ∀ b' d', Within fine bar b' → s.store b' = some d' → b.epoch ≤ b'.epoch
  close : ∃ b d, Within fine bar b ∧ s.store b = some d ∧ d.close = c.close ∧
    ∀ b' d', Within fine bar b' → s.store b' = some d' → b'.epoch ≤ b.epoch
  high : (∃ b d, Within fine bar b ∧ s.store b = some d ∧ d.high = c.high) ∧
    ∀ b d, Within fine bar b → s.store b = some d → d.high ≤ c.high
  low : (∃ b d, Within fine bar b ∧ s.store b = some d ∧ d.low = c.low) ∧
    ∀ b d, Within fine bar b → s.store b = some d → c.low ≤ d.low
  volume : ∃ epochs : List ℤ, epochs.Nodup ∧
    (∀ epoch, epoch ∈ epochs ↔ Within fine bar ⟨bar.market, fine, epoch⟩ ∧
      (s.store ⟨bar.market, fine, epoch⟩).isSome = true) ∧
    c.volume =
      (epochs.map fun epoch => (s.store ⟨bar.market, fine, epoch⟩).elim 0 Candle.volume).sum

/-- The rows of a finer bar in a bar are those of the bar that are in it. -/
theorem rowsIn_within {fine : Timeframe} {b : Bar} (hfine : 1 ≤ fine.seconds)
    (hcoarse : 1 ≤ bar.timeframe.seconds) (hdvd : fine.seconds ∣ bar.timeframe.seconds)
    (hb : Within fine bar b) :
    s.rowsIn b = (s.rowsIn bar).filter fun r => bucket_epoch r.epoch fine.seconds = b.epoch := by
  obtain ⟨hmarket, htimeframe, hepoch⟩ := hb
  unfold rowsIn
  rw [List.filter_filter]
  apply List.filter_congr
  intro r _
  by_cases hin : bucket_epoch r.epoch fine.seconds = b.epoch
  · have hcoarser : bucket_epoch r.epoch bar.timeframe.seconds = bar.epoch := by
      rw [← hepoch, ← hin, bucket_bucket hfine hcoarse hdvd]
    simp [hin, hcoarser, hmarket, htimeframe]
  · simp [hin, htimeframe]

/-- The finer bar of a row of a bar. -/
theorem within_barOf {fine : Timeframe} (hfine : 1 ≤ fine.seconds)
    (hcoarse : 1 ≤ bar.timeframe.seconds) (hdvd : fine.seconds ∣ bar.timeframe.seconds)
    (hr : r ∈ s.rowsIn bar) : Within fine bar (barOf r fine) := by
  have hin := (List.mem_filter.mp hr).2
  simp only [Bool.and_eq_true, decide_eq_true_eq] at hin
  exact ⟨hin.1, rfl, (bucket_bucket hfine hcoarse hdvd r.epoch).trans hin.2⟩

/-- The rows of a bar in one of its finer buckets. -/
def part (s : Tape) (fine : Timeframe) (bar : Bar) (epoch : ℤ) : List TickRow :=
  (s.rowsIn bar).filter fun r => bucket_epoch r.epoch fine.seconds = epoch

/-- Each row of a bar has a finer candle in it, and each of those is made of its rows. -/
structure Parts (s : Tape) (fine : Timeframe) (bar : Bar) : Prop where
  within : ∀ r ∈ s.rowsIn bar, Within fine bar (barOf r fine)
  found : ∀ r ∈ s.rowsIn bar, ∃ d, s.store (barOf r fine) = some d
  aggregate : ∀ b d, Within fine bar b → s.store b = some d →
    IsAggregate (s.part fine bar b.epoch) d

theorem Inv.parts {fine : Timeframe} (hs : s.Inv) (hcomplete : s.Complete)
    (hfine : 1 ≤ fine.seconds) (hcoarse : 1 ≤ bar.timeframe.seconds)
    (hdvd : fine.seconds ∣ bar.timeframe.seconds) (hc : s.store bar = some c) :
    s.Parts fine bar where
  within _ hr := within_barOf hfine hcoarse hdvd hr
  found r hr := Option.isSome_iff_exists.mp (hcomplete bar c hcoarse hc r hr fine hfine)
  aggregate b d hb hd := by
    unfold part
    rw [← rowsIn_within hfine hcoarse hdvd hb]
    exact hs.aggregate b d (by rw [hb.2.1]; exact hfine) hd

namespace Parts

variable {fine : Timeframe}

theorem of_row (hp : s.Parts fine bar) (hr : r ∈ s.rowsIn bar) :
    ∃ d, s.store (barOf r fine) = some d ∧
      IsAggregate (s.part fine bar (bucket_epoch r.epoch fine.seconds)) d := by
  obtain ⟨d, hd⟩ := hp.found r hr
  exact ⟨d, hd, hp.aggregate _ d (hp.within r hr) hd⟩

theorem mem_part (hr : r ∈ s.rowsIn bar) :
    r ∈ s.part fine bar (bucket_epoch r.epoch fine.seconds) :=
  List.mem_filter.mpr ⟨hr, by simp⟩

theorem exists_row (hp : s.Parts fine bar) {b : Bar} {d : Candle} (hb : Within fine bar b)
    (hd : s.store b = some d) :
    ∃ r ∈ s.rowsIn bar, bucket_epoch r.epoch fine.seconds = b.epoch := by
  obtain ⟨⟨r, hr, _⟩, _⟩ := (hp.aggregate b d hb hd).high
  obtain ⟨hmem, hin⟩ := List.mem_filter.mp hr
  exact ⟨r, hmem, by simpa using hin⟩

theorem high_le (hp : s.Parts fine bar) (hc : IsAggregate (s.rowsIn bar) c) {b : Bar} {d : Candle}
    (hb : Within fine bar b) (hd : s.store b = some d) : d.high ≤ c.high := by
  obtain ⟨⟨r, hr, hreach⟩, _⟩ := (hp.aggregate b d hb hd).high
  rw [← hreach]
  exact hc.high.2 r (List.mem_filter.mp hr).1

theorem low_le (hp : s.Parts fine bar) (hc : IsAggregate (s.rowsIn bar) c) {b : Bar} {d : Candle}
    (hb : Within fine bar b) (hd : s.store b = some d) : c.low ≤ d.low := by
  obtain ⟨⟨r, hr, hreach⟩, _⟩ := (hp.aggregate b d hb hd).low
  rw [← hreach]
  exact hc.low.2 r (List.mem_filter.mp hr).1

/-- The first row is the first of its finer bucket. -/
theorem opening (hp : s.Parts fine bar) (hfine : 1 ≤ fine.seconds)
    (hsorted : (s.rowsIn bar).Pairwise fun r r' => r.epoch ≤ r'.epoch)
    (hc : IsAggregate (s.rowsIn bar) c) :
    ∃ b d, Within fine bar b ∧ s.store b = some d ∧ d.opening = c.opening ∧
      ∀ b' d', Within fine bar b' → s.store b' = some d' → b.epoch ≤ b'.epoch := by
  have hopening := hc.opening
  cases hrows : s.rowsIn bar with
  | nil =>
    rw [hrows] at hopening
    cases hopening
  | cons first rest =>
    have hfirst : first ∈ s.rowsIn bar := by
      rw [hrows]
      exact List.mem_cons_self
    obtain ⟨d, hd, hpart⟩ := hp.of_row hfirst
    refine ⟨_, d, hp.within first hfirst, hd, ?_, ?_⟩
    · have hpartOpening := hpart.opening
      unfold part at hpartOpening
      rw [hrows] at hopening hpartOpening
      rw [List.filter_cons_of_pos (by simp)] at hpartOpening
      exact Option.some.inj (hpartOpening.symm.trans hopening)
    · intro b' d' hb' hd'
      obtain ⟨r, hr, hepoch⟩ := hp.exists_row hb' hd'
      rw [← hepoch]
      apply bucket_mono hfine
      rw [hrows] at hr hsorted
      rcases List.mem_cons.mp hr with rfl | hr
      · exact le_rfl
      · exact (List.pairwise_cons.mp hsorted).1 r hr

/-- The last row is the last of its finer bucket. -/
theorem close (hp : s.Parts fine bar) (hfine : 1 ≤ fine.seconds)
    (hsorted : (s.rowsIn bar).Pairwise fun r r' => r.epoch ≤ r'.epoch)
    (hc : IsAggregate (s.rowsIn bar) c) :
    ∃ b d, Within fine bar b ∧ s.store b = some d ∧ d.close = c.close ∧
      ∀ b' d', Within fine bar b' → s.store b' = some d' → b'.epoch ≤ b.epoch := by
  have hclose := hc.close
  rcases List.eq_nil_or_concat (s.rowsIn bar) with hrows | ⟨before, last, hrows⟩
  · rw [hrows] at hclose
    cases hclose
  · have hlast : last ∈ s.rowsIn bar := by
      rw [hrows]
      simp
    obtain ⟨d, hd, hpart⟩ := hp.of_row hlast
    refine ⟨_, d, hp.within last hlast, hd, ?_, ?_⟩
    · have hpartClose := hpart.close
      unfold part at hpartClose
      rw [hrows, List.concat_eq_append] at hclose hpartClose
      rw [List.filter_append, List.filter_cons_of_pos (by simp), List.filter_nil,
        List.getLast?_concat] at hpartClose
      rw [List.getLast?_concat] at hclose
      exact Option.some.inj (hpartClose.symm.trans hclose)
    · intro b' d' hb' hd'
      obtain ⟨r, hr, hepoch⟩ := hp.exists_row hb' hd'
      rw [← hepoch]
      apply bucket_mono hfine
      rw [hrows, List.concat_eq_append] at hr hsorted
      rcases List.mem_append.mp hr with hr | hr
      · exact (List.pairwise_append.mp hsorted).2.2 r hr last (List.mem_singleton_self last)
      · rw [List.mem_singleton.mp hr]

theorem high (hp : s.Parts fine bar) (hc : IsAggregate (s.rowsIn bar) c) :
    ∃ b d, Within fine bar b ∧ s.store b = some d ∧ d.high = c.high := by
  obtain ⟨⟨r, hr, hreach⟩, _⟩ := hc.high
  obtain ⟨d, hd, hpart⟩ := hp.of_row hr
  refine ⟨_, d, hp.within r hr, hd, le_antisymm (hp.high_le hc (hp.within r hr) hd) ?_⟩
  rw [← hreach]
  exact hpart.high.2 r (mem_part hr)

theorem low (hp : s.Parts fine bar) (hc : IsAggregate (s.rowsIn bar) c) :
    ∃ b d, Within fine bar b ∧ s.store b = some d ∧ d.low = c.low := by
  obtain ⟨⟨r, hr, hreach⟩, _⟩ := hc.low
  obtain ⟨d, hd, hpart⟩ := hp.of_row hr
  refine ⟨_, d, hp.within r hr, hd, le_antisymm ?_ (hp.low_le hc (hp.within r hr) hd)⟩
  rw [← hreach]
  exact hpart.low.2 r (mem_part hr)

/-- The sum of the volumes is one by the finer buckets. -/
theorem volume (hp : s.Parts fine bar) (hc : IsAggregate (s.rowsIn bar) c) :
    ∃ epochs : List ℤ, epochs.Nodup ∧
      (∀ epoch, epoch ∈ epochs ↔ Within fine bar ⟨bar.market, fine, epoch⟩ ∧
        (s.store ⟨bar.market, fine, epoch⟩).isSome = true) ∧
      c.volume =
        (epochs.map fun epoch => (s.store ⟨bar.market, fine, epoch⟩).elim 0 Candle.volume).sum := by
  have hbar : ∀ r ∈ s.rowsIn bar,
      barOf r fine = ⟨bar.market, fine, bucket_epoch r.epoch fine.seconds⟩ :=
    fun r hr => Bar.ext (hp.within r hr).1 rfl rfl
  refine ⟨((s.rowsIn bar).map fun r => bucket_epoch r.epoch fine.seconds).dedup,
    List.nodup_dedup _, ?_, ?_⟩
  · intro epoch
    rw [List.mem_dedup, List.mem_map]
    constructor
    · rintro ⟨r, hr, rfl⟩
      obtain ⟨d, hd⟩ := hp.found r hr
      rw [← hbar r hr, hd]
      exact ⟨hp.within r hr, rfl⟩
    · rintro ⟨hwithin, hfound⟩
      obtain ⟨d, hd⟩ := Option.isSome_iff_exists.mp hfound
      exact hp.exists_row hwithin hd
  · rw [hc.volume, sum_by_key (fun r => bucket_epoch r.epoch fine.seconds) TickRow.volume
      (List.nodup_dedup _) (fun r hr => List.mem_dedup.mpr (List.mem_map_of_mem hr))]
    congr 1
    apply List.map_congr_left
    intro epoch hepoch
    obtain ⟨r, hr, rfl⟩ := List.mem_map.mp (List.mem_dedup.mp hepoch)
    obtain ⟨d, hd, hpart⟩ := hp.of_row hr
    rw [← hbar r hr, hd]
    exact hpart.volume.symm

end Parts

theorem Inv.nested {fine : Timeframe} (hs : s.Inv) (hcomplete : s.Complete)
    (hfine : 1 ≤ fine.seconds) (hcoarse : 1 ≤ bar.timeframe.seconds)
    (hdvd : fine.seconds ∣ bar.timeframe.seconds) (hc : s.store bar = some c) :
    s.Nested fine bar c := by
  have haggregate := hs.aggregate bar c hcoarse hc
  have hsorted := hs.sorted bar c hcoarse hc
  have hparts : s.Parts fine bar := hs.parts hcomplete hfine hcoarse hdvd hc
  exact ⟨hparts.opening hfine hsorted haggregate, hparts.close hfine hsorted haggregate,
    ⟨hparts.high haggregate, fun _ _ hb hd => hparts.high_le haggregate hb hd⟩,
    ⟨hparts.low haggregate, fun _ _ hb hd => hparts.low_le haggregate hb hd⟩,
    hparts.volume haggregate⟩

end Tape

/-! ## Runs -/

end AlgoBot.MarketData
