import AlgoBot.MarketData.Provenance

/-!
# Announcements of closed candles

`update_from_tick` takes the creation of a candle for the end of the candle before it,
and publishes an event that names the latest candle before the created one. The broker
history creates candles, too, and publishes nothing.

* `announced_once`: every bucket that has got a tick and is followed by one with a tick
  is announced once, in a run without late ticks and failures, whose live ticks create
  their buckets, next to the last one with a tick.
* `not_announced`: the next bucket is known from the history.
-/

namespace AlgoBot.MarketData

open AlgoBot.Core

/-- The market and the timeframe of a candle. -/
def Bar.lane (bar : Bar) : ℕ × Timeframe := (bar.market, bar.timeframe)

/-- `update_from_tick`: the timeframes to come, and a candle that it has created and not yet
followed up. -/
structure Update where
  tick : LiveTick
  timeframes : List Timeframe
  created : Option Bar
  failed : Bool
  deriving DecidableEq

/-- The stored candles, the buckets that have got a tick, and the events that are published. -/
structure Stream where
  rows : List Bar
  updates : List Update
  received : List Bar
  events : List Bar

def Stream.initial : Stream := ⟨[], [], [], []⟩

inductive StreamStep
  | ingest (tick : LiveTick)
  | touch (i : ℕ)
  | announce (i : ℕ)
  /-- The candles of the broker history, of one market and timeframe. -/
  | persist (market : ℕ) (timeframe : Timeframe) (epochs : List ℤ)
  | fail (i : ℕ)

namespace Stream

/-- `order_by("-epoch").first()`. -/
def latest : List Bar → Option Bar
  | [] => none
  | b :: rest =>
    match latest rest with
    | none => some b
    | some r => if r.epoch ≤ b.epoch then some b else some r

/-- `filter(symbol, timeframe, epoch__lt).order_by("-epoch").first()`. -/
def previous (s : Stream) (bar : Bar) : Option Bar :=
  latest (s.rows.filter fun r => r.lane = bar.lane && r.epoch < bar.epoch)

/-- `get_or_create`. -/
def touch (s : Stream) (i : ℕ) (u : Update) (bar : Bar) (rest : List Timeframe) : Stream :=
  if bar ∈ s.rows then
    { s with
      updates := s.updates.set i { u with timeframes := rest }
      received := bar :: s.received }
  else
    { s with
      rows := bar :: s.rows
      updates := s.updates.set i { u with timeframes := rest, created := some bar }
      received := bar :: s.received }

def announce (s : Stream) (i : ℕ) (u : Update) (bar : Bar) : Stream :=
  { s with
    updates := s.updates.set i { u with created := none }
    events := (s.previous bar).toList ++ s.events }

end Stream

def streamStep (s : Stream) : StreamStep → Option Stream
  | .ingest tick => some { s with updates := s.updates ++ [⟨tick, Timeframe.all, none, false⟩] }
  | .touch i =>
    match s.updates[i]? with
    | some ⟨tick, timeframe :: rest, none, false⟩ =>
      some (s.touch i ⟨tick, timeframe :: rest, none, false⟩ (tick.bar timeframe) rest)
    | _ => none
  | .announce i =>
    match s.updates[i]? with
    | some ⟨tick, rest, some bar, false⟩ => some (s.announce i ⟨tick, rest, some bar, false⟩ bar)
    | _ => none
  | .persist market timeframe epochs =>
    some { s with rows := epochs.map (fun epoch => ⟨market, timeframe, epoch⟩) ++ s.rows }
  | .fail i =>
    match s.updates[i]? with
    | some u => some { s with updates := s.updates.set i { u with failed := true } }
    | none => none

/-- The updates of the candles, and their events. -/
def stream : Machine Stream StreamStep where
  next := streamStep

/-! ## What is announced -/

namespace Stream

/-- A later bucket of the market and timeframe has got a tick. -/
def Closed (s : Stream) (b : Bar) : Prop := ∃ r ∈ s.received, r.lane = b.lane ∧ b.epoch < r.epoch

/-- All updates have come to their end. -/
def AtRest (s : Stream) : Prop :=
  ∀ u ∈ s.updates, u.timeframes = [] ∧ u.created = none

/-- No closed bucket is announced twice, and at rest each one is announced: the bucket of a tick,
if there is a tick of a later one. -/
structure Announced (s : Stream) : Prop where
  atMostOnce : ∀ b ∈ s.received, s.Closed b → s.events.count b ≤ 1
  once : s.AtRest → ∀ u ∈ s.updates, ∀ u' ∈ s.updates, u.tick.market = u'.tick.market →
    ∀ timeframe, (u.tick.bar timeframe).epoch < (u'.tick.bar timeframe).epoch →
      s.events.count (u.tick.bar timeframe) = 1

/-- A created candle of the market and timeframe is not yet followed up. -/
def pending (s : Stream) (lane : ℕ × Timeframe) : Bool :=
  s.updates.any fun u => u.created.any fun p => p.lane = lane

/-- Live ticks come in order, one at a time; the bucket after the last one with a tick is created
by its tick, with no candle of the history between them; and no update fails. -/
def careful (s : Stream) : StreamStep → Bool
  | .touch i =>
    match s.updates[i]? with
    | some ⟨tick, timeframe :: _, none, false⟩ =>
      let bar := tick.bar timeframe
      let lane := s.received.filter fun r => r.lane = bar.lane
      !s.pending bar.lane && lane.all (fun r => r.epoch ≤ bar.epoch) &&
        (bar ∈ s.received || lane.isEmpty ||
          (bar ∉ s.rows && s.rows.all fun r =>
            r.lane ≠ bar.lane || bar.epoch ≤ r.epoch || lane.any fun q => r.epoch ≤ q.epoch))
    | _ => true
  | .persist market timeframe _ => !s.pending (market, timeframe)
  | .fail i => (s.updates[i]?).all fun u => u.timeframes = [] && u.created = none
  | _ => true

end Stream

/-! ## Orderly streams -/

namespace Stream

/-- The update has created the candle, and not yet followed it up. -/
def Creates (s : Stream) (i : ℕ) (p : Bar) : Prop :=
  ∃ u, s.updates[i]? = some u ∧ u.created = some p

/-- The bucket is the last one with a tick before a created one that is not yet followed up. -/
def Awaited (s : Stream) (b : Bar) : Prop :=
  ∃ i p, s.Creates i p ∧ p.lane = b.lane ∧ b.epoch < p.epoch ∧
    ∀ r ∈ s.received, r.lane = b.lane → r.epoch < p.epoch → r.epoch ≤ b.epoch

/-- The bucket is the last one with a tick, and no candle is between it and the one before, if there
is one. -/
structure Last (s : Stream) (p : Bar) : Prop where
  mem : p ∈ s.received
  le : ∀ r ∈ s.received, r.lane = p.lane → r.epoch ≤ p.epoch
  next : ∀ q ∈ s.received, q.lane = p.lane → q.epoch < p.epoch →
    ∀ r ∈ s.rows, r.lane = p.lane → r.epoch < p.epoch →
      ∃ q' ∈ s.received, q'.lane = p.lane ∧ q'.epoch < p.epoch ∧ r.epoch ≤ q'.epoch

/-- What holds of each market and timeframe in a careful run. -/
structure Orderly (s : Stream) : Prop where
  stored : ∀ b ∈ s.received, b ∈ s.rows
  events_closed : ∀ b ∈ s.events, s.Closed b
  awaited : ∀ b ∈ s.received, s.Awaited b → s.events.count b = 0
  announced : ∀ b ∈ s.received, s.Closed b → ¬ s.Awaited b → s.events.count b = 1
  last : ∀ i p, s.Creates i p → s.Last p
  single : ∀ i j p q, s.Creates i p → s.Creates j q → p.lane = q.lane → i = j

variable {s s' : Stream} {i : ℕ} {b bar p q : Bar} {u : Update}

theorem eq_of_lane (hlane : p.lane = q.lane) (hepoch : p.epoch = q.epoch) : p = q := by
  obtain ⟨hmarket, htimeframe⟩ := Prod.mk.inj hlane
  exact Bar.ext hmarket htimeframe hepoch

theorem orderly_initial : initial.Orderly := by
  have hnone : ∀ i p, ¬ initial.Creates i p := by
    rintro i p ⟨u, hu, _⟩
    simp [initial] at hu
  constructor
  · intro b hb
    cases hb
  · intro b hb
    cases hb
  · intro b hb
    cases hb
  · intro b hb
    cases hb
  · intro i p hp
    exact absurd hp (hnone i p)
  · intro i j p q hp
    exact absurd hp (hnone i p)

theorem creates_of_not_pending {lane : ℕ × Timeframe} (hfree : s.pending lane = false)
    (hp : s.Creates i p) : p.lane ≠ lane := by
  obtain ⟨u, hu, hcreated⟩ := hp
  have hnot := List.any_eq_false.mp hfree u (List.mem_of_getElem? hu)
  simpa [hcreated] using hnot

/-- What an orderly stream is does not depend on the order of the rows, nor on the timeframes that
are to come. -/
theorem Orderly.congr (hs : s.Orderly) (hrows : s'.rows = s.rows)
    (hreceived : ∀ b, b ∈ s'.received ↔ b ∈ s.received) (hevents : s'.events = s.events)
    (hcreates : ∀ i p, s'.Creates i p ↔ s.Creates i p) : s'.Orderly := by
  have hclosed : ∀ b, s'.Closed b ↔ s.Closed b := by simp only [Closed, hreceived, implies_true]
  have hawaited : ∀ b, s'.Awaited b ↔ s.Awaited b := by
    simp only [Awaited, hreceived, hcreates, implies_true]
  constructor
  · simpa only [hreceived, hrows] using hs.stored
  · simpa only [hevents, hclosed] using hs.events_closed
  · simpa only [hreceived, hawaited, hevents] using hs.awaited
  · simpa only [hreceived, hawaited, hevents, hclosed] using hs.announced
  · intro i p hp
    obtain ⟨hmem, hle, hnext⟩ := hs.last i p ((hcreates i p).mp hp)
    exact ⟨by simpa only [hreceived] using hmem, by simpa only [hreceived] using hle,
      by simpa only [hreceived, hrows] using hnext⟩
  · simpa only [hcreates] using hs.single

/-- One of the updates is replaced. -/
theorem creates_set {t : Stream} (hi : s.updates[i]? = some u) {u' : Update}
    (ht : t.updates = s.updates.set i u') (j : ℕ) (p : Bar) :
    t.Creates j p ↔ if j = i then u'.created = some p else s.Creates j p := by
  obtain ⟨hlt, _⟩ := List.getElem?_eq_some_iff.mp hi
  unfold Creates
  rw [ht]
  by_cases hj : j = i
  · subst hj
    simp [List.getElem?_set_self hlt]
  · rw [if_neg hj, List.getElem?_set_ne (Ne.symm hj)]

theorem not_creates (hi : s.updates[i]? = some u) (hnone : u.created = none) :
    ¬ s.Creates i p := by
  rintro ⟨v, hv, hcreated⟩
  obtain rfl := Option.some.inj (hi.symm.trans hv)
  rw [hnone] at hcreated
  cases hcreated

theorem creates_unique (hp : s.Creates i p) (hq : s.Creates i q) : p = q := by
  obtain ⟨u, hu, hcreated⟩ := hp
  obtain ⟨v, hv, hcreated'⟩ := hq
  obtain rfl := Option.some.inj (hu.symm.trans hv)
  exact Option.some.inj (hcreated.symm.trans hcreated')

/-- An update that keeps what it has created is as good as before. -/
theorem creates_set_same {t : Stream} (hi : s.updates[i]? = some u) {u' : Update}
    (ht : t.updates = s.updates.set i u') (hsame : u'.created = u.created) (j : ℕ) (p : Bar) :
    t.Creates j p ↔ s.Creates j p := by
  rw [creates_set hi ht]
  split
  · next hj =>
    subst hj
    rw [hsame]
    constructor
    · intro hcreated
      exact ⟨u, hi, hcreated⟩
    · rintro ⟨v, hv, hcreated⟩
      obtain rfl := Option.some.inj (hi.symm.trans hv)
      exact hcreated
  · exact Iff.rfl

/-! ## The steps -/

theorem Orderly.persist (hs : s.Orderly) {market : ℕ} {timeframe : Timeframe} {epochs : List ℤ}
    (hfree : s.pending (market, timeframe) = false) :
    Orderly { s with rows := epochs.map (fun epoch => ⟨market, timeframe, epoch⟩) ++ s.rows } := by
  refine ⟨?_, hs.events_closed, hs.awaited, hs.announced, ?_, hs.single⟩
  · intro b hb
    exact List.mem_append_right _ (hs.stored b hb)
  · intro i p hp
    obtain ⟨hmem, hle, hnext⟩ := hs.last i p hp
    refine ⟨hmem, hle, fun q hq hlane hlt r hr hrlane hrlt => ?_⟩
    rcases List.mem_append.mp hr with hnew | hold
    · -- the candles of the history are of another market or timeframe
      obtain ⟨epoch, _, rfl⟩ := List.mem_map.mp hnew
      exact absurd hrlane.symm (creates_of_not_pending hfree hp)
    · exact hnext q hq hlane hlt r hold hrlane hrlt

section Touch

variable {t : Stream} {rest : List Timeframe}

theorem closed_cons (hreceived : t.received = bar :: s.received) :
    t.Closed b ↔ (bar.lane = b.lane ∧ b.epoch < bar.epoch) ∨ s.Closed b := by
  simp only [Closed, hreceived, List.exists_mem_cons_iff]

/-- A bucket of another market or timeframe is awaited as before. -/
theorem awaited_cons (hreceived : t.received = bar :: s.received) (hb : b.lane ≠ bar.lane)
    (hcreates : ∀ i p, p.lane = b.lane → (t.Creates i p ↔ s.Creates i p)) :
    t.Awaited b ↔ s.Awaited b := by
  have hall : ∀ p : Bar, (∀ r ∈ t.received, r.lane = b.lane → r.epoch < p.epoch → r.epoch ≤ b.epoch) ↔
      ∀ r ∈ s.received, r.lane = b.lane → r.epoch < p.epoch → r.epoch ≤ b.epoch := by
    intro p
    rw [hreceived, List.forall_mem_cons]
    exact and_iff_right fun hlane => absurd hlane.symm hb
  constructor
  · rintro ⟨i, p, hp, hlane, hlt, hmax⟩
    exact ⟨i, p, (hcreates i p hlane).mp hp, hlane, hlt, (hall p).mp hmax⟩
  · rintro ⟨i, p, hp, hlane, hlt, hmax⟩
    exact ⟨i, p, (hcreates i p hlane).mpr hp, hlane, hlt, (hall p).mpr hmax⟩

theorem Last.cons (hp : s.Last p) (hreceived : t.received = bar :: s.received)
    (hrows : ∀ r ∈ t.rows, r = bar ∨ r ∈ s.rows) (hlane : p.lane ≠ bar.lane) : t.Last p := by
  constructor
  · rw [hreceived]
    exact List.mem_cons_of_mem bar hp.mem
  · intro r hr hrlane
    rw [hreceived] at hr
    rcases List.mem_cons.mp hr with rfl | hr
    · exact absurd hrlane.symm hlane
    · exact hp.le r hr hrlane
  · intro q hq hqlane hqlt r hr hrlane hrlt
    rw [hreceived] at hq
    rcases List.mem_cons.mp hq with rfl | hq
    · exact absurd hqlane.symm hlane
    · rcases hrows r hr with rfl | hr
      · exact absurd hrlane.symm hlane
      · obtain ⟨q', hq', hafter⟩ := hp.next q hq hqlane hqlt r hr hrlane hrlt
        exact ⟨q', by rw [hreceived]; exact List.mem_cons_of_mem bar hq', hafter⟩

/-- The first tick of a market and timeframe may find its bucket. -/
theorem Orderly.touch_found (hs : s.Orderly) (hstored : bar ∈ s.rows) (hrows : t.rows = s.rows)
    (hreceived : t.received = bar :: s.received) (hevents : t.events = s.events)
    (hcreates : ∀ i p, t.Creates i p ↔ s.Creates i p) (hfree : s.pending bar.lane = false)
    (hnext : bar ∈ s.received ∨ ∀ r ∈ s.received, r.lane ≠ bar.lane) : t.Orderly := by
  by_cases hbar : bar ∈ s.received
  · refine hs.congr hrows (fun b => ?_) hevents hcreates
    rw [hreceived, List.mem_cons]
    exact or_iff_right_of_imp fun hb => hb ▸ hbar
  · have hempty : ∀ r ∈ s.received, r.lane ≠ bar.lane := hnext.resolve_left hbar
    have hother : ∀ b ∈ t.received, t.Awaited b ∨ t.Closed b → b ∈ s.received ∧ b.lane ≠ bar.lane := by
      intro b hb hconcerned
      rw [hreceived] at hb
      rcases List.mem_cons.mp hb with rfl | hb
      · rcases hconcerned with ⟨i, p, hp, hlane, _⟩ | hclosed
        · exact absurd hlane (creates_of_not_pending hfree ((hcreates i p).mp hp))
        · rcases (closed_cons hreceived).mp hclosed with ⟨_, hlt⟩ | ⟨r, hr, hlane, _⟩
          · exact absurd hlt (lt_irrefl _)
          · exact absurd hlane (hempty r hr)
      · exact ⟨hb, hempty b hb⟩
    constructor
    · intro b hb
      rw [hreceived] at hb
      rw [hrows]
      rcases List.mem_cons.mp hb with rfl | hb
      · exact hstored
      · exact hs.stored b hb
    · intro b hb
      rw [hevents] at hb
      exact (closed_cons hreceived).mpr (Or.inr (hs.events_closed b hb))
    · intro b hb hawaited
      obtain ⟨hb, hlane⟩ := hother b hb (Or.inl hawaited)
      rw [hevents]
      exact hs.awaited b hb ((awaited_cons hreceived hlane fun i p _ => hcreates i p).mp hawaited)
    · intro b hb hclosed hnot
      obtain ⟨hb, hlane⟩ := hother b hb (Or.inr hclosed)
      rw [awaited_cons hreceived hlane fun i p _ => hcreates i p] at hnot
      rw [hevents]
      refine hs.announced b hb (((closed_cons hreceived).mp hclosed).resolve_left ?_) hnot
      exact fun hbar => hlane hbar.1.symm
    · intro i p hp
      have hcreated := (hcreates i p).mp hp
      refine (hs.last i p hcreated).cons hreceived (fun r hr => ?_)
        (creates_of_not_pending hfree hcreated)
      exact Or.inr (hrows ▸ hr)
    · intro i j p q hp hq
      exact hs.single i j p q ((hcreates i p).mp hp) ((hcreates j q).mp hq)

/-- A tick creates its bucket, after the last one with a tick. -/
theorem Orderly.touch_created (hs : s.Orderly) (hnew : bar ∉ s.rows) (hrows : t.rows = bar :: s.rows)
    (hreceived : t.received = bar :: s.received) (hevents : t.events = s.events)
    (hcreates : ∀ j p, t.Creates j p ↔ if j = i then bar = p else s.Creates j p)
    (hnone : ∀ p, ¬ s.Creates i p) (hfree : s.pending bar.lane = false)
    (hlate : ∀ r ∈ s.received, r.lane = bar.lane → r.epoch ≤ bar.epoch)
    (hnext : (∀ r ∈ s.received, r.lane ≠ bar.lane) ∨
      ∀ r ∈ s.rows, r.lane = bar.lane → r.epoch < bar.epoch →
        ∃ q ∈ s.received, q.lane = bar.lane ∧ r.epoch ≤ q.epoch) : t.Orderly := by
  have hbefore : ∀ r ∈ s.received, r.lane = bar.lane → r.epoch < bar.epoch := by
    intro r hr hlane
    refine lt_of_le_of_ne (hlate r hr hlane) fun hepoch => hnew ?_
    exact eq_of_lane hlane hepoch ▸ hs.stored r hr
  have hothers : ∀ {j p}, t.Creates j p → (j = i ∧ p = bar) ∨ s.Creates j p := by
    intro j p hp
    rw [hcreates] at hp
    split at hp
    · next hj => exact Or.inl ⟨hj, hp.symm⟩
    · exact Or.inr hp
  have hlane : ∀ {j p}, t.Creates j p → p.lane = bar.lane → p = bar := by
    intro j p hp hsame
    rcases hothers hp with ⟨_, hbar⟩ | hold
    · exact hbar
    · exact absurd hsame (creates_of_not_pending hfree hold)
  have hcreatesOther : ∀ {b : Bar}, b.lane ≠ bar.lane → ∀ j p, p.lane = b.lane →
      (t.Creates j p ↔ s.Creates j p) := by
    intro b hb j p hp
    rw [hcreates]
    split
    · next hj =>
      subst hj
      refine iff_of_false ?_ (hnone p)
      rintro rfl
      exact hb hp.symm
    · exact Iff.rfl
  have hnotAwaited : ∀ {b : Bar}, b.lane = bar.lane → ¬ s.Awaited b := by
    rintro b hb ⟨j, p, hp, hsame, _⟩
    exact creates_of_not_pending hfree hp (hsame.trans hb)
  constructor
  · intro b hb
    rw [hreceived] at hb
    rw [hrows]
    exact List.mem_cons.mpr ((List.mem_cons.mp hb).imp_right (hs.stored b))
  · intro b hb
    rw [hevents] at hb
    exact (closed_cons hreceived).mpr (Or.inr (hs.events_closed b hb))
  · intro b hb hawaited
    rw [hevents]
    by_cases hsame : b.lane = bar.lane
    · -- only the last bucket before the new one is awaited, and it was not closed
      rw [List.count_eq_zero]
      intro hevent
      obtain ⟨r, hr, hrlane, hlt⟩ := hs.events_closed b hevent
      obtain ⟨j, p, hp, hplane, hbp, hmax⟩ := hawaited
      obtain rfl := hlane hp (hplane.trans hsame)
      have hle := hmax r (by rw [hreceived]; exact List.mem_cons_of_mem p hr) hrlane
        (hbefore r hr (hrlane.trans hsame))
      omega
    · rw [awaited_cons hreceived hsame (hcreatesOther hsame)] at hawaited
      rw [hreceived] at hb
      rcases List.mem_cons.mp hb with rfl | hb
      · exact absurd rfl hsame
      · exact hs.awaited b hb hawaited
  · intro b hb hclosed hnot
    rw [hevents]
    by_cases hsame : b.lane = bar.lane
    · rw [hreceived] at hb
      rcases List.mem_cons.mp hb with rfl | hb
      · -- nothing is later than the new bucket
        rcases (closed_cons hreceived).mp hclosed with ⟨_, hlt⟩ | ⟨r, hr, hrlane, hlt⟩
        · exact absurd hlt (lt_irrefl _)
        · have hr' := hbefore r hr hrlane
          omega
      · refine hs.announced b hb ?_ (hnotAwaited hsame)
        by_contra hopen
        refine hnot ⟨i, bar, (hcreates i bar).mpr (by rw [if_pos rfl]), hsame.symm,
          hbefore b hb hsame, fun r hr hrlane hrlt => ?_⟩
        rw [hreceived] at hr
        rcases List.mem_cons.mp hr with rfl | hr
        · exact absurd hrlt (lt_irrefl _)
        · by_contra hlater
          exact hopen ⟨r, hr, hrlane, not_le.mp hlater⟩
    · rw [awaited_cons hreceived hsame (hcreatesOther hsame)] at hnot
      rw [hreceived] at hb
      rcases List.mem_cons.mp hb with rfl | hb
      · exact absurd rfl hsame
      · refine hs.announced b hb (((closed_cons hreceived).mp hclosed).resolve_left ?_) hnot
        exact fun hbar => hsame hbar.1.symm
  · intro j p hp
    rcases hothers hp with ⟨_, rfl⟩ | hold
    · refine ⟨?_, ?_, ?_⟩
      · rw [hreceived]
        exact List.mem_cons_self
      · intro r hr hrlane
        rw [hreceived] at hr
        rcases List.mem_cons.mp hr with rfl | hr
        · exact le_rfl
        · exact hlate r hr hrlane
      · intro q hq hqlane hqlt r hr hrlane hrlt
        rw [hreceived] at hq
        rw [hrows] at hr
        have hq' : q ∈ s.received := (List.mem_cons.mp hq).resolve_left fun h => by
          rw [h] at hqlt
          exact absurd hqlt (lt_irrefl _)
        have hr' : r ∈ s.rows := (List.mem_cons.mp hr).resolve_left fun h => by
          rw [h] at hrlt
          exact absurd hrlt (lt_irrefl _)
        have hrest := hnext.resolve_left fun hempty => hempty q hq' hqlane
        obtain ⟨q', hmem, hlane', hle⟩ := hrest r hr' hrlane hrlt
        exact ⟨q', by rw [hreceived]; exact List.mem_cons_of_mem p hmem, hlane',
          hbefore q' hmem hlane', hle⟩
    · refine (hs.last j p hold).cons hreceived (fun r hr => ?_) (creates_of_not_pending hfree hold)
      rw [hrows] at hr
      exact List.mem_cons.mp hr
  · intro j k p q hp hq hsame
    rcases hothers hp with ⟨rfl, rfl⟩ | hp' <;> rcases hothers hq with ⟨rfl, rfl⟩ | hq'
    · rfl
    · exact absurd hsame.symm (creates_of_not_pending hfree hq')
    · exact absurd hsame (creates_of_not_pending hfree hp')
    · exact hs.single j k p q hp' hq' hsame

end Touch

section Announce

variable {t : Stream}

theorem latest_eq_none {rows : List Bar} (hnone : latest rows = none) : rows = [] := by
  cases rows with
  | nil => rfl
  | cons b rest =>
    rw [latest] at hnone
    split at hnone
    · cases hnone
    · split at hnone <;> cases hnone

theorem latest_spec {rows : List Bar} {r : Bar} (hr : latest rows = some r) :
    r ∈ rows ∧ ∀ q ∈ rows, q.epoch ≤ r.epoch := by
  induction rows generalizing r with
  | nil => cases hr
  | cons b rest ih =>
    rw [latest] at hr
    split at hr
    · next hnone =>
      cases hr
      rw [latest_eq_none hnone]
      simp
    · next c hc =>
      obtain ⟨hmem, hmax⟩ := ih hc
      split at hr
      · next hle =>
        cases hr
        refine ⟨List.mem_cons_self, fun q hq => ?_⟩
        rcases List.mem_cons.mp hq with rfl | hq
        · exact le_rfl
        · exact (hmax q hq).trans hle
      · next hlater =>
        cases hr
        refine ⟨List.mem_cons_of_mem b hmem, fun q hq => ?_⟩
        rcases List.mem_cons.mp hq with rfl | hq
        · omega
        · exact hmax q hq

theorem previous_spec {r : Bar} (hr : s.previous p = some r) :
    r ∈ s.rows ∧ r.lane = p.lane ∧ r.epoch < p.epoch ∧
      ∀ q ∈ s.rows, q.lane = p.lane → q.epoch < p.epoch → q.epoch ≤ r.epoch := by
  obtain ⟨hmem, hmax⟩ := latest_spec hr
  simp only [List.mem_filter, Bool.and_eq_true, decide_eq_true_eq] at hmem
  refine ⟨hmem.1, hmem.2.1, hmem.2.2, fun q hq hlane hlt => ?_⟩
  exact hmax q (by simp [hq, hlane, hlt])

theorem previous_isSome (hq : q ∈ s.rows) (hlane : q.lane = p.lane) (hlt : q.epoch < p.epoch) :
    ∃ r, s.previous p = some r := by
  rw [← Option.ne_none_iff_exists']
  intro hnone
  have hempty := latest_eq_none hnone
  have hmem : q ∈ s.rows.filter fun r => r.lane = p.lane && r.epoch < p.epoch := by
    simp [hq, hlane, hlt]
  rw [hempty] at hmem
  cases hmem

/-- The candle before the last bucket is the one before it with a tick. -/
theorem Last.previous (hp : s.Last p) (hstored : ∀ b ∈ s.received, b ∈ s.rows)
    (hq : q ∈ s.received) (hlane : q.lane = p.lane) (hlt : q.epoch < p.epoch) :
    ∃ r ∈ s.received, s.previous p = some r ∧ q.epoch ≤ r.epoch := by
  obtain ⟨r, hr⟩ := previous_isSome (hstored q hq) hlane hlt
  obtain ⟨hrow, hrlane, hrlt, hmax⟩ := previous_spec hr
  obtain ⟨q', hq', hqlane', hqlt', hle⟩ := hp.next q hq hlane hlt r hrow hrlane hrlt
  have hsame : q' = r :=
    eq_of_lane (hqlane'.trans hrlane.symm) (le_antisymm (hmax q' (hstored q' hq') hqlane' hqlt') hle)
  exact ⟨r, hsame ▸ hq', hr, hmax q (hstored q hq) hlane hlt⟩

/-- The created bucket is followed up: the one before it is announced. -/
theorem Orderly.announce (hs : s.Orderly) (hp : s.Creates i p) (hrows : t.rows = s.rows)
    (hreceived : t.received = s.received) (hevents : t.events = (s.previous p).toList ++ s.events)
    (hcreates : ∀ j q, t.Creates j q ↔ j ≠ i ∧ s.Creates j q) : t.Orderly := by
  have hlast := hs.last i p hp
  have hclosed : ∀ b, t.Closed b ↔ s.Closed b := by simp only [Closed, hreceived, implies_true]
  -- no other candle of the market and timeframe is created and not followed up
  have hother : ∀ {b q : Bar} {j : ℕ}, t.Creates j q → q.lane = b.lane → b.lane ≠ p.lane := by
    intro b q j hq hlane hsame
    obtain ⟨hj, hold⟩ := (hcreates j q).mp hq
    exact hj (hs.single j i q p hold hp (hlane.trans hsame))
  have hcount : ∀ b, b.lane ≠ p.lane → t.events.count b = s.events.count b := by
    intro b hb
    rw [hevents, List.count_append]
    cases hprevious : s.previous p with
    | none => simp
    | some r =>
      have hr : b ≠ r := by
        rintro rfl
        exact hb (previous_spec hprevious).2.1
      simp [Ne.symm hr]
  have hawaited : ∀ b, b.lane ≠ p.lane → (t.Awaited b ↔ s.Awaited b) := by
    intro b hb
    simp only [Awaited, hreceived, hcreates]
    constructor
    · rintro ⟨j, q, ⟨_, hq⟩, hrest⟩
      exact ⟨j, q, hq, hrest⟩
    · rintro ⟨j, q, hq, hlane, hrest⟩
      refine ⟨j, q, ⟨?_, hq⟩, hlane, hrest⟩
      rintro rfl
      obtain rfl := creates_unique hp hq
      exact hb hlane.symm
  constructor
  · rw [hreceived, hrows]
    exact hs.stored
  · intro b hb
    rw [hevents] at hb
    rw [hclosed]
    rcases List.mem_append.mp hb with hprevious | hold
    · obtain ⟨_, hlane, hlt, _⟩ := previous_spec (Option.mem_toList.mp hprevious)
      exact ⟨p, hlast.mem, hlane.symm, hlt⟩
    · exact hs.events_closed b hold
  · intro b hb hawait
    rw [hreceived] at hb
    have hlane : b.lane ≠ p.lane := by
      obtain ⟨j, q, hq, hlane, _⟩ := hawait
      exact hother hq hlane
    rw [hcount b hlane]
    exact hs.awaited b hb ((hawaited b hlane).mp hawait)
  · intro b hb hclosed' hnot
    rw [hreceived] at hb
    rw [hclosed] at hclosed'
    by_cases hlane : b.lane = p.lane
    · obtain ⟨later, hlater, hlaterLane, hlt⟩ := hclosed'
      have hbp : b.epoch < p.epoch := lt_of_lt_of_le hlt (hlast.le later hlater (hlaterLane.trans hlane))
      obtain ⟨r, hr, hprevious, hle⟩ := hlast.previous hs.stored hb hlane hbp
      obtain ⟨_, hrlane, hrlt, hmax⟩ := previous_spec hprevious
      rw [hevents, hprevious, Option.toList_some, List.count_append]
      by_cases hsame : b = r
      · -- the bucket that was awaited
        have hwas : s.Awaited b := by
          refine ⟨i, p, hp, hlane.symm, hbp, fun q hq hqlane hqlt => ?_⟩
          rw [hsame]
          exact hmax q (hs.stored q hq) (hqlane.trans hlane) hqlt
        rw [hs.awaited b hb hwas, hsame]
        simp
      · have hbefore : b.epoch < r.epoch := by
          refine lt_of_le_of_ne hle fun hepoch => hsame ?_
          exact eq_of_lane (hlane.trans hrlane.symm) hepoch
        have hwas : ¬ s.Awaited b := by
          rintro ⟨j, q, hq, hqlane, _, hmax'⟩
          obtain rfl := hs.single j i q p hq hp (hqlane.trans hlane)
          obtain rfl := creates_unique hp hq
          have hnot := hmax' r hr (hrlane.trans hlane.symm) hrlt
          omega
        rw [hs.announced b hb ⟨later, hlater, hlaterLane, hlt⟩ hwas]
        simp [Ne.symm hsame]
    · rw [hcount b hlane]
      exact hs.announced b hb hclosed' fun hwas => hnot ((hawaited b hlane).mpr hwas)
  · intro j q hq
    obtain ⟨hmem, hle, hnext⟩ := hs.last j q ((hcreates j q).mp hq).2
    exact ⟨by rw [hreceived]; exact hmem, by rw [hreceived]; exact hle,
      by rw [hreceived, hrows]; exact hnext⟩
  · intro j k q q' hq hq' hlane
    exact hs.single j k q q' ((hcreates j q).mp hq).2 ((hcreates k q').mp hq').2 hlane

end Announce

/-! ## Careful runs -/

end Stream

theorem Timeframe.mem_all (timeframe : Timeframe) : timeframe ∈ Timeframe.all := by
  cases timeframe <;> decide

namespace Stream

variable {s s' : Stream} {i : ℕ} {b p : Bar} {u : Update}

/-- The stream is orderly, and a tick has got to the buckets of all timeframes but those to come. -/
structure Inv (s : Stream) : Prop where
  orderly : s.Orderly
  touched : ∀ u ∈ s.updates, ∀ timeframe,
    timeframe ∈ u.timeframes ∨ u.tick.bar timeframe ∈ s.received

theorem initial_inv : initial.Inv := by
  refine ⟨orderly_initial, ?_⟩
  intro u hu
  cases hu

theorem touched_set {t : Stream} (hs : s.Inv) (hi : s.updates[i]? = some u) {u' : Update}
    (ht : t.updates = s.updates.set i u') (htick : u'.tick = u.tick)
    (hreceived : ∀ b ∈ s.received, b ∈ t.received)
    (htimeframes : ∀ timeframe ∈ u.timeframes,
      timeframe ∈ u'.timeframes ∨ u.tick.bar timeframe ∈ t.received) :
    ∀ v ∈ t.updates, ∀ timeframe, timeframe ∈ v.timeframes ∨ v.tick.bar timeframe ∈ t.received := by
  intro v hv timeframe
  rw [ht] at hv
  rcases List.mem_or_eq_of_mem_set hv with hv | rfl
  · exact (hs.touched v hv timeframe).imp_right (hreceived _)
  · rw [htick]
    rcases hs.touched u (List.mem_of_getElem? hi) timeframe with hcome | hgot
    · exact htimeframes timeframe hcome
    · exact Or.inr (hreceived _ hgot)

theorem creates_append {v : Update} (hv : v.created = none) (j : ℕ) (p : Bar) :
    Creates { s with updates := s.updates ++ [v] } j p ↔ s.Creates j p := by
  unfold Creates
  rcases lt_trichotomy j s.updates.length with hlt | rfl | hgt
  · simp [List.getElem?_append_left hlt]
  · simp [hv]
  · have hlong : (s.updates ++ [v]).length ≤ j := by
      rw [List.length_append, List.length_singleton]
      omega
    simp [List.getElem?_eq_none hlong, List.getElem?_eq_none hgt.le]

theorem Inv.touch {tick : LiveTick} {timeframe : Timeframe} {rest : List Timeframe} (hs : s.Inv)
    (hi : s.updates[i]? = some ⟨tick, timeframe :: rest, none, false⟩)
    (hcareful : s.careful (.touch i) = true) :
    (s.touch i ⟨tick, timeframe :: rest, none, false⟩ (tick.bar timeframe) rest).Inv := by
  obtain ⟨bar, hbar⟩ : ∃ bar, bar = tick.bar timeframe := ⟨_, rfl⟩
  simp only [careful, hi, ← hbar, Bool.and_eq_true, Bool.or_eq_true, Bool.not_eq_true',
    List.all_eq_true, List.mem_filter, decide_eq_true_eq, List.isEmpty_iff, and_imp] at hcareful
  obtain ⟨⟨hfree, hlate⟩, hnext⟩ := hcareful
  have hempty : (s.received.filter fun r => decide (r.lane = bar.lane)) = [] →
      ∀ r ∈ s.received, r.lane ≠ bar.lane := by
    intro hnil r hr
    simpa using List.filter_eq_nil_iff.mp hnil r hr
  rw [← hbar]
  have hmove : ∀ {t : Stream} {u' : Update}, t.updates = s.updates.set i u' → u'.tick = tick →
      u'.timeframes = rest → t.received = bar :: s.received →
        ∀ v ∈ t.updates, ∀ timeframe, timeframe ∈ v.timeframes ∨ v.tick.bar timeframe ∈ t.received := by
    intro t u' ht htick htimeframes hreceived
    refine touched_set hs hi ht htick (fun b hb => ?_) (fun tf htf => ?_)
    · rw [hreceived]
      exact List.mem_cons_of_mem bar hb
    · rw [htimeframes, hreceived]
      rcases List.mem_cons.mp htf with rfl | hrest
      · exact Or.inr (hbar ▸ List.mem_cons_self)
      · exact Or.inl hrest
  unfold Stream.touch
  by_cases hstored : bar ∈ s.rows
  · rw [if_pos hstored]
    refine ⟨?_, hmove rfl rfl rfl rfl⟩
    refine hs.orderly.touch_found hstored rfl rfl rfl (creates_set_same hi rfl rfl) hfree ?_
    rcases hnext with (hgot | hnil) | hnew
    · exact Or.inl hgot
    · exact Or.inr (hempty hnil)
    · exact absurd hstored hnew.1
  · rw [if_neg hstored]
    refine ⟨?_, hmove rfl rfl rfl rfl⟩
    refine hs.orderly.touch_created (i := i) hstored rfl rfl rfl (fun j p => ?_)
      (fun p => not_creates hi rfl) hfree hlate ?_
    · rw [creates_set hi rfl]
      simp only [Option.some.injEq]
    · rcases hnext with (hgot | hnil) | hnew
      · exact absurd (hs.orderly.stored bar hgot) hstored
      · exact Or.inl (hempty hnil)
      · refine Or.inr fun r hr hlane hlt => ?_
        rcases hnew.2 r hr with (hother | hle) | hany
        · exact absurd hlane hother
        · omega
        · obtain ⟨q, hq, hle⟩ := List.any_eq_true.mp hany
          obtain ⟨hq, hqlane⟩ := List.mem_filter.mp hq
          exact ⟨q, hq, by simpa using hqlane, by simpa using hle⟩

theorem Inv.announce {tick : LiveTick} {rest : List Timeframe} (hs : s.Inv)
    (hi : s.updates[i]? = some ⟨tick, rest, some p, false⟩) :
    (s.announce i ⟨tick, rest, some p, false⟩ p).Inv := by
  have hp : s.Creates i p := ⟨_, hi, rfl⟩
  refine ⟨hs.orderly.announce hp rfl rfl rfl (fun j q => ?_), ?_⟩
  · rw [creates_set hi rfl]
    split
    · next hj => simp [hj]
    · next hj => simp [hj]
  · exact touched_set hs hi rfl rfl (fun _ hb => hb) fun _ htf => Or.inl htf

theorem careful_step {x : StreamStep} (hs : s.Inv) (hcareful : s.careful x = true)
    (hnext : stream.next s x = some s') : s'.Inv := by
  change streamStep s x = some s' at hnext
  cases x with
  | ingest tick =>
    cases hnext
    refine ⟨hs.orderly.congr rfl (fun _ => Iff.rfl) rfl (creates_append rfl), ?_⟩
    intro u hu timeframe
    rcases List.mem_append.mp hu with hold | hnew
    · exact hs.touched u hold timeframe
    · obtain rfl := List.mem_singleton.mp hnew
      exact Or.inl (Timeframe.mem_all timeframe)
  | touch i =>
    simp only [streamStep] at hnext
    split at hnext
    · next hi =>
      cases hnext
      exact hs.touch hi hcareful
    · cases hnext
  | announce i =>
    simp only [streamStep] at hnext
    split at hnext
    · next hi =>
      cases hnext
      exact hs.announce hi
    · cases hnext
  | persist market timeframe epochs =>
    cases hnext
    exact ⟨hs.orderly.persist (by simpa [careful] using hcareful), hs.touched⟩
  | fail i =>
    simp only [streamStep] at hnext
    split at hnext
    · next u hi =>
      cases hnext
      refine ⟨hs.orderly.congr rfl (fun _ => Iff.rfl) rfl (creates_set_same hi rfl rfl), ?_⟩
      exact touched_set hs hi rfl rfl (fun _ hb => hb) fun _ htf => Or.inl htf
    · cases hnext

/-- Of an orderly stream each closed bucket is announced once. -/
theorem Inv.announced (hs : s.Inv) : s.Announced := by
  constructor
  · intro b hb hclosed
    by_cases hawaited : s.Awaited b
    · exact (hs.orderly.awaited b hb hawaited).le.trans (Nat.zero_le 1)
    · exact (hs.orderly.announced b hb hclosed hawaited).le
  · intro hrest u hu u' hu' hmarket timeframe hlt
    have hgot : ∀ v ∈ s.updates, v.tick.bar timeframe ∈ s.received := by
      intro v hv
      refine (hs.touched v hv timeframe).resolve_left ?_
      rw [(hrest v hv).1]
      exact List.not_mem_nil
    have hlane : (u'.tick.bar timeframe).lane = (u.tick.bar timeframe).lane :=
      Prod.ext hmarket.symm rfl
    refine hs.orderly.announced _ (hgot u hu) ⟨_, hgot u' hu', hlane, hlt⟩ ?_
    rintro ⟨j, p, ⟨v, hv, hcreated⟩, _⟩
    rw [(hrest v (List.mem_of_getElem? hv)).2] at hcreated
    cases hcreated

end Stream

/-- In a careful run each bucket with a tick that is followed by another one is announced once. -/
theorem announced_once {xs : List StreamStep} {s : Stream}
    (hrun : stream.RunIf (fun s x => s.careful x = true) Stream.initial xs s) : s.Announced := by
  refine (hrun.invariant ?_ Stream.initial_inv).announced
  intro s x s' hcareful hs hnext
  exact Stream.careful_step hs hcareful hnext

/-- The steps of an update that creates so many candles, and then finds so many. -/
def updateSteps (i created found : ℕ) : List StreamStep :=
  (List.replicate created [.touch i, .announce i]).flatten ++ List.replicate found (.touch i)

/-- Two ticks in two minutes. -/
theorem minutes_announced : ∃ s, stream.RunIf (fun s x => s.careful x = true) Stream.initial
      (.ingest ⟨1, 30, 5, 1⟩ :: updateSteps 0 17 0 ++ .ingest ⟨1, 70, 6, 1⟩ :: updateSteps 1 6 11) s ∧
    s.Announced := by
  have henabled : (stream.execIf (fun s x => s.careful x = true) Stream.initial
      (.ingest ⟨1, 30, 5, 1⟩ :: updateSteps 0 17 0 ++
        .ingest ⟨1, 70, 6, 1⟩ :: updateSteps 1 6 11)).isSome = true := by
    decide +kernel
  obtain ⟨s, hrun⟩ := Machine.exists_runIf henabled
  exact ⟨s, hrun, announced_once hrun⟩

/-- The second minute is known from the history when its tick comes. -/
theorem not_announced : ¬ ∀ xs s, stream.Run Stream.initial xs s → s.Announced := by
  intro hall
  have hexec : (stream.exec Stream.initial
      (.ingest ⟨1, 30, 5, 1⟩ :: updateSteps 0 17 0 ++ .persist 1 .m1 [60] ::
        .ingest ⟨1, 70, 6, 1⟩ :: updateSteps 1 5 12)).map
          (fun s => (s.updates, s.events.count ⟨1, .m1, 0⟩)) =
      some ([⟨⟨1, 30, 5, 1⟩, [], none, false⟩, ⟨⟨1, 70, 6, 1⟩, [], none, false⟩], 0) := by
    decide +kernel
  obtain ⟨s, hs, hvalues⟩ := Option.map_eq_some_iff.mp hexec
  obtain ⟨hupdates, hcount⟩ := Prod.mk.inj hvalues
  have hrest : s.AtRest := by
    intro u hu
    rw [hupdates] at hu
    simp only [List.mem_cons, List.not_mem_nil, or_false] at hu
    rcases hu with rfl | rfl <;> exact ⟨rfl, rfl⟩
  have honce := (hall _ s (Machine.exec_eq_some_iff.mp hs)).once hrest
    ⟨⟨1, 30, 5, 1⟩, [], none, false⟩ (by rw [hupdates]; exact List.mem_cons_self)
    ⟨⟨1, 70, 6, 1⟩, [], none, false⟩ (by rw [hupdates]; simp) rfl .m1 (by decide)
  have hbar : LiveTick.bar ⟨1, 30, 5, 1⟩ .m1 = ⟨1, .m1, 0⟩ := by decide
  rw [hbar, hcount] at honce
  cases honce

end AlgoBot.MarketData
