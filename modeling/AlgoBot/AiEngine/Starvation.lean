import AlgoBot.Core.Backlog
import AlgoBot.AiEngine.Outcomes

/-!
# Runs over predictions that stay open

`resolve_prediction_outcomes` takes the oldest predictions that are due, as many as its batch has.
One without its candles is skipped and taken again by the next run, and one whose label raises ends
the run. Nothing moves either out of the way.

* `resolve_due`: a run is a pass over the predictions that are due.
* `outcomes_resolved_iff`: after as many runs as predictions were due all of these that have their
  candles are resolved, exactly if each can be labelled, none before it raises, and fewer than a
  batch before it lack candles.
* `starved`: a market that is gone, and a batch of one.
-/

namespace AlgoBot.AiEngine

open AlgoBot.Core AlgoBot.Python AlgoBot.MarketData

/-! ## Runs -/

/-- The filters of the queryset of `pending`. -/
def isDue (s : Research) (timeframe : Timeframe) (horizon_candles : ℤ) (p : Prediction) : Bool :=
  (timeframe_storage_aliases timeframe).contains p.timeframe &&
    p.created_at + 1000000 * (max 1 timeframe.seconds * max 1 horizon_candles.toNat) ≤ s.now &&
    (s.outcomes.lookup p.pk).isNone

/-- `pending`, before it is cut to a batch. -/
def due (s : Research) (timeframe : Timeframe) (horizon_candles : ℤ) : List Prediction :=
  (s.predictions.filter (isDue s timeframe horizon_candles)).insertionSort
    fun p q => p.created_at ≤ q.created_at

/-- The loop over `pending`; an exception ends the task, and what it has written stays. -/
def process (host : Host) (run : Resolving) (s : Research) : List Prediction → Research
  | [] => s
  | p :: rest =>
    match turn host s run p with
    | .skipped => process host run s rest
    | .raised => s
    | .resolved label => process host run (s.write p.pk label) rest

/-- `resolve_prediction_outcomes`, of a timeframe of candles. -/
def resolve_prediction_outcomes (host : Host) (timeframe : Timeframe) (horizon_candles : ℤ)
    (batch_size : ℕ) (s : Research) : Research :=
  process host ⟨timeframe, horizon_candles, []⟩ s (pending s timeframe horizon_candles batch_size)

def Research.later (s : Research) (microseconds : ℕ) : Research :=
  { s with now := s.now + microseconds }

/-- A run of the task and the time until the next one, for each of the times. -/
def resolvings (host : Host) (timeframe : Timeframe) (horizon_candles : ℤ) (batch_size : ℕ) :
    List ℕ → Research → Research
  | [], s => s
  | microseconds :: rest, s =>
    resolvings host timeframe horizon_candles batch_size rest
      ((resolve_prediction_outcomes host timeframe horizon_candles batch_size s).later microseconds)

/-! ## Predictions -/

/-- The candles of the whole horizon are there. -/
def Available (host : Host) (s : Research) (run : Resolving) (p : Prediction) : Prop :=
  ∃ found, future host s run p = some found ∧ run.limit ≤ found.length

/-- What the task does with a prediction: it is skipped without its market or candles, and raises
where a candle is missing for a horizon of none, the horizon is negative, or its payload cannot be
read. -/
def standing (host : Host) (s : Research) (run : Resolving) (p : Prediction) : Backlog.Kind :=
  match future host s run p with
  | none => .skip
  | some found =>
    if (found.length : ℤ) < run.horizon_candles then .skip
    else if found ≠ [] ∧ 0 ≤ run.horizon_candles ∧ p.readable = true then .done
    else .raise

variable {host : Host} {s t : Research} {run : Resolving} {p : Prediction} {k : ℕ}
  {timeframe : Timeframe} {horizon_candles : ℤ} {batch_size : ℕ} {found : List (ℤ × Candle)}

theorem pending_eq_take :
    pending s timeframe horizon_candles batch_size =
      (due s timeframe horizon_candles).take batch_size := rfl

theorem label_ne_skipped {horizon : ℤ} : label host horizon p found ≠ .skipped := by
  unfold label
  split
  · split
    · nofun
    · dsimp only
      split
      · nofun
      · nofun
  · nofun

theorem standing_eq : standing host s run p =
    match turn host s run p with
    | .skipped => .skip
    | .raised => .raise
    | .resolved _ => .done := by
  unfold standing turn
  cases future host s run p with
  | none => rfl
  | some found =>
    dsimp only
    split
    · rfl
    · split
      · next hlabels =>
        obtain ⟨l, hl⟩ := label_resolved_iff.mpr hlabels
        rw [hl]
      · next hlabels =>
        cases hl : label host run.horizon_candles p found with
        | skipped => exact absurd hl label_ne_skipped
        | raised => rfl
        | resolved l => exact absurd (label_resolved_iff.mp ⟨l, hl⟩) hlabels

/-- A prediction with its candles is labelled if the horizon is none below zero and its payload can
be read. -/
theorem standing_done_iff (havailable : Available host s run p) :
    standing host s run p = .done ↔ 0 ≤ run.horizon_candles ∧ p.readable = true := by
  obtain ⟨found, hfuture, hlimit⟩ := havailable
  have hpos := limit_pos run
  have hne : found ≠ [] := List.ne_nil_of_length_pos (hpos.trans_le hlimit)
  have henough : ¬ (found.length : ℤ) < run.horizon_candles := by
    unfold Resolving.limit at hlimit
    omega
  simp only [standing, hfuture, if_neg henough]
  by_cases hlabels : 0 ≤ run.horizon_candles ∧ p.readable = true
  · rw [if_pos ⟨hne, hlabels⟩]
    exact iff_of_true rfl hlabels
  · rw [if_neg fun h => hlabels h.2]
    exact iff_of_false nofun hlabels

/-! ## One run -/

/-- What a run leaves as it was. -/
structure Untouched (s t : Research) : Prop where
  now : t.now = s.now
  markets : t.markets = s.markets
  store : t.store = s.store
  predictions : t.predictions = s.predictions

theorem standing_congr (hmarkets : t.markets = s.markets) (hstore : t.store = s.store) :
    standing host t run = standing host s run := by
  funext p
  unfold standing future
  rw [hmarkets, hstore]

theorem process_untouched (host : Host) (run : Resolving) (todo : List Prediction) (s : Research) :
    Untouched s (process host run s todo) := by
  induction todo generalizing s with
  | nil => exact ⟨rfl, rfl, rfl, rfl⟩
  | cons p rest ih =>
    rw [process]
    split
    · exact ih s
    · exact ⟨rfl, rfl, rfl, rfl⟩
    · next label _ =>
      obtain ⟨hnow, hmarkets, hstore, hpredictions⟩ := ih (s.write p.pk label)
      exact ⟨hnow, hmarkets, hstore, hpredictions⟩

/-- A run gives outcomes to the predictions it finishes. -/
theorem process_lookup (host : Host) (run : Resolving) (todo : List Prediction) (s : Research) (k : ℕ) :
    (process host run s todo).outcomes.lookup k = none ↔ s.outcomes.lookup k = none ∧
      k ∉ (Backlog.finished (standing host s run) todo).map Prediction.pk := by
  induction todo generalizing s with
  | nil => simp [process, Backlog.finished]
  | cons p rest ih =>
    rw [process, Backlog.finished, standing_eq]
    cases hturn : turn host s run p with
    | skipped => exact ih s
    | raised => simp
    | resolved label =>
      have hsame : standing host (s.write p.pk label) run = standing host s run :=
        standing_congr rfl rfl
      rw [ih, hsame]
      show (s.outcomes.insert p.pk ⟨label, s.now⟩).lookup k = none ∧ _ ↔ _
      by_cases hk : k = p.pk
      · simp [hk]
      · simp [hk, AList.lookup_insert_ne hk]

/-! ## The order of the predictions -/

section Sorting

variable {α : Type} {r : α → α → Prop}

theorem orderedInsert_of_forall [DecidableRel r] {a : α} {l : List α} (h : ∀ b ∈ l, r a b) :
    l.orderedInsert r a = a :: l := by
  cases l with
  | nil => rfl
  | cons b l => rw [List.orderedInsert, if_pos (h b List.mem_cons_self)]

theorem filter_orderedInsert [DecidableRel r] [IsTrans α r] (q : α → Bool) (a : α) {l : List α} (hl : l.Pairwise r) :
    (l.orderedInsert r a).filter q =
      if q a then (l.filter q).orderedInsert r a else l.filter q := by
  induction l with
  | nil => cases h : q a <;> simp [h]
  | cons b l ih =>
    obtain ⟨hb, hl⟩ := List.pairwise_cons.mp hl
    rw [List.orderedInsert]
    by_cases hab : r a b
    · have hall : ∀ c ∈ (b :: l).filter q, r a c := by
        intro c hc
        rcases List.mem_cons.mp (List.mem_of_mem_filter hc) with rfl | hc
        · exact hab
        · exact trans_of r hab (hb c hc)
      rw [if_pos hab, orderedInsert_of_forall hall, List.filter_cons]
    · rw [if_neg hab, List.filter_cons, List.filter_cons, ih hl]
      split
      · split
        · rw [List.orderedInsert, if_neg hab]
        · rfl
      · rfl

/-- The order of what is kept is the order of all. -/
theorem filter_insertionSort [DecidableRel r] [IsTrans α r] [Std.Total r] (q : α → Bool)
    (l : List α) :
    (l.filter q).insertionSort r = (l.insertionSort r).filter q := by
  induction l with
  | nil => rfl
  | cons a l ih =>
    rw [List.insertionSort_cons, filter_orderedInsert q a (l.pairwise_insertionSort r), ← ih,
      List.filter_cons]
    split
    · rw [List.insertionSort_cons]
    · rfl

/-- A weaker filter keeps more at the end, if it keeps nothing new before what was kept. -/
theorem filter_append {l : List α} {q q' : α → Bool} (hl : l.Pairwise r)
    (hweaker : ∀ a, q a = true → q' a = true)
    (hdown : ∀ a b, r a b → q' a = true → q b = true → q a = true) :
    l.filter q' = l.filter q ++ l.filter fun a => q' a && !q a := by
  induction l with
  | nil => rfl
  | cons a l ih =>
    obtain ⟨ha, hl⟩ := List.pairwise_cons.mp hl
    have ih := ih hl
    cases hq : q a with
    | true => simp [hq, hweaker a hq, ih]
    | false =>
      cases hq' : q' a with
      | false => simp [hq, hq', ih]
      | true =>
        -- nothing after it was kept, or it would have been
        have hnone : l.filter q = [] := List.filter_eq_nil_iff.mpr fun b hb hqb => by
          rw [hdown a b (ha b hb) hq' hqb] at hq
          cases hq
        rw [hnone, List.nil_append] at ih
        simp [hq, hq', hnone, ih]

end Sorting

instance : Std.Total fun p q : Prediction => p.created_at ≤ q.created_at :=
  ⟨fun p q => Nat.le_total p.created_at q.created_at⟩

instance : IsTrans Prediction fun p q => p.created_at ≤ q.created_at :=
  ⟨fun _ _ _ hpq hqr => Nat.le_trans hpq hqr⟩

theorem due_eq_filter : due s timeframe horizon_candles =
    (s.predictions.insertionSort fun p q => p.created_at ≤ q.created_at).filter
      (isDue s timeframe horizon_candles) :=
  filter_insertionSort _ _

theorem mem_due : p ∈ due s timeframe horizon_candles ↔
    p ∈ s.predictions ∧ isDue s timeframe horizon_candles p = true := by
  rw [due, List.mem_insertionSort, List.mem_filter]

theorem due_nodup (hpk : (s.predictions.map Prediction.pk).Nodup) :
    ((due s timeframe horizon_candles).map Prediction.pk).Nodup := by
  have hperm := (List.perm_insertionSort (fun p q : Prediction => p.created_at ≤ q.created_at)
    (s.predictions.filter (isDue s timeframe horizon_candles))).map Prediction.pk
  exact hperm.nodup_iff.mpr (hpk.sublist (List.filter_sublist.map _))

/-- A run is a pass over what is due. -/
theorem resolve_due (hpk : (s.predictions.map Prediction.pk).Nodup) :
    due (resolve_prediction_outcomes host timeframe horizon_candles batch_size s) timeframe
        horizon_candles =
      Backlog.pass (standing host s ⟨timeframe, horizon_candles, []⟩) batch_size
        (due s timeframe horizon_candles) := by
  have huntouched := process_untouched host ⟨timeframe, horizon_candles, []⟩
    (pending s timeframe horizon_candles batch_size) s
  rw [Backlog.pass_eq_filter Prediction.pk batch_size (due_nodup hpk), ← pending_eq_take,
    due_eq_filter, due_eq_filter, List.filter_filter]
  unfold resolve_prediction_outcomes
  rw [huntouched.predictions]
  refine List.filter_congr fun p _ => ?_
  have hlookup := process_lookup host ⟨timeframe, horizon_candles, []⟩
    (pending s timeframe horizon_candles batch_size) s p.pk
  rw [Bool.eq_iff_iff]
  simp only [isDue, huntouched.now, Bool.and_eq_true, decide_eq_true_eq, Option.isNone_iff_eq_none,
    hlookup]
  tauto

/-- What becomes due while time passes comes after what was. -/
theorem wait_due (s : Research) (microseconds : ℕ) :
    due (s.later microseconds) timeframe horizon_candles =
      due s timeframe horizon_candles ++
        (s.predictions.insertionSort fun p q => p.created_at ≤ q.created_at).filter fun p =>
          isDue (s.later microseconds) timeframe horizon_candles p &&
            !isDue s timeframe horizon_candles p := by
  rw [due_eq_filter, due_eq_filter]
  refine filter_append (List.pairwise_insertionSort _ _) (fun p hp => ?_) fun p q hpq hp hq => ?_
  · simp only [isDue, Research.later, Bool.and_eq_true, decide_eq_true_eq] at hp ⊢
    exact ⟨⟨hp.1.1, decide_eq_true (hp.1.2.trans (Nat.le_add_right _ _))⟩, hp.2⟩
  · have hle : p.created_at ≤ q.created_at := hpq
    simp only [isDue, Research.later, Bool.and_eq_true, decide_eq_true_eq] at hp hq ⊢
    exact ⟨⟨hp.1.1, by omega⟩, hp.2⟩

/-! ## Many runs -/

variable (host timeframe horizon_candles batch_size)

/-- The prediction becomes due only after this time. -/
def Late (now : ℕ) (p : Prediction) : Prop :=
  now < p.created_at + 1000000 * (max 1 timeframe.seconds * max 1 horizon_candles.toNat)

/-- A run takes nothing away that a later one looks at. -/
theorem resolve_untouched (s : Research) : Untouched s
    (resolve_prediction_outcomes host timeframe horizon_candles batch_size s) :=
  process_untouched host ⟨timeframe, horizon_candles, []⟩ _ s

/-- A run and the time after it. -/
theorem round_due (hpk : (s.predictions.map Prediction.pk).Nodup) (microseconds : ℕ) :
    ∃ new, (∀ p ∈ new, Late timeframe horizon_candles s.now p) ∧
      due ((resolve_prediction_outcomes host timeframe horizon_candles batch_size s).later
          microseconds) timeframe horizon_candles =
        Backlog.pass (standing host s ⟨timeframe, horizon_candles, []⟩) batch_size
          (due s timeframe horizon_candles) ++ new := by
  have huntouched := resolve_untouched host timeframe horizon_candles batch_size s
  refine ⟨_, fun p hp => ?_, (wait_due _ microseconds).trans (congrArg (· ++ _) (resolve_due hpk))⟩
  obtain ⟨_, hp⟩ := List.mem_filter.mp hp
  obtain ⟨hlater, hnow⟩ := Bool.and_eq_true_iff.mp hp
  by_contra hlate
  -- it has no outcome, so it was due
  have hdue : isDue (resolve_prediction_outcomes host timeframe horizon_candles batch_size s)
      timeframe horizon_candles p = true := by
    simp only [isDue, Research.later, Bool.and_eq_true, decide_eq_true_eq] at hlater ⊢
    exact ⟨⟨hlater.1.1, by rw [huntouched.now]; exact Nat.not_lt.mp hlate⟩, hlater.2⟩
  rw [hdue] at hnow
  cases hnow

/-- Runs are passes over what is due, with what becomes due in between at the end. -/
theorem resolvings_due (hpk : (s.predictions.map Prediction.pk).Nodup) (waits : List ℕ) :
    ∃ news : List (List Prediction), news.length = waits.length ∧
      (∀ new ∈ news, ∀ p ∈ new, Late timeframe horizon_candles s.now p) ∧
      due (resolvings host timeframe horizon_candles batch_size waits s) timeframe horizon_candles =
        Backlog.passes (standing host s ⟨timeframe, horizon_candles, []⟩) batch_size news
          (due s timeframe horizon_candles) := by
  induction waits generalizing s with
  | nil => exact ⟨[], rfl, nofun, rfl⟩
  | cons microseconds rest ih =>
    obtain ⟨hnow, hmarkets, hstore, hpredictions⟩ :=
      resolve_untouched host timeframe horizon_candles batch_size s
    obtain ⟨new, hnew, hround⟩ := round_due host timeframe horizon_candles batch_size hpk microseconds
    rw [resolvings]
    generalize resolve_prediction_outcomes host timeframe horizon_candles batch_size s = s' at *
    have hpk' : ((s'.later microseconds).predictions.map Prediction.pk).Nodup := by
      show (s'.predictions.map Prediction.pk).Nodup
      rw [hpredictions]
      exact hpk
    have hstanding : standing host (s'.later microseconds) ⟨timeframe, horizon_candles, []⟩ =
        standing host s ⟨timeframe, horizon_candles, []⟩ := standing_congr hmarkets hstore
    obtain ⟨news, hlength, hlate, hdue⟩ := ih hpk'
    rw [hround, hstanding] at hdue
    refine ⟨new :: news, congrArg Nat.succ hlength, ?_, hdue⟩
    refine List.forall_mem_cons.mpr ⟨hnew, fun later hlater p hp => ?_⟩
    have hle : s.now ≤ (s'.later microseconds).now := by
      rw [← hnow]
      exact Nat.le_add_right _ _
    exact Nat.lt_of_le_of_lt hle (hlate later hlater p hp)

theorem resolvings_untouched (waits : List ℕ) (s : Research) :
    (resolvings host timeframe horizon_candles batch_size waits s).predictions = s.predictions ∧
      s.now ≤ (resolvings host timeframe horizon_candles batch_size waits s).now := by
  induction waits generalizing s with
  | nil => exact ⟨rfl, le_rfl⟩
  | cons microseconds rest ih =>
    obtain ⟨hnow, _, _, hpredictions⟩ :=
      resolve_untouched host timeframe horizon_candles batch_size s
    rw [resolvings]
    obtain ⟨hsame, hle⟩ := ih ((resolve_prediction_outcomes host timeframe horizon_candles
      batch_size s).later microseconds)
    refine ⟨hsame.trans hpredictions, le_trans ?_ hle⟩
    rw [← hnow]
    exact Nat.le_add_right _ _

variable {host timeframe horizon_candles batch_size}

/-- A prediction that was due is resolved when it is due no more. -/
theorem resolved_iff (hp : p ∈ due s timeframe horizon_candles)
    (hpredictions : t.predictions = s.predictions) (hnow : s.now ≤ t.now) :
    (t.outcomes.lookup p.pk).isSome = true ↔ p ∉ due t timeframe horizon_candles := by
  obtain ⟨hmem, hdue⟩ := mem_due.mp hp
  rw [mem_due, hpredictions]
  simp only [isDue, Bool.and_eq_true, decide_eq_true_eq] at hdue ⊢
  have htime := hdue.1.2.trans hnow
  cases t.outcomes.lookup p.pk with
  | none => simp [hmem, List.contains_iff_mem.mp hdue.1.1, htime]
  | some outcome => simp

/-- After as many runs as predictions were due all of these that have their candles are resolved,
exactly if each of them can be labelled and, of those due before it, none raises and fewer than a
batch are skipped. -/
theorem outcomes_resolved_iff {host : Host} {s : Research} {timeframe : Timeframe}
    {horizon_candles : ℤ} {batch_size : ℕ} {waits : List ℕ}
    (hpk : (s.predictions.map Prediction.pk).Nodup)
    (hruns : (due s timeframe horizon_candles).length ≤ waits.length) :
    (∀ p ∈ due s timeframe horizon_candles, Available host s ⟨timeframe, horizon_candles, []⟩ p →
        ((resolvings host timeframe horizon_candles batch_size waits s).outcomes.lookup p.pk).isSome =
          true) ↔
      ∀ before p after, due s timeframe horizon_candles = before ++ p :: after →
        Available host s ⟨timeframe, horizon_candles, []⟩ p →
          (0 ≤ horizon_candles ∧ p.readable = true) ∧
            Backlog.Unblocked (standing host s ⟨timeframe, horizon_candles, []⟩) batch_size before := by
  obtain ⟨news, hlength, hlate, hdue⟩ :=
    resolvings_due host timeframe horizon_candles batch_size hpk waits
  obtain ⟨hpredictions, hnow⟩ :=
    resolvings_untouched host timeframe horizon_candles batch_size waits s
  have hnodup : (due s timeframe horizon_candles).Nodup := List.Nodup.of_map _ (due_nodup hpk)
  have hnews : ∀ new ∈ news, ∀ p ∈ due s timeframe horizon_candles, p ∉ new := by
    intro new hnew p hp hmem
    have hlater := hlate new hnew p hmem
    have hdue := (mem_due.mp hp).2
    simp only [isDue, Bool.and_eq_true, decide_eq_true_eq] at hdue
    exact absurd hdue.1.2 (Nat.not_le.mpr hlater)
  have hcleared := @Backlog.cleared_iff _ (standing host s ⟨timeframe, horizon_candles, []⟩)
    batch_size _ news (Available host s ⟨timeframe, horizon_candles, []⟩) hnodup hnews (by omega)
  rw [← hdue] at hcleared
  refine Iff.trans ?_ (hcleared.trans ?_)
  · refine forall₂_congr fun p hp => forall_congr' fun _ => ?_
    exact resolved_iff hp hpredictions hnow
  · refine forall₃_congr fun before p after => forall₂_congr fun _ havailable => ?_
    rw [standing_done_iff havailable]

/-! ## A market that is gone -/

/-- A prediction for a market that is not in the catalogue any more, and a later one. -/
def stranded : Research :=
  { unresearched with
    now := 1700000200000000
    store := minute 101
    predictions := [{ buy with pk := 2, created_at := 1700000050000000 },
      { buy with symbol := "R_10", created_at := 1700000040000000 }] }

/-- The later one has its candle. -/
theorem stranded_available :
    Available .ascii stranded ⟨.m1, 1, []⟩ { buy with pk := 2, created_at := 1700000050000000 } := by
  have hlength : (future .ascii stranded ⟨.m1, 1, []⟩
      { buy with pk := 2, created_at := 1700000050000000 }).any (fun found => 1 ≤ found.length) =
        true := by
    decide +kernel
  obtain ⟨found, hfuture, hfound⟩ := (Option.any_eq_true _ _).mp hlength
  exact ⟨found, hfuture, of_decide_eq_true hfound⟩

/-- The first run of a batch of two resolves it. -/
theorem second_resolved : (due stranded .m1 1).length = 2 ∧
    ∀ p ∈ due stranded .m1 1, Available .ascii stranded ⟨.m1, 1, []⟩ p →
      ((resolvings .ascii .m1 1 2 [300000000, 300000000] stranded).outcomes.lookup p.pk).isSome =
        true := by
  have hlength : (due stranded .m1 1).length = 2 := by decide +kernel
  refine ⟨hlength, (outcomes_resolved_iff (by decide) (by decide +kernel)).mpr ?_⟩
  intro before p after hsplit _
  have hquiet : ∀ q ∈ due stranded .m1 1, standing .ascii stranded ⟨.m1, 1, []⟩ q ≠ .raise := by
    decide +kernel
  have hreadable : ∀ q ∈ due stranded .m1 1, q.readable = true := by decide +kernel
  rw [hsplit] at hlength hquiet hreadable
  rw [List.length_append, List.length_cons] at hlength
  refine ⟨⟨by decide, hreadable p (List.mem_append_right _ List.mem_cons_self)⟩,
    fun q hq => hquiet q (List.mem_append_left _ hq), ?_⟩
  exact List.countP_le_length.trans_lt (by omega)

/-- With a batch of one every run takes the first one only. -/
theorem starved :
    ¬ ∀ (host : Host) (s : Research) (timeframe : Timeframe) (horizon_candles : ℤ)
      (batch_size : ℕ) (waits : List ℕ), (s.predictions.map Prediction.pk).Nodup →
      1 ≤ batch_size → (due s timeframe horizon_candles).length ≤ waits.length →
      ∀ p ∈ due s timeframe horizon_candles,
        Available host s ⟨timeframe, horizon_candles, []⟩ p →
        ((resolvings host timeframe horizon_candles batch_size waits s).outcomes.lookup
          p.pk).isSome = true := by
  intro hall
  have hmem : { buy with pk := 2, created_at := 1700000050000000 } ∈ due stranded .m1 1 :=
    mem_due.mpr ⟨List.mem_cons_self, by decide +kernel⟩
  have hresolved := hall .ascii stranded .m1 1 1 [300000000, 300000000] (by decide) le_rfl
    (by decide +kernel) _ hmem stranded_available
  have hopen : ((resolvings .ascii .m1 1 1 [300000000, 300000000] stranded).outcomes.lookup
      2).isSome = false := by
    decide +kernel
  exact absurd hresolved (by rw [hopen]; decide)

end AlgoBot.AiEngine
