import AlgoBot.Core.Cache
import AlgoBot.Core.Lock
import AlgoBot.MarketData.Models

/-!
# Closed candles

`process_closed_candle` adds a cache key for its candle, reads the last sixty
candles up to it, makes a prediction and a recommendation, and leaves the key
behind. Any number of its runs overlap, for the same candle or for others, while
candles come and go.

Whatever is raised after the key was added takes the key out again, also where
the prediction has been made. The candle itself need not be among those read.

* `one_prediction`: in every run of the system in which nothing is raised after a
  prediction, and the candle is stored when a call reads, there is one prediction
  for a candle, and it is made of the candles up to that one.
* `predicted_again`: the recommendation fails, and the task is delivered again.
-/

namespace AlgoBot.AiEngine

open AlgoBot.Core AlgoBot.Python AlgoBot.MarketData

namespace ClosedCandle

/-! ## The task -/

/-- The lifetime of the key while a call is under way, in seconds. -/
def PROCESSING : ℕ := 300

/-- The lifetime of the key that a call leaves. -/
def PROCESSED : ℕ := 6 * 60 * 60

def REQUIRED_CANDLES : ℕ := 60

/-- `f"ai:closed-candle:{symbol}:1m:{target_epoch}"`, which tells both. -/
structure LockKey where
  symbol : String
  target_epoch : ℤ
  deriving DecidableEq, Repr

/-- The values of a key. -/
inductive Status
  | processing
  | insufficient_history
  | completed
  deriving DecidableEq, Repr

/-- The epoch of the candle that is named; `none` where the task returns without looking for it, or
raises in `int(epoch)`. -/
def target (host : Host) (timeframe epoch : Value) : Option ℤ :=
  if host.lower (textOr host timeframe "1m") ≠ "1m" then none
  else match epoch.toInt host with
    | .ok n => some n
    | .error _ => none

/-- The candles of a market up to the epoch, the latest first. -/
def latest (symbolOf : ℕ → String) (candles : Candles) (key : LockKey) : List (ℤ × Candle) :=
  ((candles.entries.filter fun row =>
      symbolOf row.1.market = key.symbol && row.1.timeframe = .m1 &&
        row.2.source = .tick_stream && row.1.epoch ≤ key.target_epoch).map
      fun row => (row.1.epoch, row.2)).insertionSort fun a b => b.1 ≤ a.1

/-- `rows`: the sixty latest ones, the earliest first. -/
def rows (symbolOf : ℕ → String) (candles : Candles) (key : LockKey) : List (ℤ × Candle) :=
  ((latest symbolOf candles key).take REQUIRED_CANDLES).reverse

/-- What the features are computed from: the candles, and the prices of the last one. -/
structure Context where
  candles : List (ℤ × Candle)
  market_data : Option Candle

/-- `context`. -/
def context (rows : List (ℤ × Candle)) : Context := ⟨rows, rows.getLast?.map Prod.snd⟩

/-- A prediction, with the candle it has been made for. -/
structure Made where
  key : LockKey
  context : Context

/-- A call: before it, in its `try` block, and after it. -/
inductive Call
  | waiting
  | claimed (key : LockKey)
  | short (key : LockKey)
  | read (key : LockKey) (rows : List (ℤ × Candle))
  | predicted (key : LockKey)
  | recommended (key : LockKey)
  | ended

structure System where
  now : ℕ
  cache : Cache LockKey Status
  candles : Candles
  calls : ℕ → Call
  predictions : List Made

def System.start (candles : Candles) : System := ⟨0, fun _ => none, candles, fun _ => .waiting, []⟩

inductive Action
  /-- Call `i` begins. -/
  | call (i : ℕ) (symbol : String) (timeframe epoch : Value)
  | read (i : ℕ)
  | predict (i : ℕ)
  | recommend (i : ℕ)
  /-- Call `i` writes its key and returns. -/
  | finish (i : ℕ)
  /-- Something is raised in the `try` block of call `i`. -/
  | fail (i : ℕ)
  /-- The worker of call `i` dies. -/
  | crash (i : ℕ)
  /-- The stored candles change. -/
  | store (candles : Candles)
  | tick (seconds : ℕ)

/-- The key of a call in its `try` block. -/
def Call.key? : Call → Option LockKey
  | .claimed key => some key
  | .short key => some key
  | .read key _ => some key
  | .predicted key => some key
  | .recommended key => some key
  | _ => none

def System.set (s : System) (i : ℕ) (call : Call) : System :=
  { s with calls := Function.update s.calls i call }

def System.next (host : Host) (symbolOf : ℕ → String) (s : System) : Action → Option System
  | .call i symbol timeframe epoch =>
      match s.calls i with
      | .waiting =>
          match target host timeframe epoch with
          | none => some (s.set i .ended)
          | some target_epoch =>
              match s.cache.add s.now ⟨symbol, target_epoch⟩ .processing PROCESSING with
              | some cache => some { (s.set i (.claimed ⟨symbol, target_epoch⟩)) with cache := cache }
              | none => some (s.set i .ended)
      | _ => none
  | .read i =>
      match s.calls i with
      | .claimed key =>
          if (rows symbolOf s.candles key).length < REQUIRED_CANDLES then some (s.set i (.short key))
          else some (s.set i (.read key (rows symbolOf s.candles key)))
      | _ => none
  | .predict i =>
      match s.calls i with
      | .read key rows =>
          some { (s.set i (.predicted key)) with
            predictions := ⟨key, context rows⟩ :: s.predictions }
      | _ => none
  | .recommend i =>
      match s.calls i with
      | .predicted key => some (s.set i (.recommended key))
      | _ => none
  | .finish i =>
      match s.calls i with
      | .short key =>
          some { (s.set i .ended) with
            cache := s.cache.set key .insufficient_history (s.now + PROCESSED) }
      | .recommended key =>
          some { (s.set i .ended) with cache := s.cache.set key .completed (s.now + PROCESSED) }
      | _ => none
  | .fail i =>
      match (s.calls i).key? with
      | some key => some { (s.set i .ended) with cache := s.cache.delete key }
      | none => none
  | .crash i =>
      match (s.calls i).key? with
      | some _ => some (s.set i .ended)
      | none => none
  | .store candles => some { s with candles := candles }
  | .tick seconds => some { s with now := s.now + seconds }

def system (host : Host) (symbolOf : ℕ → String) : Machine System Action where
  next := System.next host symbolOf

/-! ## What is asked of it -/

/-- The candles end with the one that is named, whose prices are the market data. -/
def Made.EndsAt (p : Made) : Prop :=
  (∀ row ∈ p.context.candles, row.1 ≤ p.key.target_epoch) ∧
    ∃ candle, p.context.candles.getLast? = some (p.key.target_epoch, candle) ∧
      p.context.market_data = some candle

/-- There is one prediction for a candle, and each is made of the candles up to its own. -/
structure Sound (s : System) : Prop where
  one : ∀ key, (s.predictions.filter fun p => p.key = key).length ≤ 1
  exact : ∀ p ∈ s.predictions, p.EndsAt

/-- A call comes within the lifetime of the key of its candle. -/
def WithinLifetime (host : Host) (s : System) : Action → Prop
  | .call _ symbol timeframe epoch =>
      ∀ e, target host timeframe epoch = some e → s.cache.Fresh s.now ⟨symbol, e⟩
  | _ => True

/-- The candle that is named is stored. -/
def Stored (symbolOf : ℕ → String) (candles : Candles) (key : LockKey) : Prop :=
  ∃ market candle, symbolOf market = key.symbol ∧ candle.source = .tick_stream ∧
    candles.lookup ⟨market, .m1, key.target_epoch⟩ = some candle

/-- Nothing is raised once a prediction is made, and a call that finds enough candles finds the one
that is named. -/
def Careful (symbolOf : ℕ → String) (s : System) : Action → Prop
  | .read i => ∀ key, s.calls i = .claimed key →
      REQUIRED_CANDLES ≤ (rows symbolOf s.candles key).length → Stored symbolOf s.candles key
  | .fail i => ∀ key, s.calls i ≠ .predicted key ∧ s.calls i ≠ .recommended key
  | _ => True

variable {host : Host} {symbolOf : ℕ → String} {s s' t : System} {a : Action} {as : List Action}
  {key : LockKey} {candles : Candles} {i : ℕ}

/-! ## The candles that are read -/

theorem mem_latest {row : ℤ × Candle} : row ∈ latest symbolOf candles key ↔
    ∃ market, candles.lookup ⟨market, .m1, row.1⟩ = some row.2 ∧ symbolOf market = key.symbol ∧
      row.2.source = .tick_stream ∧ row.1 ≤ key.target_epoch := by
  obtain ⟨epoch, candle⟩ := row
  rw [latest, List.mem_insertionSort, List.mem_map]
  constructor
  · rintro ⟨⟨⟨market, timeframe, e⟩, c⟩, hmem, heq⟩
    obtain ⟨hentry, hrow⟩ := List.mem_filter.mp hmem
    simp only [Bool.and_eq_true, decide_eq_true_eq] at hrow
    obtain ⟨⟨⟨hsymbol, rfl⟩, hsource⟩, hepoch⟩ := hrow
    obtain ⟨rfl, rfl⟩ := Prod.mk.inj heq
    exact ⟨market, AList.mem_lookup_iff.mpr hentry, hsymbol, hsource, hepoch⟩
  · rintro ⟨market, hlookup, hsymbol, hsource, hepoch⟩
    refine ⟨⟨⟨market, .m1, epoch⟩, candle⟩,
      List.mem_filter.mpr ⟨AList.mem_lookup_iff.mp hlookup, ?_⟩, rfl⟩
    simpa [hsymbol, hepoch] using hsource

/-- No candle after the one that is named is read, whatever is stored. -/
theorem rows_le {row : ℤ × Candle} (hrow : row ∈ rows symbolOf candles key) :
    row.1 ≤ key.target_epoch := by
  rw [rows, List.mem_reverse] at hrow
  obtain ⟨_, _, _, _, hle⟩ := mem_latest.mp (List.mem_of_mem_take hrow)
  exact hle

/-- Where the candle that is named is stored, it is the last one that is read. -/
theorem rows_endsAt (hstored : Stored symbolOf candles key) :
    (Made.mk key (context (rows symbolOf candles key))).EndsAt := by
  refine ⟨fun row hrow => rows_le hrow, ?_⟩
  obtain ⟨market, candle, hsymbol, hsource, hlookup⟩ := hstored
  have hmem : (key.target_epoch, candle) ∈ latest symbolOf candles key :=
    mem_latest.mpr ⟨market, hlookup, hsymbol, hsource, le_refl _⟩
  have hlast : (rows symbolOf candles key).getLast? = (latest symbolOf candles key).head? := by
    rw [rows, List.getLast?_reverse, List.head?_take, if_neg (by decide)]
  have hsorted : (latest symbolOf candles key).Pairwise fun a b => b.1 ≤ a.1 :=
    List.pairwise_insertionSort (fun a b : ℤ × Candle => b.1 ≤ a.1) _
  cases hlatest : latest symbolOf candles key with
  | nil =>
    rw [hlatest] at hmem
    cases hmem
  | cons first rest =>
    rw [hlatest] at hmem hsorted hlast
    have hfirst : first.1 ≤ key.target_epoch := by
      have hfirst : first ∈ latest symbolOf candles key := hlatest ▸ List.mem_cons_self
      obtain ⟨_, _, _, _, hle⟩ := mem_latest.mp hfirst
      exact hle
    have hnewest : key.target_epoch ≤ first.1 := by
      rcases List.mem_cons.mp hmem with heq | hrest
      · rw [← heq]
      · exact (List.pairwise_cons.mp hsorted).1 _ hrest
    have hepoch : first = (key.target_epoch, first.2) :=
      Prod.ext (le_antisymm hfirst hnewest) rfl
    refine ⟨first.2, ?_, ?_⟩
    · show (rows symbolOf candles key).getLast? = _
      rw [hlast, List.head?_cons, ← hepoch]
    · show ((rows symbolOf candles key).getLast?).map Prod.snd = _
      rw [hlast, List.head?_cons, Option.map_some]

/-! ## Steps -/

/-- What a step does. -/
inductive Step (host : Host) (symbolOf : ℕ → String) (s : System) : Action → System → Prop
  | refuse (i : ℕ) (symbol : String) (timeframe epoch : Value) (hwaiting : s.calls i = .waiting) :
      Step host symbolOf s (.call i symbol timeframe epoch) (s.set i .ended)
  | enter (i : ℕ) (symbol : String) (timeframe epoch : Value) (e : ℤ)
      (hwaiting : s.calls i = .waiting) (htarget : target host timeframe epoch = some e)
      (hfree : s.cache.get s.now ⟨symbol, e⟩ = none) :
      Step host symbolOf s (.call i symbol timeframe epoch)
        { (s.set i (.claimed ⟨symbol, e⟩)) with
          cache := s.cache.set ⟨symbol, e⟩ .processing (s.now + PROCESSING) }
  | short (i : ℕ) (key : LockKey) (hcall : s.calls i = .claimed key) :
      Step host symbolOf s (.read i) (s.set i (.short key))
  | read (i : ℕ) (key : LockKey) (hcall : s.calls i = .claimed key)
      (hlong : REQUIRED_CANDLES ≤ (rows symbolOf s.candles key).length) :
      Step host symbolOf s (.read i) (s.set i (.read key (rows symbolOf s.candles key)))
  | predict (i : ℕ) (key : LockKey) (rows : List (ℤ × Candle)) (hcall : s.calls i = .read key rows) :
      Step host symbolOf s (.predict i)
        { (s.set i (.predicted key)) with predictions := ⟨key, context rows⟩ :: s.predictions }
  | recommend (i : ℕ) (key : LockKey) (hcall : s.calls i = .predicted key) :
      Step host symbolOf s (.recommend i) (s.set i (.recommended key))
  | finish (i : ℕ) (key : LockKey) (status : Status) :
      Step host symbolOf s (.finish i)
        { (s.set i .ended) with cache := s.cache.set key status (s.now + PROCESSED) }
  | fail (i : ℕ) (key : LockKey) (hcall : (s.calls i).key? = some key) :
      Step host symbolOf s (.fail i) { (s.set i .ended) with cache := s.cache.delete key }
  | crash (i : ℕ) : Step host symbolOf s (.crash i) (s.set i .ended)
  | store (candles : Candles) : Step host symbolOf s (.store candles) { s with candles := candles }
  | tick (seconds : ℕ) : Step host symbolOf s (.tick seconds) { s with now := s.now + seconds }

theorem step_cases (hnext : (system host symbolOf).next s a = some s') :
    Step host symbolOf s a s' := by
  cases a with
  | call i symbol timeframe epoch =>
    simp only [system, System.next] at hnext
    split at hnext
    · next hwaiting =>
      split at hnext
      · cases hnext
        exact Step.refuse i symbol timeframe epoch hwaiting
      · next e htarget =>
        split at hnext
        · next cache hadd =>
          obtain ⟨hfree, rfl⟩ := Cache.add_eq_some.mp hadd
          cases hnext
          exact Step.enter i symbol timeframe epoch e hwaiting htarget hfree
        · cases hnext
          exact Step.refuse i symbol timeframe epoch hwaiting
    · cases hnext
  | read i =>
    simp only [system, System.next] at hnext
    split at hnext
    · next key hcall =>
      split at hnext
      · cases hnext
        exact Step.short i key hcall
      · next hlong =>
        cases hnext
        exact Step.read i key hcall (not_lt.mp hlong)
    · cases hnext
  | predict i =>
    simp only [system, System.next] at hnext
    split at hnext
    · next key rows hcall =>
      cases hnext
      exact Step.predict i key rows hcall
    · cases hnext
  | recommend i =>
    simp only [system, System.next] at hnext
    split at hnext
    · next key hcall =>
      cases hnext
      exact Step.recommend i key hcall
    · cases hnext
  | finish i =>
    simp only [system, System.next] at hnext
    split at hnext
    · next key hcall =>
      cases hnext
      exact Step.finish i key .insufficient_history
    · next key hcall =>
      cases hnext
      exact Step.finish i key .completed
    · cases hnext
  | fail i =>
    simp only [system, System.next] at hnext
    split at hnext
    · next key hcall =>
      cases hnext
      exact Step.fail i key hcall
    · cases hnext
  | crash i =>
    simp only [system, System.next] at hnext
    split at hnext
    · cases hnext
      exact Step.crash i
    · cases hnext
  | store candles =>
    cases hnext
    exact Step.store candles
  | tick seconds =>
    cases hnext
    exact Step.tick seconds

/-! ## The key -/

/-- The call holds the key and has made no prediction. -/
def Call.holds (key : LockKey) : Call → Bool
  | .claimed k => k = key
  | .short k => k = key
  | .read k _ => k = key
  | _ => false

/-- The calls around a key. -/
def lock (key : LockKey) : Lock System ℕ Call where
  procs := System.calls
  holds := Call.holds key
  locked s := s.cache key ≠ none

/-- The predictions for a candle. -/
def count (key : LockKey) (s : System) : ℕ := (s.predictions.filter fun p => p.key = key).length

/-- A call that has its key and has made no prediction holds it. -/
theorem holds_of_key (hkey : (s.calls i).key? = some key)
    (hbefore : ∀ k, s.calls i ≠ .predicted k ∧ s.calls i ≠ .recommended k) :
    (s.calls i).holds key = true := by
  cases hcall : s.calls i with
  | predicted k => exact absurd hcall (hbefore k).1
  | recommended k => exact absurd hcall (hbefore k).2
  | waiting | ended =>
    rw [hcall] at hkey
    cases hkey
  | claimed k | short k | read k rows =>
    rw [hcall] at hkey
    cases hkey
    simp [Call.holds]

/-- What a careful step does to the calls around a key. -/
theorem lockStep (hstep : Step host symbolOf s a s') (hlife : WithinLifetime host s a)
    (hcareful : Careful symbolOf s a) (key : LockKey) :
    ∃ fired, LockStep (lock key) s s' fired ∧ count key s' = count key s + fired := by
  cases hstep with
  | refuse i symbol timeframe epoch hwaiting =>
    exact ⟨0, .passes i .ended rfl rfl id rfl, rfl⟩
  | enter i symbol timeframe epoch e hwaiting htarget hfree =>
    refine ⟨0, ?_, rfl⟩
    by_cases hkey : key = ⟨symbol, e⟩
    · subst hkey
      have hnone := (hlife e htarget).eq_none hfree
      refine .takes i (.claimed ⟨symbol, e⟩) rfl (fun hlocked => hlocked hnone) ?_ rfl
      show s.cache.set _ _ _ _ ≠ none
      rw [Cache.set_self]
      exact Option.some_ne_none _
    · -- another candle's key is added
      refine .passes i (.claimed ⟨symbol, e⟩) rfl (decide_eq_false (Ne.symm hkey)) ?_ rfl
      intro hlocked
      show s.cache.set _ _ _ _ ≠ none
      rwa [Cache.set_of_ne _ _ _ hkey]
  | short i k hcall =>
    refine ⟨0, ?_, rfl⟩
    by_cases hkey : k = key
    · refine .goes i (.short k) rfl ?_ id rfl
      show (s.calls i).holds key = true
      rw [hcall]
      exact decide_eq_true hkey
    · exact .passes i (.short k) rfl (decide_eq_false hkey) id rfl
  | read i k hcall hlong =>
    refine ⟨0, ?_, rfl⟩
    by_cases hkey : k = key
    · refine .goes i (.read k _) rfl ?_ id rfl
      show (s.calls i).holds key = true
      rw [hcall]
      exact decide_eq_true hkey
    · exact .passes i (.read k _) rfl (decide_eq_false hkey) id rfl
  | predict i k rows hcall =>
    by_cases hkey : k = key
    · refine ⟨1, .fires i (.predicted k) rfl ?_ rfl id le_rfl, ?_⟩
      · show (s.calls i).holds key = true
        rw [hcall]
        exact decide_eq_true hkey
      · simp [count, hkey]
    · exact ⟨0, .passes i (.predicted k) rfl rfl id rfl, by simp [count, hkey]⟩
  | recommend i k hcall => exact ⟨0, .passes i (.recommended k) rfl rfl id rfl, rfl⟩
  | finish i k status =>
    refine ⟨0, .passes i .ended rfl rfl ?_ rfl, rfl⟩
    intro hlocked
    show s.cache.set _ _ _ _ ≠ none
    by_cases hkey : key = k
    · rw [hkey, Cache.set_self]
      exact Option.some_ne_none _
    · rwa [Cache.set_of_ne _ _ _ hkey]
  | fail i k hcall =>
    refine ⟨0, ?_, rfl⟩
    by_cases hkey : key = k
    · subst hkey
      exact .gives i .ended rfl (holds_of_key hcall hcareful) rfl rfl
    · refine .passes i .ended rfl rfl ?_ rfl
      intro hlocked
      show s.cache.delete _ _ ≠ none
      rwa [Cache.delete_of_ne _ hkey]
  | crash i => exact ⟨0, .passes i .ended rfl rfl id rfl, rfl⟩
  | store candles => exact ⟨0, .rests rfl id rfl, rfl⟩
  | tick seconds => exact ⟨0, .rests rfl id rfl, rfl⟩

/-! ## Runs -/

/-- One call at a time has the key of a candle before its prediction, and none after it. -/
structure Single (s : System) (key : LockKey) : Prop where
  owned : Owned (Call.holds key) (s.cache key ≠ none) s.calls
  one : count key s ≤ 1
  shut : count key s ≠ 0 → Shut (lock key) s

/-- The predictions, and what the calls have read for one, end at the candle that is named. -/
structure Exact (s : System) : Prop where
  made : ∀ p ∈ s.predictions, p.EndsAt
  read : ∀ i key rows, s.calls i = .read key rows → (Made.mk key (context rows)).EndsAt

theorem single_start : Single (System.start candles) key := by
  have howned : Owned (Call.holds key) ((System.start candles).cache key ≠ none)
      (System.start candles).calls := Owned.of_idle fun _ => rfl
  exact ⟨howned, Nat.zero_le 1, fun hne => absurd rfl hne⟩

theorem single_step (hstep : Step host symbolOf s a s') (hlife : WithinLifetime host s a)
    (hcareful : Careful symbolOf s a) (hsingle : Single s key) : Single s' key := by
  obtain ⟨fired, hlock, hcount⟩ := lockStep hstep hlife hcareful key
  -- while there is no prediction the key has one owner, and once there is one it has none any more
  refine ⟨hlock.owned hsingle.owned, ?_, ?_⟩
  · by_cases hmade : count key s = 0
    · have hle := hlock.fired_le_one
      omega
    · have hnone := (hlock.keeps_shut (hsingle.shut hmade)).2
      have hle := hsingle.one
      omega
  · intro hne
    by_cases hmade : count key s = 0
    · exact hlock.shut_of_fire hsingle.owned (by omega)
    · exact (hlock.keeps_shut (hsingle.shut hmade)).1

theorem exact_start : Exact (System.start candles) := by
  constructor
  · intro p hp
    cases hp
  · intro i key rows hcall
    cases hcall

/-- Where a call moves on without having read, the others have read what they had. -/
theorem Exact.set (hexact : Exact s) {i : ℕ} {call : Call}
    (hcall : ∀ key rows, call = .read key rows → (Made.mk key (context rows)).EndsAt)
    (hcalls : s'.calls = Function.update s.calls i call)
    (hmade : ∀ p ∈ s'.predictions, p ∈ s.predictions ∨ p.EndsAt) : Exact s' := by
  constructor
  · intro p hp
    rcases hmade p hp with hold | hends
    · exact hexact.made p hold
    · exact hends
  · intro j key rows hread
    rw [hcalls, Function.update_apply] at hread
    split at hread
    · exact hcall key rows hread
    · exact hexact.read j key rows hread

theorem exact_step (hstep : Step host symbolOf s a s') (hcareful : Careful symbolOf s a)
    (hexact : Exact s) : Exact s' := by
  cases hstep with
  | refuse i | enter i | short i | recommend i | finish i | fail i | crash i =>
    -- none of these reads candles or makes a prediction
    refine hexact.set ?_ rfl fun p hp => Or.inl hp
    intro key rows hread
    cases hread
  | read i key hcall hlong =>
    refine hexact.set ?_ rfl fun p hp => Or.inl hp
    intro key' rows' hread
    cases hread
    exact rows_endsAt (hcareful key hcall hlong)
  | predict i key rows hcall =>
    refine hexact.set ?_ rfl ?_
    · intro key' rows' hread
      cases hread
    · intro p hp
      rcases List.mem_cons.mp hp with rfl | hold
      · exact Or.inr (hexact.read i key rows hcall)
      · exact Or.inl hold
  | store candles => exact ⟨hexact.made, hexact.read⟩
  | tick seconds => exact ⟨hexact.made, hexact.read⟩

/-- Within the lifetime of the keys, where nothing is raised once a prediction is made and a call
that finds enough candles finds the one that is named, there is at any time one prediction for a
candle, and each is made of the candles up to its own. -/
theorem one_prediction
    (hrun : (system host symbolOf).RunIf (fun s a => WithinLifetime host s a ∧ Careful symbolOf s a)
      (System.start candles) as t) :
    Machine.RunIf.Always (system host symbolOf) Sound (System.start candles) as := by
  have hinv : Machine.RunIf.Always (system host symbolOf)
      (fun s => (∀ key, Single s key) ∧ Exact s) (System.start candles) as := by
    refine hrun.always ?_ ⟨fun key => single_start, exact_start⟩
    rintro s a s' ⟨hlife, hcareful⟩ ⟨hsingle, hexact⟩ hnext
    have hstep := step_cases hnext
    exact ⟨fun key => single_step hstep hlife hcareful (hsingle key),
      exact_step hstep hcareful hexact⟩
  intro before rest u has hu
  obtain ⟨hsingle, hexact⟩ := hinv before rest u has hu
  exact ⟨fun key => (hsingle key).one, hexact.made⟩

/-! ## A task that is delivered again -/

/-- The steps of the condition. -/
abbrev Guard (host : Host) (symbolOf : ℕ → String) (s : System) (a : Action) : Prop :=
  WithinLifetime host s a ∧ Careful symbolOf s a

/-- What the step of a call to its prediction leaves. -/
def System.afterPrediction (symbolOf : ℕ → String) (s : System) (i : ℕ) (key : LockKey) : System :=
  { s with
    cache := s.cache.set key .processing (s.now + PROCESSING)
    calls := Function.update s.calls i (.predicted key)
    predictions := ⟨key, context (rows symbolOf s.candles key)⟩ :: s.predictions }

/-- A call whose key is free makes its prediction where it finds its candle and enough before it. -/
theorem predicts {timeframe epoch : Value} (hwaiting : s.calls i = .waiting)
    (htarget : target host timeframe epoch = some key.target_epoch) (hfree : s.cache key = none)
    (hlong : REQUIRED_CANDLES ≤ (rows symbolOf s.candles key).length)
    (hstored : Stored symbolOf s.candles key) :
    (system host symbolOf).RunIf (Guard host symbolOf) s
      [.call i key.symbol timeframe epoch, .read i, .predict i]
      (s.afterPrediction symbolOf i key) := by
  have hadd : s.cache.add s.now ⟨key.symbol, key.target_epoch⟩ .processing PROCESSING =
      some (s.cache.set key .processing (s.now + PROCESSING)) :=
    Cache.add_eq_some.mpr ⟨Cache.get_eq_none hfree, rfl⟩
  let claimed : System := { s with
    cache := s.cache.set key .processing (s.now + PROCESSING)
    calls := Function.update s.calls i (.claimed key) }
  let found : System := { claimed with
    calls := Function.update s.calls i (.read key (rows symbolOf s.candles key)) }
  have hclaim : (system host symbolOf).next s (.call i key.symbol timeframe epoch) =
      some claimed := by
    simp only [system, System.next, hwaiting, htarget, hadd]
    rfl
  have hclaimed : claimed.calls i = .claimed key := Function.update_self ..
  have hread : (system host symbolOf).next claimed (.read i) = some found := by
    simp only [system, System.next, hclaimed]
    rw [if_neg (not_lt.mpr hlong)]
    simp [System.set, claimed, found]
  have hfound : found.calls i = .read key (rows symbolOf s.candles key) := Function.update_self ..
  have hpredict : (system host symbolOf).next found (.predict i) =
      some (s.afterPrediction symbolOf i key) := by
    simp only [system, System.next, hfound]
    simp [System.set, System.afterPrediction, claimed, found]
  have hfresh : WithinLifetime host s (.call i key.symbol timeframe epoch) := by
    intro e he entry hentry
    obtain rfl := Option.some.inj (htarget.symm.trans he)
    rw [hfree] at hentry
    cases hentry
  have hstill : Careful symbolOf claimed (.read i) := by
    intro key' hcall _
    cases hclaimed.symm.trans hcall
    exact hstored
  exact .cons ⟨hfresh, trivial⟩ hclaim (.cons ⟨trivial, hstill⟩ hread
    (.cons ⟨trivial, trivial⟩ hpredict (.nil _)))

/-- An hour of candles of one market. -/
def hour : Candles :=
  ((List.range 60).map fun k : ℕ =>
    (⟨⟨0, .m1, 60 * k⟩, ⟨1, 1, 1, 1, 0, .tick_stream⟩⟩ : (_ : Bar) × Candle)).toAList

/-- The last candle of the hour. -/
def lastKey : LockKey := ⟨"R_100", 3540⟩

theorem long_hour : REQUIRED_CANDLES ≤ (rows (fun _ => "R_100") hour lastKey).length := by
  decide +kernel

theorem stored_hour : Stored (fun _ => "R_100") hour lastKey :=
  ⟨0, ⟨1, 1, 1, 1, 0, .tick_stream⟩, rfl, rfl, by decide +kernel⟩

theorem target_lastKey : target Host.ascii (.str "1m") (.int 3540) = some lastKey.target_epoch := by
  decide

/-- The steps to the prediction for the last candle. -/
abbrev toPrediction (i : ℕ) : List Action :=
  [.call i lastKey.symbol (.str "1m") (.int 3540), .read i, .predict i]

theorem first_predicts : (system Host.ascii fun _ => "R_100").RunIf
    (Guard Host.ascii fun _ => "R_100") (System.start hour) (toPrediction 0)
    ((System.start hour).afterPrediction (fun _ => "R_100") 0 lastKey) :=
  predicts rfl target_lastKey rfl long_hour stored_hour

/-- The hour with its last candle predicted is sound all along. -/
theorem hour_predicted : Machine.RunIf.Always (system Host.ascii fun _ => "R_100") Sound
    (System.start hour) (toPrediction 0) := one_prediction first_predicts

/-- The recommendation fails after the prediction, the key is deleted, and the task that is
delivered again predicts again. -/
theorem predicted_again : ¬ ∀ host symbolOf candles as t,
    (system host symbolOf).RunIf (WithinLifetime host) (System.start candles) as t →
      Machine.RunIf.Always (system host symbolOf) Sound (System.start candles) as := by
  intro hall
  let made := (System.start hour).afterPrediction (fun _ => "R_100") 0 lastKey
  let failed : System := { made.set 0 .ended with cache := made.cache.delete lastKey }
  have hfree : failed.cache lastKey = none := Cache.delete_self made.cache lastKey
  have hsecond : (system Host.ascii fun _ => "R_100").RunIf (Guard Host.ascii fun _ => "R_100") failed
      (toPrediction 1) (failed.afterPrediction (fun _ => "R_100") 1 lastKey) :=
    predicts rfl target_lastKey hfree long_hour stored_hour
  have hfails : (system Host.ascii fun _ => "R_100").RunIf (WithinLifetime Host.ascii)
      made [.fail 0] failed :=
    .cons trivial rfl (.nil _)
  have hrun := ((first_predicts.mono fun _ _ h => h.1).append hfails).append
    (hsecond.mono fun _ _ h => h.1)
  have hsound := hall _ _ _ _ _ hrun _ [] _ (List.append_nil _).symm (hrun.mono fun _ _ _ => trivial)
  have htwo := hsound.one lastKey
  simp [System.afterPrediction, System.set, made, failed, System.start] at htwo

end ClosedCandle

end AlgoBot.AiEngine
