import AlgoBot.AiEngine.Champion
import AlgoBot.Core.Cache

/-!
# The lock of the scheduled training

`scheduled_ai_training` adds a cache key for its timeframe, trains, and deletes
the key in the end. The key carries the timeframe as it is spelled, in lower
case, and it expires after four hours, however long the training takes.

* `exclusive_iff`: in every run of the system no two trainings of a timeframe
  overlap while one of them holds its key, and none deletes the key of another,
  exactly if each is let in only beside trainings of the same spelling whose keys
  have not expired, and none that has outlived its key finds it taken again when
  it ends.
* `aliases_overlap`: `M1` and `1m`.
-/

namespace AlgoBot.AiEngine

open AlgoBot.Core AlgoBot.Python

namespace Scheduled

/-! ## The task -/

/-- The lifetime of the key, in seconds. -/
def TIMEOUT : ℕ := 4 * 60 * 60

/-- `str(timeframe or "M1").strip().lower()`. -/
def canonical (host : CaseHost) (timeframe : String) : String :=
  host.lower (strip (if timeframe = "" then "M1" else timeframe))

def lock_key (host : CaseHost) (timeframe : String) : String :=
  "ai:scheduled-training:" ++ canonical host timeframe

/-- A call of the task: before it, in its `try` block with the time its key expires at, and after
it. -/
inductive Call
  | waiting
  | running (timeframe : String) (deadline : ℕ)
  | ended

/-- The shared cache, where the value of a key is the call that added it, and the calls. -/
structure Tasks where
  now : ℕ
  cache : Cache String ℕ
  calls : ℕ → Call

def Tasks.start : Tasks := ⟨0, fun _ => none, fun _ => .waiting⟩

inductive Action
  /-- Call `i` begins; it is refused if its key is there. -/
  | call (i : ℕ) (timeframe : String)
  /-- Call `i` leaves its `try` block, with a result or an exception. -/
  | finish (i : ℕ)
  /-- The worker of call `i` dies. -/
  | crash (i : ℕ)
  | tick (seconds : ℕ)

def Tasks.set (s : Tasks) (i : ℕ) (call : Call) : Tasks :=
  { s with calls := Function.update s.calls i call }

def Tasks.next (host : CaseHost) (s : Tasks) : Action → Option Tasks
  | .call i timeframe =>
      match s.calls i with
      | .waiting =>
          match s.cache.add s.now (lock_key host timeframe) i TIMEOUT with
          | some cache =>
              some { (s.set i (.running timeframe (s.now + TIMEOUT))) with cache := cache }
          | none => some (s.set i .ended)
      | _ => none
  | .finish i =>
      match s.calls i with
      | .running timeframe _ =>
          -- `finally: cache.delete(lock_key)`
          some { (s.set i .ended) with cache := s.cache.delete (lock_key host timeframe) }
      | _ => none
  | .crash i =>
      match s.calls i with
      | .running _ _ => some (s.set i .ended)
      | _ => none
  | .tick seconds => some { s with now := s.now + seconds }

def tasks (host : CaseHost) : Machine Tasks Action where
  next := Tasks.next host

/-! ## What the claim asks -/

/-- The call trains the symbols of this timeframe. -/
def Call.Trains (host : CaseHost) (canonical : String) : Call → Prop
  | .running timeframe _ => normalize_timeframe host timeframe = some canonical
  | _ => False

/-- The key the call added is there and has not expired. -/
def Tasks.Holds (host : CaseHost) (s : Tasks) (i : ℕ) : Prop :=
  ∃ timeframe deadline, s.calls i = .running timeframe deadline ∧
    s.cache.get s.now (lock_key host timeframe) = some i

/-- While a training holds its key, no other call trains its timeframe. -/
def Exclusive (host : CaseHost) (s : Tasks) : Prop :=
  ∀ i j canonical, (s.calls i).Trains host canonical → (s.calls j).Trains host canonical →
    s.Holds host j → i = j

/-- A call that ends deletes no key another call has added. -/
def OwnRelease (host : CaseHost) (s : Tasks) : Action → Prop
  | .finish i => ∀ timeframe deadline j, s.calls i = .running timeframe deadline →
      s.cache.get s.now (lock_key host timeframe) = some j → j = i
  | _ => True

/-- A call is let in only where the trainings of its timeframe under way have its spelling and an
unexpired key, and ends while its key has not expired or is free. -/
def Leased (host : CaseHost) (s : Tasks) : Action → Prop
  | .call _ timeframe =>
      s.cache.get s.now (lock_key host timeframe) = none →
        ∀ j timeframe' deadline canonical, s.calls j = .running timeframe' deadline →
          normalize_timeframe host timeframe = some canonical →
          normalize_timeframe host timeframe' = some canonical →
          lock_key host timeframe' = lock_key host timeframe ∧ s.now < deadline
  | .finish i => ∀ timeframe deadline, s.calls i = .running timeframe deadline →
      s.now < deadline ∨ s.cache.get s.now (lock_key host timeframe) = none
  | _ => True

/-! ## Steps -/

variable {host : CaseHost} {s s' t : Tasks} {a : Action} {as : List Action} {i j deadline : ℕ}
  {timeframe : String}

/-- What a step does. -/
inductive Step (host : CaseHost) (s : Tasks) : Action → Tasks → Prop
  | enter (i : ℕ) (timeframe : String) (hwaiting : s.calls i = .waiting)
      (hfree : s.cache.get s.now (lock_key host timeframe) = none) :
      Step host s (.call i timeframe)
        { (s.set i (.running timeframe (s.now + TIMEOUT))) with
          cache := s.cache.set (lock_key host timeframe) i (s.now + TIMEOUT) }
  | refuse (i : ℕ) (timeframe : String) (hwaiting : s.calls i = .waiting)
      (htaken : s.cache.get s.now (lock_key host timeframe) ≠ none) :
      Step host s (.call i timeframe) (s.set i .ended)
  | finish (i : ℕ) (timeframe : String) (deadline : ℕ)
      (hrunning : s.calls i = .running timeframe deadline) :
      Step host s (.finish i)
        { (s.set i .ended) with cache := s.cache.delete (lock_key host timeframe) }
  | crash (i : ℕ) (timeframe : String) (deadline : ℕ)
      (hrunning : s.calls i = .running timeframe deadline) :
      Step host s (.crash i) (s.set i .ended)
  | tick (seconds : ℕ) : Step host s (.tick seconds) { s with now := s.now + seconds }

theorem step_cases (hnext : (tasks host).next s a = some s') : Step host s a s' := by
  cases a with
  | call i timeframe =>
    simp only [tasks, Tasks.next] at hnext
    split at hnext
    · next hwaiting =>
      split at hnext
      · next cache hadd =>
        obtain ⟨hfree, rfl⟩ := Cache.add_eq_some.mp hadd
        cases hnext
        exact Step.enter i timeframe hwaiting hfree
      · next hadd =>
        cases hnext
        refine Step.refuse i timeframe hwaiting ?_
        intro hfree
        rw [Cache.add_eq_some.mpr ⟨hfree, rfl⟩] at hadd
        cases hadd
    · cases hnext
  | finish i =>
    simp only [tasks, Tasks.next] at hnext
    split at hnext
    · next timeframe deadline hrunning =>
      cases hnext
      exact Step.finish i timeframe deadline hrunning
    · cases hnext
  | crash i =>
    simp only [tasks, Tasks.next] at hnext
    split at hnext
    · next timeframe deadline hrunning =>
      cases hnext
      exact Step.crash i timeframe deadline hrunning
    · cases hnext
  | tick seconds =>
    cases hnext
    exact Step.tick seconds

/-! ## Keys -/

/-- An entry carries the time its call runs with, and that call has begun. -/
def Entries (host : CaseHost) (s : Tasks) : Prop :=
  ∀ k e, s.cache k = some e → s.calls e.value ≠ .waiting ∧
    ∀ timeframe deadline, s.calls e.value = .running timeframe deadline →
      lock_key host timeframe = k ∧ e.deadline = deadline

/-- A call has its key until that expires. -/
def Kept (host : CaseHost) (s : Tasks) : Prop :=
  ∀ i timeframe deadline, s.calls i = .running timeframe deadline → s.now < deadline →
    s.cache (lock_key host timeframe) = some ⟨i, deadline⟩

theorem calls_set (s : Tasks) (i j : ℕ) (call : Call) :
    (s.set i call).calls j = if j = i then call else s.calls j :=
  Function.update_apply s.calls i call j

/-- Where a call has just ended, the running ones ran before. -/
theorem running_of_ended {timeframe : String}
    (h : (s.set i .ended).calls j = .running timeframe deadline) :
    j ≠ i ∧ s.calls j = .running timeframe deadline := by
  rw [calls_set] at h
  split at h
  · cases h
  · next hne => exact ⟨hne, h⟩

theorem get_of_entry {k : String} (h : s.cache k = some ⟨i, deadline⟩) (hlive : s.now < deadline) :
    s.cache.get s.now k = some i := by
  simp [Cache.get, h, hlive]

theorem entry_of_get {k : String} (h : s.cache.get s.now k = some i) :
    ∃ deadline, s.cache k = some ⟨i, deadline⟩ ∧ s.now < deadline := by
  unfold Cache.get at h
  obtain ⟨e, he, hvalue⟩ := Option.bind_eq_some_iff.mp h
  split at hvalue
  · next hlive =>
    cases hvalue
    exact ⟨e.deadline, he, hlive⟩
  · cases hvalue

theorem entries_start : Entries host Tasks.start := nofun

theorem entries_ended (i : ℕ) (hentries : Entries host s) : Entries host (s.set i .ended) := by
  intro k e he
  obtain ⟨hbegun, hcall⟩ := hentries k e he
  refine ⟨?_, fun timeframe deadline hrunning => hcall timeframe deadline
    (running_of_ended hrunning).2⟩
  rw [calls_set]
  split
  · nofun
  · exact hbegun

theorem entries_step (hstep : Step host s a s') (hentries : Entries host s) : Entries host s' := by
  cases hstep with
  | enter i timeframe hwaiting hfree =>
    intro k e he
    by_cases hk : k = lock_key host timeframe
    · subst hk
      obtain rfl := Option.some.inj ((Cache.set_self ..).symm.trans he)
      have hself : (s.set i (.running timeframe (s.now + TIMEOUT))).calls i =
          .running timeframe (s.now + TIMEOUT) := by simp [calls_set]
      refine ⟨?_, ?_⟩
      · intro hwait
        cases hself.symm.trans hwait
      · intro timeframe' deadline' hrunning
        cases hself.symm.trans hrunning
        exact ⟨rfl, rfl⟩
    · have hold := hentries k e ((Cache.set_of_ne _ _ _ hk).symm.trans he)
      -- the call of an older entry has begun, so it is not the one that begins
      have hne : e.value ≠ i := by
        intro heq
        rw [heq] at hold
        exact hold.1 hwaiting
      have hsame : (s.set i (.running timeframe (s.now + TIMEOUT))).calls e.value =
          s.calls e.value := by
        rw [calls_set, if_neg hne]
      exact ⟨fun hwait => hold.1 (hsame.symm.trans hwait),
        fun timeframe' deadline' hrunning =>
          hold.2 timeframe' deadline' (hsame.symm.trans hrunning)⟩
  | refuse i timeframe hwaiting htaken => exact entries_ended i hentries
  | finish i timeframe deadline hrunning =>
    have hended := entries_ended i hentries
    intro k e he
    by_cases hk : k = lock_key host timeframe
    · subst hk
      cases (Cache.delete_self ..).symm.trans he
    · exact hended k e ((Cache.delete_of_ne _ hk).symm.trans he)
  | crash i timeframe deadline hrunning => exact entries_ended i hentries
  | tick seconds => exact hentries

theorem kept_ended (i : ℕ) (hkept : Kept host s) : Kept host (s.set i .ended) := by
  intro j timeframe deadline hrunning hlive
  exact hkept j timeframe deadline (running_of_ended hrunning).2 hlive

theorem kept_step (hstep : Step host s a s') (hkept : Kept host s) (hown : OwnRelease host s a) :
    Kept host s' := by
  cases hstep with
  | enter i timeframe hwaiting hfree =>
    intro j timeframe' deadline' hrunning hlive
    have hcalls := calls_set s i j (.running timeframe (s.now + TIMEOUT))
    rw [show (s.set i (.running timeframe (s.now + TIMEOUT))).calls j = _ from hrunning] at hcalls
    split at hcalls
    · next hj =>
      cases hcalls
      rw [hj]
      exact Cache.set_self ..
    · have hentry := hkept j timeframe' deadline' hcalls.symm hlive
      -- its own key is not free
      have hne : lock_key host timeframe' ≠ lock_key host timeframe := by
        intro hsame
        rw [← hsame, get_of_entry hentry hlive] at hfree
        cases hfree
      calc s.cache.set (lock_key host timeframe) i (s.now + TIMEOUT) (lock_key host timeframe')
          = s.cache (lock_key host timeframe') := Cache.set_of_ne _ _ _ hne
        _ = some ⟨j, deadline'⟩ := hentry
  | refuse i timeframe hwaiting htaken => exact kept_ended i hkept
  | finish i timeframe deadline hrunning =>
    intro j timeframe' deadline' hrunning' hlive
    obtain ⟨hne, hj⟩ := running_of_ended hrunning'
    have hentry := hkept j timeframe' deadline' hj hlive
    have hkey : lock_key host timeframe' ≠ lock_key host timeframe := by
      intro hsame
      rw [hsame] at hentry
      exact hne (hown timeframe deadline j hrunning (get_of_entry hentry hlive))
    calc s.cache.delete (lock_key host timeframe) (lock_key host timeframe')
        = s.cache (lock_key host timeframe') := Cache.delete_of_ne _ hkey
      _ = some ⟨j, deadline'⟩ := hentry
  | crash i timeframe deadline hrunning => exact kept_ended i hkept
  | tick seconds =>
    intro j timeframe deadline hrunning hlive
    exact hkept j timeframe deadline hrunning (Nat.lt_of_le_of_lt (Nat.le_add_right _ _) hlive)

/-! ## Trainings -/

/-- Where a call has just ended and no key was added, the others exclude each other as before. -/
theorem Exclusive.of_ended (hexclusive : Exclusive host s)
    (hcalls : s'.calls = (s.set i .ended).calls)
    (hget : ∀ k j, s'.cache.get s'.now k = some j → s.cache.get s.now k = some j) :
    Exclusive host s' := by
  have hold : ∀ {j timeframe deadline}, s'.calls j = .running timeframe deadline →
      s.calls j = .running timeframe deadline := by
    intro j timeframe deadline h
    rw [hcalls] at h
    exact (running_of_ended h).2
  have htrains : ∀ {j canonical}, (s'.calls j).Trains host canonical →
      (s.calls j).Trains host canonical := by
    intro j canonical h
    cases hj : s'.calls j with
    | running timeframe deadline =>
      rw [hj] at h
      rw [hold hj]
      exact h
    | waiting =>
      rw [hj] at h
      cases h
    | ended =>
      rw [hj] at h
      cases h
  rintro j k canonical hj hk ⟨timeframe, deadline, hrunning, hkey⟩
  exact hexclusive j k canonical (htrains hj) (htrains hk)
    ⟨timeframe, deadline, hold hrunning, hget _ _ hkey⟩

theorem trains_iff {call : Call} {canonical : String} :
    call.Trains host canonical ↔ ∃ timeframe deadline, call = .running timeframe deadline ∧
      normalize_timeframe host timeframe = some canonical := by
  cases call with
  | running timeframe deadline =>
    constructor
    · exact fun h => ⟨timeframe, deadline, rfl, h⟩
    · rintro ⟨_, _, heq, h⟩
      cases heq
      exact h
  | waiting => exact iff_of_false id (by rintro ⟨_, _, heq, _⟩; cases heq)
  | ended => exact iff_of_false id (by rintro ⟨_, _, heq, _⟩; cases heq)

/-- A call that is let in excludes the others exactly if none of its timeframe is under way. -/
theorem exclusive_enter_iff (hwaiting : s.calls i = .waiting) (hexclusive : Exclusive host s)
    (hs' : s' = { (s.set i (.running timeframe (s.now + TIMEOUT))) with
      cache := s.cache.set (lock_key host timeframe) i (s.now + TIMEOUT) }) :
    Exclusive host s' ↔ ∀ j timeframe' deadline canonical,
      s.calls j = .running timeframe' deadline →
      normalize_timeframe host timeframe = some canonical →
      normalize_timeframe host timeframe' ≠ some canonical := by
  have hcalls : ∀ j, s'.calls j = if j = i then .running timeframe (s.now + TIMEOUT)
      else s.calls j := by
    intro j
    rw [hs']
    exact calls_set s i j _
  have hentry : s'.cache (lock_key host timeframe) = some ⟨i, s.now + TIMEOUT⟩ := by
    rw [hs']
    exact Cache.set_self ..
  have hlive : s'.now < s.now + TIMEOUT := by
    rw [hs']
    exact Nat.lt_add_of_pos_right (by decide)
  have hkey := get_of_entry hentry hlive
  have hself : s'.calls i = .running timeframe (s.now + TIMEOUT) := by rw [hcalls, if_pos rfl]
  constructor
  · intro hexclusive' j timeframe' deadline canonical hj hmine hits
    have hne : j ≠ i := by
      intro heq
      rw [heq, hwaiting] at hj
      cases hj
    have hj' : s'.calls j = .running timeframe' deadline := by rw [hcalls, if_neg hne, hj]
    exact hne (hexclusive' j i canonical (trains_iff.mpr ⟨_, _, hj', hits⟩)
      (trains_iff.mpr ⟨_, _, hself, hmine⟩) ⟨_, _, hself, hkey⟩)
  · intro hnone j k canonical hj hk hholds
    obtain ⟨timeframe₁, deadline₁, hj, hj'⟩ := trains_iff.mp hj
    obtain ⟨timeframe₂, deadline₂, hk, hk'⟩ := trains_iff.mp hk
    rw [hcalls] at hj hk
    split at hj
    · next hji =>
      split at hk
      · next hki => rw [hji, hki]
      · cases hj
        exact absurd hk' (hnone k timeframe₂ deadline₂ canonical hk hj')
    · next hji =>
      split at hk
      · cases hk
        exact absurd hj' (hnone j timeframe₁ deadline₁ canonical hj hk')
      · next hki =>
        -- two older calls; the older one that holds its key held it before
        refine hexclusive j k canonical (trains_iff.mpr ⟨_, _, hj, hj'⟩)
          (trains_iff.mpr ⟨_, _, hk, hk'⟩) ?_
        obtain ⟨timeframe₃, deadline₃, hrunning, hget⟩ := hholds
        rw [hcalls, if_neg hki] at hrunning
        refine ⟨timeframe₃, deadline₃, hrunning, ?_⟩
        by_cases hsame : lock_key host timeframe₃ = lock_key host timeframe
        · rw [hsame, hkey] at hget
          exact absurd (Option.some.inj hget).symm hki
        · rw [hs'] at hget
          exact (Cache.get_congr s.now (Cache.set_of_ne _ _ _ hsame)).symm.trans hget

/-- Where no call deletes the key of another, a step keeps the trainings apart exactly if it is
leased. -/
theorem exclusive_step (hstep : Step host s a s') (hentries : Entries host s) (hkept : Kept host s)
    (hown : OwnRelease host s a) (hexclusive : Exclusive host s) :
    Exclusive host s' ↔ Leased host s a := by
  cases hstep with
  | enter i timeframe hwaiting hfree =>
    rw [exclusive_enter_iff hwaiting hexclusive rfl]
    constructor
    · intro hnone _ j timeframe' deadline canonical hj hmine hits
      exact absurd hits (hnone j timeframe' deadline canonical hj hmine)
    · intro hleased j timeframe' deadline canonical hj hmine hits
      -- with the same key and before its deadline the other call would have kept this one out
      obtain ⟨hkey, hlive⟩ := hleased hfree j timeframe' deadline canonical hj hmine hits
      have hget := get_of_entry (hkept j timeframe' deadline hj hlive) hlive
      rw [hkey, hfree] at hget
      cases hget
  | refuse i timeframe hwaiting htaken =>
    exact iff_of_true (hexclusive.of_ended rfl fun _ _ h => h) fun hfree => absurd hfree htaken
  | finish i timeframe deadline hrunning =>
    refine iff_of_true (hexclusive.of_ended rfl ?_) ?_
    · intro k j hget
      by_cases hk : k = lock_key host timeframe
      · subst hk
        cases (Cache.get_eq_none (Cache.delete_self s.cache _)).symm.trans hget
      · exact (Cache.get_congr s.now (Cache.delete_of_ne s.cache hk)).symm.trans hget
    · rintro timeframe' deadline' hrunning'
      cases hrunning.symm.trans hrunning'
      cases hget : s.cache.get s.now (lock_key host timeframe) with
      | none => exact Or.inr rfl
      | some j =>
        obtain rfl := hown timeframe deadline j hrunning hget
        obtain ⟨deadline', hentry, hlive⟩ := entry_of_get hget
        obtain ⟨_, hcall⟩ := hentries _ _ hentry
        have hsame : deadline' = deadline := (hcall timeframe deadline hrunning).2
        exact Or.inl (hsame ▸ hlive)
  | crash i timeframe deadline hrunning =>
    exact iff_of_true (hexclusive.of_ended rfl fun _ _ h => h) trivial
  | tick seconds =>
    refine iff_of_true ?_ trivial
    rintro j k canonical hj hk ⟨timeframe, deadline, hrunning, hkey⟩
    refine hexclusive j k canonical hj hk ⟨timeframe, deadline, hrunning, ?_⟩
    obtain ⟨deadline', hentry, hlive⟩ := entry_of_get hkey
    exact get_of_entry hentry (Nat.lt_of_le_of_lt (Nat.le_add_right _ _) hlive)

/-- A leased call deletes its own key, or none. -/
theorem ownRelease_of_leased (hkept : Kept host s) (hleased : Leased host s a) :
    OwnRelease host s a := by
  cases a with
  | finish i =>
    intro timeframe deadline j hrunning hget
    rcases hleased timeframe deadline hrunning with hlive | hfree
    · have hmine := get_of_entry (hkept i timeframe deadline hrunning hlive) hlive
      exact Option.some.inj (hget.symm.trans hmine)
    · rw [hfree] at hget
      cases hget
  | call i timeframe => exact trivial
  | crash i => exact trivial
  | tick seconds => exact trivial

/-! ## Runs -/

theorem kept_start : Kept host Tasks.start := nofun

theorem exclusive_start : Exclusive host Tasks.start := nofun

/-- The trainings exclude each other in every run exactly if it is leased. -/
theorem exclusive_iff (hrun : (tasks host).Run Tasks.start as t) :
    Machine.RunIf.Always (tasks host) (Exclusive host) Tasks.start as ∧
        (tasks host).RunIf (OwnRelease host) Tasks.start as t ↔
      (tasks host).RunIf (Leased host) Tasks.start as t := by
  have hinv : ∀ s a s', Entries host s → (tasks host).next s a = some s' → Entries host s' :=
    fun s a s' hentries hnext => entries_step (step_cases hnext) hentries
  have hstep : ∀ s a s', Entries host s → Exclusive host s ∧ Kept host s →
      (tasks host).next s a = some s' →
      ((Exclusive host s' ∧ Kept host s') ∧ OwnRelease host s a ↔ Leased host s a) := by
    intro s a s' hentries hs hnext
    have hcases := step_cases hnext
    constructor
    · rintro ⟨⟨hexclusive, _⟩, hown⟩
      exact (exclusive_step hcases hentries hs.2 hown hs.1).mp hexclusive
    · intro hleased
      have hown := ownRelease_of_leased hs.2 hleased
      exact ⟨⟨(exclusive_step hcases hentries hs.2 hown hs.1).mpr hleased,
        kept_step hcases hs.2 hown⟩, hown⟩
  have hboth := Machine.RunIf.always_and_iff hinv hstep hrun entries_start
  constructor
  · rintro ⟨halways, hown⟩
    have hkept : Machine.RunIf.Always (tasks host) (Kept host) Tasks.start as :=
      hown.always (fun s a s' hown hkept hnext => kept_step (step_cases hnext) hkept hown)
        kept_start
    exact (hboth.mp ⟨fun before rest u has hu =>
      ⟨halways before rest u has hu, hkept before rest u has hu⟩, hown⟩).2
  · intro hleased
    obtain ⟨halways, hown⟩ := hboth.mpr ⟨⟨exclusive_start, kept_start⟩, hleased⟩
    exact ⟨fun before rest u has hu => (halways before rest u has hu).1, hown⟩

/-- Two trainings, the second one after the first has ended. -/
theorem in_turn_exclusive :
    ∃ t, (tasks .ascii).Run Tasks.start [.call 0 "M1", .tick 60, .finish 0, .call 1 "1m"] t ∧
      Machine.RunIf.Always (tasks .ascii) (Exclusive .ascii) Tasks.start
          [.call 0 "M1", .tick 60, .finish 0, .call 1 "1m"] ∧
        (tasks .ascii).RunIf (OwnRelease .ascii) Tasks.start
          [.call 0 "M1", .tick 60, .finish 0, .call 1 "1m"] t := by
  have hleased : ∃ t, (tasks .ascii).RunIf (Leased .ascii) Tasks.start
      [.call 0 "M1", .tick 60, .finish 0, .call 1 "1m"] t := by
    refine ⟨_, .cons nofun rfl (.cons trivial rfl (.cons ?_ rfl (.cons ?_ rfl (.nil _))))⟩
    · intro timeframe deadline hrunning
      cases hrunning
      exact Or.inl (by decide)
    · intro _ j timeframe deadline canonical hrunning
      by_cases hj : j = 0
      · simp [Tasks.set, hj] at hrunning
      · simp [Tasks.set, Tasks.start, hj] at hrunning
  obtain ⟨t, ht⟩ := hleased
  have hrun := ht.mono fun _ _ _ => trivial
  exact ⟨t, hrun, (exclusive_iff hrun).mpr ht⟩

/-- Two spellings of a timeframe: both calls train it, each with a key of its own. -/
theorem aliases_overlap :
    ¬ ∀ (host : CaseHost) (as : List Action) (t : Tasks), (tasks host).Run Tasks.start as t →
      Machine.RunIf.Always (tasks host) (Exclusive host) Tasks.start as ∧
        (tasks host).RunIf (OwnRelease host) Tasks.start as t := by
  intro hall
  have hexec : ((tasks .ascii).exec Tasks.start [.call 0 "M1", .call 1 "1m"]).any (fun t =>
      (match t.calls 0, t.calls 1 with
        | .running first _, .running second _ =>
            normalize_timeframe .ascii first == some "1m" &&
              normalize_timeframe .ascii second == some "1m" &&
              t.cache.get t.now (lock_key .ascii second) == some 1
        | _, _ => false)) = true := by
    decide +kernel
  obtain ⟨t, ht, hboth⟩ := (Option.any_eq_true _ _).mp hexec
  obtain ⟨halways, _⟩ := hall .ascii _ t (Machine.exec_eq_some_iff.mp ht)
  have hexclusive := halways.last ht
  split at hboth
  · next first deadline second deadline' hfirst hsecond =>
    obtain ⟨hboth, hget⟩ := Bool.and_eq_true_iff.mp hboth
    obtain ⟨hone, htwo⟩ := Bool.and_eq_true_iff.mp hboth
    have heq := hexclusive 0 1 "1m" (trains_iff.mpr ⟨_, _, hfirst, beq_iff_eq.mp hone⟩)
      (trains_iff.mpr ⟨_, _, hsecond, beq_iff_eq.mp htwo⟩)
      ⟨_, _, hsecond, beq_iff_eq.mp hget⟩
    cases heq
  · cases hboth

end Scheduled

end AlgoBot.AiEngine
