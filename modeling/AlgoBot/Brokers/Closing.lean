import AlgoBot.Brokers.Positions

/-!
# Closing a position

Portfolio snapshots, streamed contracts and final lookups write the rows of an
account in any order, and scheduled `TradeClosed` events are published at their own
time. Every record overwrites the status and the profit it finds.

`closed_once`: in a run in which no record takes a terminal position for an open one
or a settled one for one without a profit, the event of a contract is published at
most once and terminal positions stay terminal. `closed_twice` is a late record of
the open contract between two records of the closed one.
-/

namespace AlgoBot.Brokers

open AlgoBot.Core AlgoBot.Python

/-! ## The machine -/

inductive Action where
  /-- A record is written; see `Ledger.observe`. -/
  | observe (record : Value) (seen : Bool)
  /-- The rows that a full snapshot does not mention are marked. -/
  | sweep (ids : List String)
  /-- A scheduled event is handed to the queue, or that fails. -/
  | publish (contract_id : String) (queued : Bool)

def step (h : Host) (s : Ledger) : Action → Option Ledger
  | .observe record seen => (normalizeBrokerPosition h record).map fun o => s.observe h o seen
  | .sweep ids => some (s.sweep ids)
  | .publish c _ =>
      if s.scheduled c = 0 then none
      else some { s with scheduled := Function.update s.scheduled c (s.scheduled c - 1) }

/-- The writers of the rows of an account, and the scheduled events. -/
def book (h : Host) : Machine Ledger Action := ⟨step h⟩

/-- The rows as they are, and no event scheduled. -/
def Ledger.start (positions : Positions) : Ledger := ⟨positions, fun _ => 0⟩

/-- The step publishes the event of the contract: its row has a profit. -/
def publishes (c : String) (s : Ledger) : Action → ℕ
  | .publish c' queued =>
      if c' = c ∧ queued = true ∧ (s.positions.lookup c).any (fun p => p.profit.isSome) = true
      then 1 else 0
  | _ => 0

/-- The stored position of the contract is terminal. -/
def TerminalAt (h : Host) (c : String) (s : Ledger) : Prop :=
  (s.positions.lookup c).any (fun p => terminal h p.status) = true

/-- The record leaves a terminal position terminal and a settled one with a profit. -/
def respects (h : Host) (p : Position) (o : Observed) : Bool :=
  (!terminal h p.status || terminal h o.status) && (!p.settled h || o.profit.isSome)

/-- No record takes a terminal position for an open one, or a settled one for one without a
profit. -/
def Settles (h : Host) (s : Ledger) : Action → Prop
  | .observe record _ =>
      ((normalizeBrokerPosition h record).all fun o =>
        (s.positions.lookup o.contract_id).all fun p => respects h p o) = true
  | _ => True

instance (h : Host) (s : Ledger) (a : Action) : Decidable (Settles h s a) := by
  cases a <;> unfold Settles <;> infer_instance

section Steps

variable {h : TextHost} {s s' t : Ledger} {a : Action} {c : String}

theorem respects_of_settles {record : Value} {seen : Bool} {o : Observed} {p : Position}
    (hg : Settles h.toHost s (.observe record seen))
    (ho : normalizeBrokerPosition h.toHost record = some o)
    (hp : s.positions.lookup o.contract_id = some p) : respects h.toHost p o = true := by
  have hall : ((s.positions.lookup o.contract_id).all fun p => respects h.toHost p o) = true := by
    simpa [Settles, ho] using hg
  simpa [hp] using hall

/-! ## Terminal positions stay terminal -/

theorem keeps_terminal (hg : Settles h.toHost s a) :
    (book h.toHost).Keeps (TerminalAt h.toHost) s a := by
  intro c hc s' hs
  cases a with
  | observe record seen =>
    rcases Option.map_eq_some_iff.mp hs with ⟨o, ho, rfl⟩
    unfold TerminalAt
    rw [lookup_observe]
    split
    · -- the contract of the record
      next hid =>
      subst hid
      rcases (Option.any_eq_true _ _).mp hc with ⟨p, hp, hterm⟩
      have hrespects := respects_of_settles hg ho hp
      simp only [respects, Bool.and_eq_true, hterm, Bool.not_true, Bool.false_or] at hrespects
      exact hrespects.1
    · exact hc
  | sweep ids =>
    cases hs
    rcases (Option.any_eq_true _ _).mp hc with ⟨p, hp, hterm⟩
    show ((sweep s.positions ids).lookup c).any _ = true
    rw [lookup_sweep, hp, Option.map_some, sweptPosition_of_terminal h hterm]
    exact hterm
  | publish c' queued =>
    simp only [book, step] at hs
    split at hs
    · cases hs
    · cases hs
      exact hc

/-! ## One event -/

/-- The stored position of the contract is settled. -/
def settledAt (h : Host) (c : String) (s : Ledger) : Bool :=
  (s.positions.lookup c).any fun p => p.settled h

/-- The events that may still be published: the scheduled ones, and one as long as the position is
not settled. -/
def openEvents (h : Host) (c : String) (s : Ledger) : ℕ :=
  s.scheduled c + if settledAt h c s then 0 else 1

theorem settledAt_sweep (ids : List String) :
    settledAt h.toHost c (s.sweep ids) = settledAt h.toHost c s := by
  show ((sweep s.positions ids).lookup c).any _ = _
  rw [lookup_sweep]
  unfold settledAt
  cases s.positions.lookup c with
  | none => rfl
  | some p =>
    have hprofit : (sweptPosition ids c p).profit = p.profit := by
      unfold sweptPosition
      split <;> rfl
    simp [Position.settled, terminal_swept, hprofit]

/-- A record that schedules an event settles the position, which was not settled. -/
theorem schedules_spec {existing : Option Position} {o : Observed}
    (hs : schedules h.toHost existing o = true) :
    o.position.settled h.toHost = true ∧ ∃ p, existing = some p ∧ p.settled h.toHost = false := by
  unfold schedules at hs
  split at hs
  · next p =>
    simp only [Bool.and_eq_true, Bool.or_eq_true, Bool.not_eq_true'] at hs
    refine ⟨hs.1, p, rfl, ?_⟩
    rcases hs.2 with hopen | hnone
    · simp [Position.settled, hopen]
    · simp [Position.settled, Option.isNone_iff_eq_none.mp hnone]
  · cases hs

theorem openEvents_observe {record : Value} {seen : Bool} {o : Observed}
    (hg : Settles h.toHost s (.observe record seen))
    (ho : normalizeBrokerPosition h.toHost record = some o) :
    openEvents h.toHost c (s.observe h.toHost o seen) ≤ openEvents h.toHost c s := by
  by_cases hid : c = o.contract_id
  · subst hid
    have hafter : settledAt h.toHost o.contract_id (s.observe h.toHost o seen) =
        o.position.settled h.toHost := by
      simp [settledAt, lookup_observe]
    cases hsch : schedules h.toHost
        (if seen then s.positions.lookup o.contract_id else none) o with
    | true =>
      -- the event takes the place of the settlement
      rcases schedules_spec hsch with ⟨hsettled, p, hp, hopen⟩
      have hlookup : s.positions.lookup o.contract_id = some p := by
        split at hp
        · exact hp
        · cases hp
      have hbefore : settledAt h.toHost o.contract_id s = false := by
        simp [settledAt, hlookup, hopen]
      have hcount : (s.observe h.toHost o seen).scheduled o.contract_id =
          s.scheduled o.contract_id + 1 := by
        simp [Ledger.observe, hsch]
      simp [openEvents, hafter, hsettled, hbefore, hcount]
    | false =>
      have hcount : (s.observe h.toHost o seen).scheduled o.contract_id =
          s.scheduled o.contract_id := by
        simp [Ledger.observe, hsch]
      have hsettled : settledAt h.toHost o.contract_id s = true →
          o.position.settled h.toHost = true := by
        intro hs
        rcases (Option.any_eq_true _ _).mp hs with ⟨p, hp, hp'⟩
        have hrespects := respects_of_settles hg ho hp
        have hterm : terminal h.toHost p.status = true := by
          simp only [Position.settled, Bool.and_eq_true] at hp'
          exact hp'.1
        simp only [respects, hterm, hp', Bool.not_true, Bool.false_or, Bool.and_eq_true]
          at hrespects
        simp [Position.settled, Observed.position, hrespects.1, hrespects.2]
      simp only [openEvents, hafter, hcount]
      cases hs : settledAt h.toHost o.contract_id s with
      | true => simp [hsettled hs]
      | false =>
        simp only [Bool.false_eq_true, if_false]
        split <;> omega
  · have hlookup : settledAt h.toHost c (s.observe h.toHost o seen) = settledAt h.toHost c s := by
      simp [settledAt, lookup_observe, hid]
    have hcount : (s.observe h.toHost o seen).scheduled c = s.scheduled c := by
      unfold Ledger.observe
      dsimp only
      generalize schedules h.toHost _ o = b
      cases b <;> simp [hid]
    simp [openEvents, hlookup, hcount]

theorem openEvents_step (hg : Settles h.toHost s a) (hs : step h.toHost s a = some s') :
    publishes c s a + openEvents h.toHost c s' ≤ openEvents h.toHost c s := by
  cases a with
  | observe record seen =>
    rcases Option.map_eq_some_iff.mp hs with ⟨o, ho, rfl⟩
    simpa [publishes] using openEvents_observe hg ho
  | sweep ids =>
    cases hs
    have hcount : (s.sweep ids).scheduled c = s.scheduled c := rfl
    simp [publishes, openEvents, settledAt_sweep, hcount]
  | publish c' queued =>
    simp only [step] at hs
    split at hs
    · cases hs
    · next hpos =>
      cases hs
      have hsettled : ∀ f, settledAt h.toHost c { s with scheduled := f } =
          settledAt h.toHost c s := fun _ => rfl
      by_cases hc : c = c'
      · subst hc
        have hle : publishes c s (.publish c queued) ≤ 1 := by
          simp only [publishes]
          split <;> omega
        simp only [openEvents, hsettled, Function.update_self]
        omega
      · have hnone : publishes c s (.publish c' queued) = 0 := by
          simp [publishes, Ne.symm hc]
        simp only [openEvents, hsettled, hnone, Function.update_of_ne hc]
        omega

/-! ## Closed once and for all -/

/-- The event of a contract is published at most once, and terminal positions stay terminal. -/
theorem closed_once {positions : Positions} {as : List Action}
    (hrun : (book h.toHost).RunIf (Settles h.toHost) (Ledger.start positions) as t) :
    (∀ c, (book h.toHost).total (publishes c) (Ledger.start positions) as ≤ 1) ∧
      (book h.toHost).RunIf ((book h.toHost).Keeps (TerminalAt h.toHost))
        (Ledger.start positions) as t := by
  constructor
  · intro c
    have hpaid : (book h.toHost).total (publishes c) (Ledger.start positions) as +
        openEvents h.toHost c t ≤ openEvents h.toHost c (Ledger.start positions) :=
      hrun.total_le_potential (openEvents h.toHost c) fun s a s' hg hs => openEvents_step hg hs
    have hstart : openEvents h.toHost c (Ledger.start positions) ≤ 1 := by
      unfold openEvents
      cases settledAt h.toHost c (Ledger.start positions) <;> simp [Ledger.start]
    omega
  · exact hrun.mono fun s a hg => keeps_terminal hg

end Steps

/-! ## Transactions are runs -/

/-- The steps of `_persist_snapshot_sync` for records. -/
def snapshotSteps (h : Host) (records : List Value) (full_snapshot : Bool) : List Action :=
  let known := records.filter fun r => (normalizeBrokerPosition h r).isSome
  known.map (fun r => .observe r true) ++
    if full_snapshot then
      [.sweep ((records.filterMap (normalizeBrokerPosition h)).map Observed.contract_id)]
    else []

theorem run_persistSnapshot (h : Host) (s : Ledger) (records : List Value) (full : Bool) :
    (book h).Run s (snapshotSteps h records full)
      (persistSnapshot h s (records.filterMap (normalizeBrokerPosition h)) full) := by
  have hrecords : ∀ (l : List Value) (s : Ledger),
      (book h).Run s
        ((l.filter fun r => (normalizeBrokerPosition h r).isSome).map fun r => .observe r true)
        ((l.filterMap (normalizeBrokerPosition h)).foldl (fun s o => s.observe h o true) s) := by
    intro l
    induction l with
    | nil => exact fun s => Machine.RunIf.nil s
    | cons r l ih =>
      intro s
      cases ho : normalizeBrokerPosition h r with
      | none => simpa [ho] using ih s
      | some o =>
        simp only [List.filter_cons, ho, Option.isSome_some, if_true, List.map_cons,
          List.filterMap_cons, List.foldl_cons]
        exact Machine.RunIf.cons trivial (by simp [book, step, ho]) (ih _)
  unfold snapshotSteps persistSnapshot
  cases full with
  | false => simpa using hrecords records s
  | true =>
    apply (hrecords records s).append
    exact Machine.RunIf.cons trivial rfl (Machine.RunIf.nil _)

/-! ## Concrete runs -/

/-- A record about contract 5. -/
def record (status : String) (profit : Value) : Value :=
  .dict [("contract_id", .int 5), ("status", .str status), ("profit", profit)]

/-- The contract is open, closed, and reported closed once more. -/
theorem closed_once_duplicate :
    ∃ t, (∀ c, (book Host.ascii).total (publishes c) (Ledger.start ∅)
        [.observe (record "open" .none) true, .observe (record "closed" (.str "1.5")) true,
          .sweep [], .publish "5" true, .observe (record "closed" (.str "1.5")) true] ≤ 1) ∧
      (book Host.ascii).RunIf ((book Host.ascii).Keeps (TerminalAt Host.ascii)) (Ledger.start ∅)
        [.observe (record "open" .none) true, .observe (record "closed" (.str "1.5")) true,
          .sweep [], .publish "5" true, .observe (record "closed" (.str "1.5")) true] t := by
  have hexec : ((book Host.ascii).execIf (Settles Host.ascii) (Ledger.start ∅)
      [.observe (record "open" .none) true, .observe (record "closed" (.str "1.5")) true,
        .sweep [], .publish "5" true,
        .observe (record "closed" (.str "1.5")) true]).isSome = true := by
    decide +kernel
  obtain ⟨t, hrun⟩ := Machine.exists_runIf hexec
  exact ⟨t, closed_once (h := TextHost.ascii) hrun⟩

/-- A record of the open contract comes late, takes the closed position back, and the next record
of the close publishes its event again. -/
theorem closed_twice :
    (book Host.ascii).total (publishes "5") (Ledger.start ∅)
        [.observe (record "open" .none) true, .observe (record "closed" (.str "1.5")) true,
          .publish "5" true, .observe (record "open" (.str "1.5")) true,
          .observe (record "closed" (.str "1.5")) true, .publish "5" true] = 2 ∧
      (((book Host.ascii).exec (Ledger.start ∅)
        [.observe (record "open" .none) true, .observe (record "closed" (.str "1.5")) true,
          .publish "5" true]).any fun s => (s.positions.lookup "5").any fun p =>
            terminal Host.ascii p.status) = true ∧
      (((book Host.ascii).exec (Ledger.start ∅)
        [.observe (record "open" .none) true, .observe (record "closed" (.str "1.5")) true,
          .publish "5" true, .observe (record "open" (.str "1.5")) true]).any fun s =>
            (s.positions.lookup "5").any fun p => !terminal Host.ascii p.status) = true := by
  decide +kernel

end AlgoBot.Brokers
