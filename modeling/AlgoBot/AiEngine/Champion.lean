import Mathlib.Data.List.Sort
import AlgoBot.Core.Double
import AlgoBot.Core.Machine
import AlgoBot.Core.ReadCommitted
import AlgoBot.Python.Value

/-!
# The champion of a symbol and timeframe

`train_symbol` compares its best candidate with the champion, demotes the
champions it finds and promotes the candidate; `rollback_champion_model` puts
the best model that is still active in the place of the champion. Each of them
is one transaction, and any number of them overlap statement by statement, each
statement reading what is committed by then.

Nothing arbitrates between two of them: a training reads the champion without
locking it, and a lock on a champion says nothing about a row that becomes one.

* `one_champion_iff`: in every run there is at most one champion of each symbol
  and timeframe, and a training promotes only what beats the champion, exactly if
  no promotion is committed over a champion it has not demoted, or over one that
  it neither compared with nor beats.
* `two_champions`: two first trainings of a symbol.
-/

namespace AlgoBot.AiEngine

open AlgoBot.Core AlgoBot.Python

/-! ## Models -/

inductive ModelStatus
  | experimental
  | active
  | champion
  | challenger
  | archived
  | failed
  deriving DecidableEq, Repr

/-- The candidates of `_candidate_factories`. -/
inductive Algorithm
  | rf
  | xgb
  | lgb
  deriving DecidableEq, Repr

def Algorithm.text : Algorithm → String
  | .rf => "rf"
  | .xgb => "xgb"
  | .lgb => "lgb"

def algorithms : List Algorithm := [.rf, .xgb, .lgb]

/-- A value of `metadata["validation"]`, as `float()` finds it. -/
inductive Metric
  | absent
  | unreadable
  | number (x : Double)
  deriving DecidableEq, Repr

/-- `float(validation.get(field, default))`. -/
def Metric.read (default : Double) : Metric → Option Double
  | .absent => some default
  | .unreadable => none
  | .number x => some x

structure AIModel where
  name : String
  version : String
  status : ModelStatus
  promotion_score : Metric
  accuracy : Metric
  expectancy : Metric
  total_return : Metric
  created_at : ℕ
  deriving DecidableEq, Repr

/-- `save(update_fields=["status"])`. -/
def AIModel.to (status : ModelStatus) (m : AIModel) : AIModel := { m with status := status }

/-- What the models of one symbol and timeframe share. -/
structure Key where
  symbol : String
  timeframe : String
  deriving DecidableEq, Repr

def Key.name (key : Key) (algorithm : Algorithm) : String :=
  key.symbol ++ "-" ++ key.timeframe ++ "-" ++ algorithm.text

/-- `name__startswith=f"{symbol}-{timeframe}-"`. -/
def Key.starts (key : Key) (m : AIModel) : Bool :=
  (key.symbol ++ "-" ++ key.timeframe ++ "-").toList.isPrefixOf m.name.toList

/-- The model was trained for this symbol and timeframe. -/
def Key.owns (key : Key) (m : AIModel) : Bool :=
  algorithms.any fun algorithm => m.name == key.name algorithm

/-- `normalize_timeframe`; `none` is its `ValueError`. -/
def normalize_timeframe (host : CaseHost) (timeframe : String) : Option String :=
  let value := strip (if timeframe = "" then "M1" else timeframe)
  let aliases := [("M1", "1m"), ("M2", "2m"), ("M5", "5m"), ("M10", "10m"), ("M15", "15m"),
    ("M30", "30m"), ("H1", "1h"), ("H4", "4h"), ("D1", "1d")]
  let canonical := (aliases.lookup (upper host.toHost value)).getD (host.lower value)
  if ["1s", "5s", "15s", "30s", "1m", "2m", "5m", "10m", "15m", "30m", "1h", "4h",
      "1d"].contains canonical then some canonical
  else none

/-! ## The transactions -/

/-- What a training has validated before its transaction. -/
structure Candidate where
  algorithm : Algorithm
  version : String
  best_score : Double
  accuracy : Double
  expectancy : Double
  total_return : Double
  created_at : ℕ
  deriving DecidableEq, Repr

/-- The row `AIModel.objects.create` makes. -/
def Candidate.model (key : Key) (candidate : Candidate) : AIModel where
  name := key.name candidate.algorithm
  version := candidate.version
  status := .experimental
  promotion_score := .number candidate.best_score
  accuracy := .number candidate.accuracy
  expectancy := .number candidate.expectancy
  total_return := .number candidate.total_return
  created_at := candidate.created_at

/-- Where the transaction of a training stands; `own` is its row, `previous` the champion it
compared with. -/
inductive Training
  | opened
  | created (own : ℕ)
  | compared (own : ℕ) (previous : Option (ℕ × AIModel))
  /-- In the `UPDATE` that demotes, with the rows its statement found and has not come to. -/
  | demoting (own : ℕ) (previous : Option (ℕ × AIModel)) (todo : List ℕ)
  | saved (own : ℕ) (previous : Option (ℕ × AIModel)) (promoted : Bool)

/-- Where the transaction of a rollback stands. -/
inductive Rollback
  | opened
  /-- In the locking read of the champion. -/
  | reading (todo : List ℕ)
  | read (current : Option ℕ)
  /-- In the locking read of the active models. -/
  | locking (current : Option ℕ) (todo : List ℕ) (candidates : List (ℕ × AIModel))
  | chosen (current : Option ℕ) (replacement : ℕ)
  | demoted (replacement : ℕ)
  | saved (replacement : Option ℕ)

inductive Process
  | idle
  | training (key : Key) (candidate : Candidate) (phase : Training)
  | rollback (key : Key) (phase : Rollback)

structure Registry where
  models : Db AIModel
  processes : ℕ → Process

inductive Action
  /-- Process `i` begins. -/
  | train (i : ℕ) (symbol timeframe : String) (candidate : Candidate)
  | rollback (i : ℕ) (symbol timeframe : String)
  /-- Process `i` takes its next step, if the row it comes to is not held by another. -/
  | advance (i : ℕ)
  /-- Process `i` fails, and its transaction is rolled back. -/
  | fail (i : ℕ)

/-- `order_by("-created_at")`. -/
def latestFirst (rows : List (ℕ × AIModel)) : List (ℕ × AIModel) :=
  rows.insertionSort fun a b => b.2.created_at ≤ a.2.created_at

def Key.champion (key : Key) (m : AIModel) : Bool := key.starts m && m.status = .champion

def Key.active (key : Key) (m : AIModel) : Bool := key.starts m && m.status = .active

/-- `best_score > previous_score`; `none` where the score of the champion is unreadable. -/
def promoted (candidate : Candidate) : Option (ℕ × AIModel) → Option Bool
  | none => some true
  | some previous =>
      (previous.2.promotion_score.read (.inf true)).map fun score =>
        Double.lt score candidate.best_score

/-- The score a candidate of a rollback is chosen by, if its validation passes the gates. -/
def safeScore (m : AIModel) : Option Double :=
  match m.promotion_score.read (.inf true), m.accuracy.read (.fin 0), m.expectancy.read (.fin 0),
      m.total_return.read (.fin 0) with
  | some score, some accuracy, some expectancy, some total_return =>
      if score.isFinite && accuracy.isFinite && expectancy.isFinite && total_return.isFinite &&
          Double.le (Double.ofRat (52 / 100)) accuracy &&
          (Double.lt (.fin 0) expectancy || Double.lt (.fin 0) total_return) then some score
      else none
  | _, _, _, _ => none

/-- The first of the rows with the highest score, as `max` finds it. -/
def best (row : Double × ℕ) (rows : List (Double × ℕ)) : Double × ℕ :=
  rows.foldl (fun best row => if Double.lt best.1 row.1 then row else best) row

/-- `max(safe_candidates, key=score)`. -/
def replacement (candidates : List (ℕ × AIModel)) : Option ℕ :=
  match candidates.filterMap fun row => (safeScore row.2).map fun score => (score, row.1) with
  | [] => none
  | row :: rows => some (best row rows).2

/-- A row of the statement: `none` while another transaction holds it, else whether it still
satisfies the condition. -/
def come (db : Db AIModel) (i k : ℕ) (p : AIModel → Bool) : Option (Option AIModel) :=
  match db.get? k with
  | none => some none
  | some c => if c.free i then some ((c.visible i).filter p) else none

/-- The steps of `train_symbol` from its transaction on. -/
def Training.advance (db : Db AIModel) (i : ℕ) (key : Key) (candidate : Candidate) :
    Training → Option (Db AIModel × Process)
  | .opened =>
      -- a second row of this name and version waits for the first one, or is refused
      if db.rows.any fun c => [c.committed, c.draft].any fun version => version.any fun m =>
          m.name == key.name candidate.algorithm && m.version == candidate.version then none
      else
        some (db.insert i (candidate.model key), .training key candidate (.created db.nextPk))
  | .created own =>
      let previous := (latestFirst ((db.select i key.champion).filter fun row =>
        row.1 != own)).head?
      some (db, .training key candidate (.compared own previous))
  | .compared own previous =>
      match promoted candidate previous with
      | none => none
      | some true =>
          some (db, .training key candidate
            (.demoting own previous ((db.select i key.champion).map (·.1))))
      | some false =>
          some (db.hold i own (AIModel.to .active), .training key candidate
            (.saved own previous false))
  | .demoting own previous (k :: todo) =>
      match come db i k key.champion with
      | none => none
      | some none => some (db, .training key candidate (.demoting own previous todo))
      | some (some _) =>
          some (db.hold i k (AIModel.to .active), .training key candidate
            (.demoting own previous todo))
  | .demoting own previous [] =>
      some (db.hold i own (AIModel.to .champion), .training key candidate
        (.saved own previous true))
  | .saved _ _ _ => some (db.commit i, .idle)

/-- The steps of `rollback_champion_model`. -/
def Rollback.advance (db : Db AIModel) (i : ℕ) (key : Key) :
    Rollback → Option (Db AIModel × Process)
  | .opened =>
      some (db, .rollback key (.reading ((latestFirst (db.select i key.champion)).map (·.1))))
  | .reading (k :: todo) =>
      match come db i k key.champion with
      | none => none
      | some none => some (db, .rollback key (.reading todo))
      | some (some _) => some (db.hold i k id, .rollback key (.read (some k)))
  | .reading [] => some (db, .rollback key (.read none))
  | .read current =>
      some (db, .rollback key
        (.locking current ((latestFirst (db.select i key.active)).map (·.1)) []))
  | .locking current (k :: todo) candidates =>
      match come db i k key.active with
      | none => none
      | some none => some (db, .rollback key (.locking current todo candidates))
      | some (some m) =>
          some (db.hold i k id, .rollback key (.locking current todo (candidates ++ [(k, m)])))
  | .locking current [] candidates =>
      match replacement candidates with
      | none => some (db, .rollback key (.saved none))
      | some best => some (db, .rollback key (.chosen current best))
  | .chosen (some k) best =>
      some (db.hold i k (AIModel.to .active), .rollback key (.demoted best))
  | .chosen none best => some (db, .rollback key (.demoted best))
  | .demoted best =>
      some (db.hold i best (AIModel.to .champion), .rollback key (.saved (some best)))
  | .saved _ => some (db.commit i, .idle)

def Process.advance (db : Db AIModel) (i : ℕ) : Process → Option (Db AIModel × Process)
  | .idle => none
  | .training key candidate phase => phase.advance db i key candidate
  | .rollback key phase => phase.advance db i key

namespace Registry

def set (s : Registry) (i : ℕ) (p : Process) : Registry :=
  { s with processes := fun j => if j = i then p else s.processes j }

/-- Process `i` begins, if it is idle and the timeframe is one. -/
def begin (host : CaseHost) (s : Registry) (i : ℕ) (timeframe : String)
    (start : String → Process) : Option Registry :=
  match s.processes i with
  | .idle => (normalize_timeframe host timeframe).map fun timeframe => s.set i (start timeframe)
  | _ => none

def next (host : CaseHost) (s : Registry) : Action → Option Registry
  | .train i symbol timeframe candidate =>
      s.begin host i timeframe fun timeframe => .training ⟨symbol, timeframe⟩ candidate .opened
  | .rollback i symbol timeframe =>
      s.begin host i timeframe fun timeframe => .rollback ⟨symbol, timeframe⟩ .opened
  | .advance i =>
      ((s.processes i).advance s.models i).map fun out =>
        { (s.set i out.2) with models := out.1 }
  | .fail i =>
      match s.processes i with
      | .idle => none
      | _ => some { (s.set i .idle) with models := s.models.abort i }

end Registry

def registry (host : CaseHost) : Machine Registry Action where
  next := Registry.next host

/-! ## What the claim asks -/

/-- The row is a committed champion of this symbol and timeframe. -/
def Key.crowns (key : Key) (c : Cell AIModel) : Bool :=
  c.committed.any fun m => key.owns m && m.status = .champion

/-- No symbol and timeframe has two champions. -/
def OneChampion (s : Registry) : Prop :=
  ∀ (key : Key) (j k : ℕ) (c d : Cell AIModel),
    s.models.get? j = some c → s.models.get? k = some d →
    key.crowns c = true → key.crowns d = true → j = k

/-- The candidate's score is strictly higher than the model's. -/
def beats (candidate : Candidate) (m : AIModel) : Bool :=
  (m.promotion_score.read (.inf true)).any fun score => Double.lt score candidate.best_score

/-- A step that commits the promotion of a training finds no champion, or one its candidate
beats. -/
def Better (s : Registry) : Action → Prop
  | .advance i =>
      match s.processes i with
      | .training key candidate (.saved _ _ true) =>
          ∀ k c m, s.models.get? k = some c → c.committed = some m → key.crowns c = true →
            beats candidate m = true
      | _ => True
  | _ => True

/-- The row a process promotes when it commits. -/
def Process.promotes : Process → Option ℕ
  | .training _ _ (.saved own _ true) => some own
  | .rollback _ (.saved best) => best
  | _ => none

/-- The transaction has demoted the row. -/
def Demoted (i : ℕ) (c : Cell AIModel) : Prop :=
  c.holder = some i ∧ c.draft.all (fun m => m.status ≠ .champion) = true

/-- A promotion is committed only over champions of its symbol and timeframe that the transaction
has demoted, and by a training only over the one it compared with or one it beats. -/
def Arbitrated (s : Registry) : Action → Prop
  | .advance i =>
      (∀ own c m (key : Key), (s.processes i).promotes = some own → s.models.get? own = some c →
        c.draft = some m → key.owns m = true →
        ∀ k d, s.models.get? k = some d → key.crowns d = true → Demoted i d) ∧
      match s.processes i with
      | .training key candidate (.saved _ previous true) =>
          ∀ k c m, s.models.get? k = some c → c.committed = some m → key.crowns c = true →
            previous.map (·.1) = some k ∨ beats candidate m = true
      | _ => True
  | _ => True

/-! ## What a process relies on -/

/-- The two versions are of one model; only a status is ever written. -/
def Frozen (m m' : AIModel) : Prop := m.to .active = m'.to .active

variable {db db' : Db AIModel} {i j k : ℕ} {key : Key} {candidate : Candidate} {c : Cell AIModel}
  {m m' : AIModel} {p p' : Process}

/-- The row a training has inserted. -/
def Own (db : Db AIModel) (i own : ℕ) (row : AIModel) : Prop :=
  db.get? own = some ⟨own, none, some i, some row⟩

/-- The champion a training compared with is still a row, with its score. -/
def Compared (db : Db AIModel) (previous : Option (ℕ × AIModel)) : Prop :=
  ∀ q, previous = some q → ∃ c m, db.get? q.1 = some c ∧ c.committed = some m ∧ Frozen m q.2

/-- The process holds the row. -/
def Held (db : Db AIModel) (i k : ℕ) : Prop := ∃ c, db.get? k = some c ∧ c.holder = some i

/-- The process holds a row that is not a committed champion. -/
def Kept (db : Db AIModel) (i k : ℕ) : Prop :=
  ∃ c m, db.get? k = some c ∧ c.holder = some i ∧ c.committed = some m ∧ m.status ≠ .champion

/-- The process has made the row a champion. -/
def Crowned (db : Db AIModel) (i k : ℕ) : Prop :=
  ∃ c m, db.get? k = some c ∧ c.holder = some i ∧ c.draft = some m ∧ m.status = .champion ∧
    ∀ m', c.committed = some m' → m'.status ≠ .champion

/-- The process has written nothing. -/
def Clean (db : Db AIModel) (i : ℕ) : Prop :=
  ∀ k c, db.get? k = some c → c.holder = some i → c.draft = c.committed

def Training.Inv (db : Db AIModel) (i : ℕ) (key : Key) (candidate : Candidate) : Training → Prop
  | .opened => True
  | .created own => Own db i own (candidate.model key)
  | .compared own previous => Own db i own (candidate.model key) ∧ Compared db previous
  | .demoting own previous _ =>
      Own db i own (candidate.model key) ∧ Compared db previous ∧
        promoted candidate previous = some true
  | .saved own previous true =>
      Crowned db i own ∧ Compared db previous ∧ promoted candidate previous = some true
  | .saved _ _ false => True

def Rollback.Inv (db : Db AIModel) (i : ℕ) : Rollback → Prop
  | .opened => Clean db i
  | .reading _ => Clean db i
  | .read current => Clean db i ∧ ∀ k, current = some k → Held db i k
  | .locking current _ candidates =>
      Clean db i ∧ (∀ k, current = some k → Held db i k) ∧ ∀ row ∈ candidates, Kept db i row.1
  | .chosen current best => (∀ k, current = some k → Held db i k) ∧ Kept db i best
  | .demoted best => Kept db i best
  | .saved (some best) => Crowned db i best
  | .saved none => True

def Process.Inv (db : Db AIModel) (i : ℕ) : Process → Prop
  | .idle => ∀ k, ¬ Held db i k
  | .training key candidate phase => phase.Inv db i key candidate
  | .rollback _ phase => phase.Inv db i

/-- What holds of the rows a process holds, and of the place it is at. -/
structure Holds (db : Db AIModel) (i : ℕ) (p : Process) : Prop where
  version : ∀ k c m, db.get? k = some c → c.holder = some i → c.committed = some m →
    ∃ m', c.draft = some m' ∧ Frozen m' m
  crown : ∀ k c m, db.get? k = some c → c.holder = some i → c.draft = some m →
    m.status = .champion → c.committed = some m ∨ p.promotes = some k
  phase : p.Inv db i

/-! ### Steps of another process -/

/-- What a step of process `i` leaves to the others. -/
abbrev Frame : ℕ → Db AIModel → Db AIModel → Prop := Db.Frame Frozen

theorem frozen_refl (m : AIModel) : Frozen m m := rfl

theorem Compared.frame {previous : Option (ℕ × AIModel)} (h : Compared db previous)
    (hframe : Frame i db db') : Compared db' previous := by
  intro q hq
  obtain ⟨c, m, hget, hcommitted, hfrozen⟩ := h q hq
  obtain ⟨c', m', hget', hcommitted', hfrozen'⟩ := hframe.committed q.1 c m hget hcommitted
  exact ⟨c', m', hget', hcommitted', hfrozen'.trans hfrozen⟩

theorem Held.frame (h : Held db j k) (hframe : Frame i db db') (hne : j ≠ i) : Held db' j k := by
  obtain ⟨c, hget, hholder⟩ := h
  exact ⟨c, hframe.stays k c j hne hget hholder, hholder⟩

theorem Kept.frame (h : Kept db j k) (hframe : Frame i db db') (hne : j ≠ i) : Kept db' j k := by
  obtain ⟨c, m, hget, hholder, hrest⟩ := h
  exact ⟨c, m, hframe.stays k c j hne hget hholder, hholder, hrest⟩

theorem Crowned.frame (h : Crowned db j k) (hframe : Frame i db db') (hne : j ≠ i) :
    Crowned db' j k := by
  obtain ⟨c, m, hget, hholder, hrest⟩ := h
  exact ⟨c, m, hframe.stays k c j hne hget hholder, hholder, hrest⟩

theorem Clean.frame (h : Clean db j) (hframe : Frame i db db') (hne : j ≠ i) : Clean db' j := by
  intro k c hget hholder
  exact h k c (hframe.holders k c j hne hget hholder) hholder

theorem Process.Inv.frame (h : p.Inv db j) (hframe : Frame i db db') (hne : j ≠ i) :
    p.Inv db' j := by
  have hown : ∀ {own row}, Own db j own row → Own db' j own row := by
    intro own row h
    exact hframe.stays own _ j hne h rfl
  cases p with
  | idle =>
    rintro k ⟨c, hget, hholder⟩
    exact h k ⟨c, hframe.holders k c j hne hget hholder, hholder⟩
  | training key candidate phase =>
    cases phase with
    | opened => exact trivial
    | created own => exact hown h
    | compared own previous => exact ⟨hown h.1, h.2.frame hframe⟩
    | demoting own previous todo => exact ⟨hown h.1, h.2.1.frame hframe, h.2.2⟩
    | saved own previous promoted =>
      cases promoted with
      | true => exact ⟨h.1.frame hframe hne, h.2.1.frame hframe, h.2.2⟩
      | false => exact trivial
  | rollback key phase =>
    cases phase with
    | opened => exact Clean.frame h hframe hne
    | reading todo => exact Clean.frame h hframe hne
    | read current =>
      exact ⟨h.1.frame hframe hne, fun k hk => (h.2 k hk).frame hframe hne⟩
    | locking current todo candidates =>
      exact ⟨h.1.frame hframe hne, fun k hk => (h.2.1 k hk).frame hframe hne,
        fun row hrow => (h.2.2 row hrow).frame hframe hne⟩
    | chosen current best =>
      exact ⟨fun k hk => (h.1 k hk).frame hframe hne, h.2.frame hframe hne⟩
    | demoted best => exact Kept.frame h hframe hne
    | saved best =>
      cases best with
      | none => exact trivial
      | some best => exact Crowned.frame h hframe hne

theorem Holds.frame (h : Holds db j p) (hframe : Frame i db db') (hne : j ≠ i) :
    Holds db' j p where
  version k c m hget hholder := h.version k c m (hframe.holders k c j hne hget hholder) hholder
  crown k c m hget hholder := h.crown k c m (hframe.holders k c j hne hget hholder) hholder
  phase := h.phase.frame hframe hne

/-! ### The operations of a process -/

theorem frozen_to (status : ModelStatus) (m : AIModel) : Frozen (m.to status) m := rfl

/-- A process that is at its end holds nothing. -/
theorem holds_idle (h : ∀ k c, db.get? k = some c → c.holder ≠ some i) : Holds db i .idle where
  version k c m hget hholder := absurd hholder (h k c hget)
  crown k c m hget hholder := absurd hholder (h k c hget)
  phase := by
    rintro k ⟨c, hget, hholder⟩
    exact h k c hget hholder

theorem holds_commit (db : Db AIModel) (i : ℕ) : Holds (db.commit i) i .idle := by
  refine holds_idle ?_
  intro k c hget hholder
  rw [Db.get?_commit] at hget
  obtain ⟨d, _, rfl⟩ := Option.map_eq_some_iff.mp hget
  by_cases hself : d.holder = some i
  · rw [Cell.commit_of_holder hself] at hholder
    cases hholder
  · rw [Cell.commit_of_ne hself] at hholder
    exact hself hholder

theorem holds_abort (db : Db AIModel) (i : ℕ) : Holds (db.abort i) i .idle := by
  refine holds_idle ?_
  intro k c hget hholder
  rw [Db.get?_abort] at hget
  obtain ⟨d, _, rfl⟩ := Option.map_eq_some_iff.mp hget
  by_cases hself : d.holder = some i
  · rw [Cell.abort_of_holder hself] at hholder
    cases hholder
  · rw [Cell.abort_of_ne hself] at hholder
    exact hself hholder

/-- A step that only moves on. -/
theorem Holds.stay (h : Holds db i p) (hnone : p.promotes = none) (hphase : p'.Inv db i) :
    Holds db i p' where
  version := h.version
  crown k c m hget hholder hdraft hchampion := by
    refine Or.inl ((h.crown k c m hget hholder hdraft hchampion).resolve_right ?_)
    rw [hnone]
    exact fun hcontra => by cases hcontra
  phase := hphase

/-- A step that locks or writes a row. -/
theorem Holds.hold {f : AIModel → AIModel} (h : Holds db i p) (hnone : p.promotes = none)
    (hfrozen : ∀ m, Frozen (f m) m)
    (hcrown : ∀ c m, db.get? k = some c → c.visible i = some m → (f m).status = .champion →
      c.committed = some (f m) ∨ p'.promotes = some k)
    (hphase : p'.Inv (db.hold i k f) i) : Holds (db.hold i k f) i p' where
  version l c m hget hholder hcommitted := by
    rw [Db.get?_hold] at hget
    split at hget
    · obtain ⟨d, hd, rfl⟩ := Option.map_eq_some_iff.mp hget
      by_cases hself : d.holder = some i
      · obtain ⟨m', hdraft, hsame⟩ := h.version k d m hd hself hcommitted
        refine ⟨f m', ?_, (hfrozen m').trans hsame⟩
        rw [Cell.hold, Cell.visible, if_pos hself, hdraft, Option.map_some]
      · refine ⟨f m, ?_, hfrozen m⟩
        rw [Cell.hold, Cell.visible, if_neg hself]
        exact congrArg (Option.map f) hcommitted
    · exact h.version l c m hget hholder hcommitted
  crown l c m hget hholder hdraft hchampion := by
    rw [Db.get?_hold] at hget
    split at hget
    · next hl =>
      obtain ⟨d, hd, rfl⟩ := Option.map_eq_some_iff.mp hget
      obtain ⟨m', hvisible, rfl⟩ := Option.map_eq_some_iff.mp hdraft
      rw [hl]
      exact hcrown d m' hd hvisible hchampion
    · refine Or.inl ((h.crown l c m hget hholder hdraft hchampion).resolve_right ?_)
      rw [hnone]
      exact fun hcontra => by cases hcontra
  phase := hphase

/-- Demoting a row makes no champion. -/
theorem Holds.demote (h : Holds db i p) (hnone : p.promotes = none)
    (hphase : p'.Inv (db.hold i k (AIModel.to .active)) i) :
    Holds (db.hold i k (AIModel.to .active)) i p' := by
  refine h.hold hnone (frozen_to .active) ?_ hphase
  intro c m _ _ hcontra
  cases hcontra

/-- Locking a row while nothing is written. -/
theorem Holds.lock (h : Holds db i p) (hnone : p.promotes = none) (hclean : Clean db i)
    (hphase : p'.Inv (db.hold i k id) i) : Holds (db.hold i k id) i p' := by
  refine h.hold hnone (fun _ => rfl) ?_ hphase
  intro c m hget hvisible _
  rw [Cell.visible] at hvisible
  split at hvisible
  · next hself => exact Or.inl (by rw [← hclean k c hget hself]; exact hvisible)
  · exact Or.inl hvisible

/-- What a statement learns of a row it has come to. -/
theorem of_come {q : AIModel → Bool} {row : Option AIModel} (h : come db i k q = some row) :
    (∀ c, db.get? k = some c → c.free i = true) ∧
      ∀ m, row = some m → ∃ c, db.get? k = some c ∧ c.visible i = some m ∧ q m = true := by
  unfold come at h
  split at h
  · next hnone =>
    cases h
    refine ⟨fun c hget => ?_, fun m hm => by cases hm⟩
    rw [hnone] at hget
    cases hget
  · next c hget =>
    split at h
    · next hfree =>
      cases h
      refine ⟨fun d hd => ?_, fun m hm => ?_⟩
      · rw [hget] at hd
        cases hd
        exact hfree
      · obtain ⟨hvisible, hq⟩ := Option.filter_eq_some_iff.mp hm
        exact ⟨c, hget, hvisible, hq⟩
    · cases h

theorem free_of_held (h : Held db i k) : ∀ c, db.get? k = some c → c.free i = true := by
  obtain ⟨d, hd, hholder⟩ := h
  intro c hget
  rw [hd] at hget
  cases hget
  rw [Cell.free, hholder]
  simp

theorem Clean.lock (h : Clean db i) : Clean (db.hold i k id) i := by
  intro l c hget hholder
  rw [Db.get?_hold] at hget
  split at hget
  · obtain ⟨d, hd, rfl⟩ := Option.map_eq_some_iff.mp hget
    rw [Cell.hold, Cell.visible]
    split
    · next hself => simpa using h k d hd hself
    · simp
  · exact h l c hget hholder

/-- Locks and writes keep what a process holds. -/
theorem Held.hold {f : AIModel → AIModel} {l : ℕ} (h : Held db i l) : Held (db.hold i k f) i l := by
  obtain ⟨c, hget, hholder⟩ := h
  rw [Held, Db.get?_hold]
  split
  · next hl => exact ⟨c.hold i f, by rw [← hl, hget, Option.map_some], rfl⟩
  · exact ⟨c, hget, hholder⟩

theorem Kept.hold {f : AIModel → AIModel} {l : ℕ} (h : Kept db i l) : Kept (db.hold i k f) i l := by
  obtain ⟨c, m, hget, hholder, hcommitted, hstatus⟩ := h
  rw [Kept, Db.get?_hold]
  split
  · next hl => exact ⟨c.hold i f, m, by rw [← hl, hget, Option.map_some], rfl, hcommitted, hstatus⟩
  · exact ⟨c, m, hget, hholder, hcommitted, hstatus⟩

/-! ### One step of a process -/

/-- What a step of a process does: it commits and ends, or nothing is committed and the process has
not come to its promotion. -/
structure Advanced (db : Db AIModel) (i : ℕ) (p : Process) (db' : Db AIModel) (p' : Process) :
    Prop where
  frame : Frame i db db'
  holds : Holds db' i p'
  commits : db' = db.commit i ∨ Db.Quiet db db' ∧ p.promotes = none

theorem Advanced.moves (h : Holds db i p) (hnone : p.promotes = none) (hphase : p'.Inv db i) :
    Advanced db i p db p' :=
  ⟨Db.Frame.refl frozen_refl i db, h.stay hnone hphase, Or.inr ⟨fun _ => rfl, hnone⟩⟩

theorem Advanced.writes {f : AIModel → AIModel} (hnone : p.promotes = none)
    (hfree : ∀ c, db.get? k = some c → c.free i = true)
    (hholds : Holds (db.hold i k f) i p') : Advanced db i p (db.hold i k f) p' :=
  ⟨Db.frame_hold frozen_refl hfree, hholds, Or.inr ⟨Db.quiet_hold, hnone⟩⟩

theorem Advanced.ends (h : Holds db i p) : Advanced db i p (db.commit i) .idle :=
  ⟨Db.frame_commit frozen_refl h.version, holds_commit db i, Or.inl rfl⟩

theorem own_hold {own : ℕ} {row : AIModel} {f : AIModel → AIModel} (h : Own db i own row)
    (hne : own ≠ k) : Own (db.hold i k f) i own row := by
  rw [Own, Db.get?_hold, if_neg hne]
  exact h

theorem held_own {own : ℕ} {row : AIModel} (h : Own db i own row) : Held db i own :=
  ⟨_, h, rfl⟩

/-- The inserted row is no champion, so a statement that demotes does not come to it. -/
theorem ne_of_own {own : ℕ} (h : Own db i own (candidate.model key))
    (hget : db.get? k = some c) (hvisible : c.visible i = some m)
    (hchampion : key.champion m = true) : own ≠ k := by
  rintro rfl
  rw [h] at hget
  cases hget
  rw [Cell.visible, if_pos rfl] at hvisible
  cases hvisible
  simp [Key.champion, Candidate.model] at hchampion

theorem Training.advance_spec {phase : Training} (h : Holds db i (.training key candidate phase))
    (hstep : phase.advance db i key candidate = some (db', p')) :
    Advanced db i (.training key candidate phase) db' p' := by
  cases phase with
  | opened =>
    simp only [Training.advance] at hstep
    split at hstep
    · cases hstep
    · cases hstep
      refine ⟨Db.frame_insert frozen_refl _, ?_, Or.inr ⟨Db.quiet_insert _, rfl⟩⟩
      have hown : Own (db.insert i (candidate.model key)) i db.nextPk (candidate.model key) := by
        rw [Own, Db.get?_insert, if_pos rfl]
      refine ⟨?_, ?_, hown⟩
      · intro k c m hget hholder hcommitted
        rw [Db.get?_insert] at hget
        split at hget
        · cases hget
          cases hcommitted
        · exact h.version k c m hget hholder hcommitted
      · intro k c m hget hholder hdraft hchampion
        rw [Db.get?_insert] at hget
        split at hget
        · cases hget
          cases hdraft
          cases hchampion
        · exact h.crown k c m hget hholder hdraft hchampion
  | created own =>
    simp only [Training.advance] at hstep
    cases hstep
    refine Advanced.moves h rfl ⟨h.phase, ?_⟩
    -- the champion it compares with is a committed row, since it has demoted nothing
    intro q hq
    have hmem := List.mem_of_mem_head? hq
    have hsel : q ∈ db.select i key.champion := by
      have hsorted := (List.perm_insertionSort _ _).mem_iff.mp hmem
      exact (List.mem_filter.mp hsorted).1
    have hother : q.1 ≠ own := by
      have hsorted := (List.perm_insertionSort _ _).mem_iff.mp hmem
      simpa using (List.mem_filter.mp hsorted).2
    obtain ⟨k, m⟩ := q
    obtain ⟨c, hget, hvisible, hchampion⟩ := Db.mem_select hsel
    refine ⟨c, m, hget, ?_, rfl⟩
    rw [Cell.visible] at hvisible
    split at hvisible
    · next hself =>
      have hstatus : m.status = .champion := by
        simpa [Key.champion] using (Bool.and_eq_true_iff.mp hchampion).2
      rcases h.crown k c m hget hself hvisible hstatus with hcommitted | hcontra
      · exact hcommitted
      · cases hcontra
    · exact hvisible
  | compared own previous =>
    obtain ⟨hown, hcompared⟩ := h.phase
    simp only [Training.advance] at hstep
    split at hstep
    · cases hstep
    · next hpromoted =>
      cases hstep
      exact Advanced.moves h rfl ⟨hown, hcompared, hpromoted⟩
    · cases hstep
      exact Advanced.writes rfl (free_of_held (held_own hown)) (h.demote rfl trivial)
  | demoting own previous todo =>
    obtain ⟨hown, hcompared, hpromoted⟩ := h.phase
    cases todo with
    | cons k todo =>
      simp only [Training.advance] at hstep
      split at hstep
      · cases hstep
      · cases hstep
        exact Advanced.moves h rfl ⟨hown, hcompared, hpromoted⟩
      · next m hcome =>
        cases hstep
        obtain ⟨hfree, hrow⟩ := of_come hcome
        obtain ⟨c, hget, hvisible, hchampion⟩ := hrow m rfl
        have hne := ne_of_own hown hget hvisible hchampion
        refine Advanced.writes rfl hfree (h.demote rfl ?_)
        exact ⟨own_hold hown hne, hcompared.frame (Db.frame_hold frozen_refl hfree), hpromoted⟩
    | nil =>
      simp only [Training.advance] at hstep
      cases hstep
      have hfree := free_of_held (held_own hown)
      refine Advanced.writes rfl hfree (h.hold rfl (frozen_to .champion) ?_ ?_)
      · exact fun _ _ _ _ _ => Or.inr rfl
      · refine ⟨?_, hcompared.frame (Db.frame_hold frozen_refl hfree), hpromoted⟩
        let row : Cell AIModel := ⟨own, none, some i, some (candidate.model key)⟩
        refine ⟨row.hold i (AIModel.to .champion), (candidate.model key).to .champion, ?_, rfl, ?_,
          rfl, ?_⟩
        · rw [Db.get?_hold, if_pos rfl, hown, Option.map_some]
        · rw [Cell.hold, Cell.visible, if_pos rfl]
          rfl
        · intro m' hcommitted
          cases hcommitted
  | saved own previous promoted =>
    simp only [Training.advance] at hstep
    cases hstep
    exact Advanced.ends h

theorem best_mem (row : Double × ℕ) (rows : List (Double × ℕ)) : best row rows ∈ row :: rows := by
  unfold best
  induction rows generalizing row with
  | nil => exact List.mem_cons_self
  | cons next rows ih =>
    rw [List.foldl_cons]
    split
    · exact List.mem_cons_of_mem _ (ih next)
    · rcases List.mem_cons.mp (ih row) with hsame | hmem
      · rw [hsame]
        exact List.mem_cons_self
      · exact List.mem_cons_of_mem _ (List.mem_cons_of_mem _ hmem)

theorem mem_of_replacement {candidates : List (ℕ × AIModel)} (h : replacement candidates = some k) :
    ∃ row ∈ candidates, row.1 = k := by
  unfold replacement at h
  split at h
  · cases h
  · next row rows hsafe =>
    cases h
    have hmem := best_mem row rows
    rw [← hsafe] at hmem
    obtain ⟨candidate, hcandidate, hscore⟩ := List.mem_filterMap.mp hmem
    obtain ⟨score, _, heq⟩ := Option.map_eq_some_iff.mp hscore
    exact ⟨candidate, hcandidate, by rw [← heq]⟩

theorem Rollback.advance_spec {phase : Rollback} (h : Holds db i (.rollback key phase))
    (hstep : phase.advance db i key = some (db', p')) :
    Advanced db i (.rollback key phase) db' p' := by
  cases phase with
  | opened =>
    simp only [Rollback.advance] at hstep
    cases hstep
    exact Advanced.moves h rfl h.phase
  | reading todo =>
    have hclean : Clean db i := h.phase
    cases todo with
    | cons k todo =>
      simp only [Rollback.advance] at hstep
      split at hstep
      · cases hstep
      · cases hstep
        exact Advanced.moves h rfl hclean
      · next m hcome =>
        cases hstep
        obtain ⟨hfree, hrow⟩ := of_come hcome
        obtain ⟨c, hget, _⟩ := hrow m rfl
        refine Advanced.writes rfl hfree (h.lock rfl hclean ⟨hclean.lock, ?_⟩)
        intro l hl
        cases hl
        exact ⟨c.hold i id, by rw [Db.get?_hold, if_pos rfl, hget, Option.map_some], rfl⟩
    | nil =>
      simp only [Rollback.advance] at hstep
      cases hstep
      exact Advanced.moves h rfl ⟨hclean, fun k hk => by cases hk⟩
  | read current =>
    obtain ⟨hclean, hheld⟩ := h.phase
    simp only [Rollback.advance] at hstep
    cases hstep
    exact Advanced.moves h rfl ⟨hclean, hheld, fun row hrow => by cases hrow⟩
  | locking current todo candidates =>
    obtain ⟨hclean, hheld, hkept⟩ := h.phase
    cases todo with
    | cons k todo =>
      simp only [Rollback.advance] at hstep
      split at hstep
      · cases hstep
      · cases hstep
        exact Advanced.moves h rfl ⟨hclean, hheld, hkept⟩
      · next m hcome =>
        cases hstep
        obtain ⟨hfree, hrow⟩ := of_come hcome
        obtain ⟨c, hget, hvisible, hactive⟩ := hrow m rfl
        refine Advanced.writes rfl hfree (h.lock rfl hclean
          ⟨hclean.lock, fun l hl => (hheld l hl).hold, ?_⟩)
        intro row hmem
        rcases List.mem_append.mp hmem with hold | hnew
        · exact (hkept row hold).hold
        · obtain rfl := List.mem_singleton.mp hnew
          have hcommitted : c.committed = some m := by
            rw [Cell.visible] at hvisible
            split at hvisible
            · next hself => rw [← hclean k c hget hself]; exact hvisible
            · exact hvisible
          have hstatus : m.status = .active := by
            simpa [Key.active] using (Bool.and_eq_true_iff.mp hactive).2
          refine ⟨c.hold i id, m, ?_, rfl, hcommitted, ?_⟩
          · rw [Db.get?_hold, if_pos rfl, hget, Option.map_some]
          · rw [hstatus]
            exact fun hcontra => by cases hcontra
    | nil =>
      simp only [Rollback.advance] at hstep
      split at hstep
      · cases hstep
        exact Advanced.moves h rfl trivial
      · next best hbest =>
        cases hstep
        obtain ⟨row, hmem, rfl⟩ := mem_of_replacement hbest
        exact Advanced.moves h rfl ⟨hheld, hkept row hmem⟩
  | chosen current best =>
    obtain ⟨hheld, hkept⟩ := h.phase
    cases current with
    | none =>
      simp only [Rollback.advance] at hstep
      cases hstep
      exact Advanced.moves h rfl hkept
    | some k =>
      simp only [Rollback.advance] at hstep
      cases hstep
      exact Advanced.writes rfl (free_of_held (hheld k rfl)) (h.demote rfl hkept.hold)
  | demoted best =>
    have hkept : Kept db i best := h.phase
    obtain ⟨c, m, hget, hholder, hcommitted, hstatus⟩ := hkept
    simp only [Rollback.advance] at hstep
    cases hstep
    refine Advanced.writes rfl (free_of_held ⟨c, hget, hholder⟩)
      (h.hold rfl (frozen_to .champion) (fun _ _ _ _ _ => Or.inr rfl) ?_)
    obtain ⟨m', hdraft, _⟩ := h.version best c m hget hholder hcommitted
    refine ⟨c.hold i (AIModel.to .champion), m'.to .champion, ?_, rfl, ?_, rfl, ?_⟩
    · rw [Db.get?_hold, if_pos rfl, hget, Option.map_some]
    · rw [Cell.hold, Cell.visible, if_pos hholder, hdraft, Option.map_some]
    · intro m'' hcommitted'
      have hsame : m'' = m := Option.some.inj (hcommitted'.symm.trans hcommitted)
      rw [hsame]
      exact hstatus
  | saved best =>
    simp only [Rollback.advance] at hstep
    cases hstep
    exact Advanced.ends h

/-! ## Runs -/

/-- Every process finds what it relies on. -/
def RegistryInv (s : Registry) : Prop := ∀ i, Holds s.models i (s.processes i)

variable {host : CaseHost} {s s' t : Registry} {a : Action} {as : List Action}

@[simp] theorem set_processes_self (s : Registry) (i : ℕ) (p : Process) :
    (s.set i p).processes i = p := if_pos rfl

@[simp] theorem set_processes_ne (s : Registry) (p : Process) (hne : j ≠ i) :
    (s.set i p).processes j = s.processes j := if_neg hne

@[simp] theorem set_models (s : Registry) (i : ℕ) (p : Process) : (s.set i p).models = s.models :=
  rfl

theorem RegistryInv.of_advanced (h : RegistryInv s) (hframe : Frame i s.models db')
    (hholds : Holds db' i p') : RegistryInv { (s.set i p') with models := db' } := by
  intro j
  by_cases hj : j = i
  · subst hj
    simpa using hholds
  · simpa [hj] using (h j).frame hframe hj

theorem RegistryInv.begin (h : RegistryInv s) {timeframe : String} {start : String → Process}
    (hstart : ∀ timeframe, (∀ k, ¬ Held s.models i k) → (start timeframe).Inv s.models i)
    (hnext : s.begin host i timeframe start = some s') :
    RegistryInv s' ∧ Db.Quiet s.models s'.models := by
  unfold Registry.begin at hnext
  split at hnext
  · next hidle =>
    obtain ⟨canonical, _, rfl⟩ := Option.map_eq_some_iff.mp hnext
    have hholds := h i
    rw [hidle] at hholds
    refine ⟨?_, fun _ => rfl⟩
    exact h.of_advanced (Db.Frame.refl frozen_refl i s.models)
      (hholds.stay rfl (hstart canonical hholds.phase))
  · cases hnext

/-- What an action does to the models and to the processes. -/
theorem next_cases (h : RegistryInv s) (hnext : (registry host).next s a = some s') :
    RegistryInv s' ∧
      ((∃ i, a = .advance i ∧ s'.models = s.models.commit i) ∨
        Db.Quiet s.models s'.models ∧ ∀ i, a = .advance i → (s.processes i).promotes = none) := by
  cases a with
  | train i symbol timeframe candidate =>
    have hopened : ∀ timeframe : String, (∀ k, ¬ Held s.models i k) →
        (Process.training ⟨symbol, timeframe⟩ candidate .opened).Inv s.models i :=
      fun _ _ => trivial
    obtain ⟨hinv, hquiet⟩ := h.begin hopened hnext
    exact ⟨hinv, Or.inr ⟨hquiet, fun j hj => by cases hj⟩⟩
  | rollback i symbol timeframe =>
    have hclean : ∀ timeframe : String, (∀ k, ¬ Held s.models i k) →
        (Process.rollback ⟨symbol, timeframe⟩ .opened).Inv s.models i := by
      intro _ hidle k c hget hholder
      exact absurd ⟨c, hget, hholder⟩ (hidle k)
    obtain ⟨hinv, hquiet⟩ := h.begin hclean hnext
    exact ⟨hinv, Or.inr ⟨hquiet, fun j hj => by cases hj⟩⟩
  | advance i =>
    obtain ⟨out, hout, rfl⟩ := Option.map_eq_some_iff.mp hnext
    obtain ⟨db', p'⟩ := out
    have hholds := h i
    have hadvanced : Advanced s.models i (s.processes i) db' p' := by
      generalize s.processes i = p at hholds hout
      cases p with
      | idle => cases hout
      | training key candidate phase => exact Training.advance_spec hholds hout
      | rollback key phase => exact Rollback.advance_spec hholds hout
    refine ⟨h.of_advanced hadvanced.frame hadvanced.holds, ?_⟩
    rcases hadvanced.commits with hcommit | ⟨hquiet, hnone⟩
    · exact Or.inl ⟨i, rfl, hcommit⟩
    · refine Or.inr ⟨hquiet, fun j hj => ?_⟩
      cases hj
      exact hnone
  | fail i =>
    have hsome : ∃ s'', s'' = s' ∧ s'' = { (s.set i .idle) with models := s.models.abort i } := by
      simp only [registry, Registry.next] at hnext
      split at hnext
      · cases hnext
      · cases hnext
        exact ⟨_, rfl, rfl⟩
    obtain ⟨_, rfl, rfl⟩ := hsome
    exact ⟨h.of_advanced (Db.frame_abort frozen_refl) (holds_abort s.models i),
      Or.inr ⟨Db.quiet_abort, fun j hj => by cases hj⟩⟩

/-! ### Champions after a step -/

theorem crowns_iff : key.crowns c = true ↔
    ∃ m, c.committed = some m ∧ key.owns m = true ∧ m.status = .champion := by
  simp [Key.crowns, Option.any_eq_true]

theorem owns_of_frozen (h : Frozen m m') : key.owns m = key.owns m' := by
  have hframe : m.to .active = m'.to .active := h
  have hname := congrArg AIModel.name hframe
  have hsame : m.name = m'.name := hname
  rw [Key.owns, Key.owns, hsame]

theorem beats_of_frozen (h : Frozen m m') : beats candidate m = beats candidate m' := by
  have hframe : m.to .active = m'.to .active := h
  have hscore := congrArg AIModel.promotion_score hframe
  have hsame : m.promotion_score = m'.promotion_score := hscore
  rw [beats, beats, hsame]

/-- Where nothing is committed, the champions stay. -/
theorem crowns_of_quiet (h : Db.Quiet db db') (hget : db'.get? k = some c)
    (hcrowns : key.crowns c = true) : ∃ d, db.get? k = some d ∧ key.crowns d = true := by
  obtain ⟨m, hcommitted, hm⟩ := crowns_iff.mp hcrowns
  have hsame := h k
  rw [hget, Option.bind_some, hcommitted] at hsame
  obtain ⟨d, hd, hcommitted'⟩ := Option.bind_eq_some_iff.mp hsame.symm
  exact ⟨d, hd, crowns_iff.mpr ⟨m, hcommitted', hm⟩⟩

/-- A champion after a commit is what the process promotes, or was one that the process has not
demoted. -/
theorem crowns_commit (h : Holds db i p) (hget : (db.commit i).get? k = some c)
    (hcrowns : key.crowns c = true) :
    (∃ d m, db.get? k = some d ∧ d.draft = some m ∧ key.owns m = true ∧ p.promotes = some k) ∨
      ∃ d, db.get? k = some d ∧ key.crowns d = true ∧ ¬ Demoted i d := by
  obtain ⟨m, hcommitted, howns, hchampion⟩ := crowns_iff.mp hcrowns
  rw [Db.get?_commit] at hget
  obtain ⟨d, hd, rfl⟩ := Option.map_eq_some_iff.mp hget
  by_cases hself : d.holder = some i
  · rw [Cell.commit_of_holder hself] at hcommitted
    have hdraft : d.draft = some m := hcommitted
    rcases h.crown k d m hd hself hdraft hchampion with hsame | hpromotes
    · refine Or.inr ⟨d, hd, crowns_iff.mpr ⟨m, hsame, howns, hchampion⟩, ?_⟩
      rintro ⟨_, hall⟩
      rw [hdraft] at hall
      simp [hchampion] at hall
    · exact Or.inl ⟨d, m, hd, hdraft, howns, hpromotes⟩
  · rw [Cell.commit_of_ne hself] at hcommitted
    refine Or.inr ⟨d, hd, crowns_iff.mpr ⟨m, hcommitted, howns, hchampion⟩, ?_⟩
    exact fun hdemoted => hself hdemoted.1

/-- A champion the process has not demoted is one after the commit. -/
theorem commit_crowns (h : Holds db i p) (hget : db.get? k = some c)
    (hcrowns : key.crowns c = true) (hkeeps : ¬ Demoted i c) :
    ∃ d, (db.commit i).get? k = some d ∧ key.crowns d = true := by
  obtain ⟨m, hcommitted, howns, hchampion⟩ := crowns_iff.mp hcrowns
  refine ⟨c.commit i, by rw [Db.get?_commit, hget, Option.map_some], ?_⟩
  by_cases hself : c.holder = some i
  · obtain ⟨m', hdraft, hfrozen⟩ := h.version k c m hget hself hcommitted
    have hstill : m'.status = .champion := by
      by_contra hother
      exact hkeeps ⟨hself, by simp [hdraft, hother]⟩
    rw [Cell.commit_of_holder hself]
    exact crowns_iff.mpr ⟨m', hdraft, by rw [owns_of_frozen hfrozen]; exact howns, hstill⟩
  · rw [Cell.commit_of_ne hself]
    exact hcrowns

/-- The process has crowned what it promotes. -/
theorem crowned_of_promotes {own : ℕ} (h : Holds db i p) (hpromotes : p.promotes = some own) :
    Crowned db i own := by
  have hphase := h.phase
  cases p with
  | idle => cases hpromotes
  | training key candidate phase =>
    cases phase with
    | saved own' previous promoted =>
      cases promoted with
      | true =>
        cases hpromotes
        exact hphase.1
      | false => cases hpromotes
    | _ => cases hpromotes
  | rollback key phase =>
    cases phase with
    | saved best =>
      cases best with
      | some best =>
        cases hpromotes
        exact hphase
      | none => cases hpromotes
    | _ => cases hpromotes

/-- A committed promotion leaves one champion exactly if the process has demoted the others. -/
theorem one_champion_commit (h : Holds s.models i p) (hone : OneChampion s)
    (hmodels : s'.models = s.models.commit i) :
    OneChampion s' ↔
      ∀ own c m (key : Key), p.promotes = some own → s.models.get? own = some c →
        c.draft = some m → key.owns m = true →
        ∀ k d, s.models.get? k = some d → key.crowns d = true → Demoted i d := by
  constructor
  · intro hone' own c m key hpromotes hget hdraft howns k d hd hcrowns
    by_contra hkeeps
    obtain ⟨c', m', hget', hholder, hdraft', hchampion, hfresh⟩ := crowned_of_promotes h hpromotes
    rw [hget] at hget'
    cases hget'
    rw [hdraft] at hdraft'
    cases hdraft'
    -- the promoted row is a champion after the commit, and so is the other
    obtain ⟨d', hd', hcrowns'⟩ := commit_crowns h hd hcrowns hkeeps
    have hown : (s.models.commit i).get? own = some (c.commit i) := by
      rw [Db.get?_commit, hget, Option.map_some]
    have hcrowned : key.crowns (c.commit i) = true := by
      rw [Cell.commit_of_holder hholder]
      exact crowns_iff.mpr ⟨m, hdraft, howns, hchampion⟩
    rw [← hmodels] at hd' hown
    have hsame := hone' key own k _ _ hown hd' hcrowned hcrowns'
    rw [← hsame, hget] at hd
    cases hd
    obtain ⟨m', hcommitted, _, hchampion'⟩ := crowns_iff.mp hcrowns
    exact hfresh m' hcommitted hchampion'
  · intro harbitrated key j k c d hc hd hcrowns hcrowns'
    rw [hmodels] at hc hd
    rcases crowns_commit h hc hcrowns with ⟨c₀, m, hc₀, hdraft, howns, hpromotes⟩ |
        ⟨c₀, hc₀, hcrowns₀, hkeeps⟩
    · rcases crowns_commit h hd hcrowns' with ⟨_, _, _, _, _, hpromotes'⟩ |
          ⟨d₀, hd₀, hcrowns₀', hkeeps'⟩
      · exact Option.some.inj (hpromotes.symm.trans hpromotes')
      · exact absurd (harbitrated j c₀ m key hpromotes hc₀ hdraft howns k d₀ hd₀ hcrowns₀') hkeeps'
    · rcases crowns_commit h hd hcrowns' with ⟨d₀, m, hd₀, hdraft, howns, hpromotes⟩ |
          ⟨d₀, hd₀, hcrowns₀', _⟩
      · exact absurd (harbitrated k d₀ m key hpromotes hd₀ hdraft howns j c₀ hc₀ hcrowns₀) hkeeps
      · exact hone key j k c₀ d₀ hc₀ hd₀ hcrowns₀ hcrowns₀'

/-- A training that compared with the champion beats it. -/
theorem better_iff (h : RegistryInv s) :
    Better s a ↔
      match a with
      | .advance i =>
          match s.processes i with
          | .training key candidate (.saved _ previous true) =>
              ∀ k c m, s.models.get? k = some c → c.committed = some m → key.crowns c = true →
                previous.map (·.1) = some k ∨ beats candidate m = true
          | _ => True
      | _ => True := by
  cases a with
  | advance i =>
    have hholds := h i
    simp only [Better]
    generalize s.processes i = p at hholds
    split
    · next key candidate own previous =>
      constructor
      · intro hbetter k c m hget hcommitted hcrowns
        exact Or.inr (hbetter k c m hget hcommitted hcrowns)
      · intro hcompared k c m hget hcommitted hcrowns
        rcases hcompared k c m hget hcommitted hcrowns with hprevious | hbeats
        · obtain ⟨q, hq, rfl⟩ := Option.map_eq_some_iff.mp hprevious
          obtain ⟨_, hrow, hpromoted⟩ := hholds.phase
          obtain ⟨c', m', hget', hcommitted', hfrozen⟩ := hrow q hq
          rw [hget] at hget'
          cases hget'
          rw [hcommitted] at hcommitted'
          cases hcommitted'
          rw [beats_of_frozen hfrozen, beats]
          rw [hq, promoted] at hpromoted
          obtain ⟨score, hscore, hlt⟩ := Option.map_eq_some_iff.mp hpromoted
          rw [hscore]
          exact hlt
        · exact hbeats
    · exact Iff.rfl
  | _ => exact Iff.rfl

/-- One step keeps a single champion, a better one, exactly if it is arbitrated. -/
theorem arbitrated_iff (h : RegistryInv s) (hone : OneChampion s)
    (hnext : (registry host).next s a = some s') :
    OneChampion s' ∧ Better s a ↔ Arbitrated s a := by
  rw [better_iff h]
  rcases (next_cases h hnext).2 with ⟨i, rfl, hmodels⟩ | ⟨hquiet, hnone⟩
  · rw [one_champion_commit (h i) hone hmodels]
    rfl
  · have hkept : OneChampion s' := by
      intro key j k c d hc hd hcrowns hcrowns'
      obtain ⟨c₀, hc₀, hcrowns₀⟩ := crowns_of_quiet hquiet hc hcrowns
      obtain ⟨d₀, hd₀, hcrowns₀'⟩ := crowns_of_quiet hquiet hd hcrowns'
      exact hone key j k c₀ d₀ hc₀ hd₀ hcrowns₀ hcrowns₀'
    cases a with
    | advance i =>
      have hpromotes := hnone i rfl
      constructor
      · rintro ⟨_, hbetter⟩
        refine ⟨fun own c m key hcontra => ?_, hbetter⟩
        rw [hpromotes] at hcontra
        cases hcontra
      · rintro ⟨_, hbetter⟩
        exact ⟨hkept, hbetter⟩
    | _ => exact ⟨fun _ => trivial, fun _ => ⟨hkept, trivial⟩⟩

/-! ### Runs -/

/-- No process is in a transaction. -/
structure Registry.Rests (s : Registry) : Prop where
  idle : ∀ i, s.processes i = .idle
  free : ∀ k c, s.models.get? k = some c → c.holder = none

theorem Registry.Rests.inv (h : s.Rests) : RegistryInv s := by
  have hfree : ∀ i k c, s.models.get? k = some c → c.holder ≠ some i := by
    intro i k c hget hholder
    rw [h.free k c hget] at hholder
    cases hholder
  intro i
  rw [h.idle i]
  constructor
  · intro k c m hget hholder
    exact absurd hholder (hfree i k c hget)
  · intro k c m hget hholder
    exact absurd hholder (hfree i k c hget)
  · rintro k ⟨c, hget, hholder⟩
    exact hfree i k c hget hholder

theorem one_champion_iff (hrests : s.Rests) (hone : OneChampion s)
    (hrun : (registry host).Run s as t) :
    Machine.RunIf.Always (registry host) OneChampion s as ∧ (registry host).RunIf Better s as t ↔
      (registry host).RunIf Arbitrated s as t := by
  have hinv : ∀ s a s', RegistryInv s → (registry host).next s a = some s' → RegistryInv s' :=
    fun s a s' hs hn => (next_cases hs hn).1
  have hstep : ∀ s a s', RegistryInv s → OneChampion s → (registry host).next s a = some s' →
      (OneChampion s' ∧ Better s a ↔ Arbitrated s a) :=
    fun s a s' hs hp hn => arbitrated_iff hs hp hn
  rw [Machine.RunIf.always_and_iff hinv hstep hrun hrests.inv]
  exact and_iff_right hone

/-- No model and no transaction. -/
def unregistered : Registry := ⟨Table.empty, fun _ => .idle⟩

theorem rests_unregistered : unregistered.Rests where
  idle _ := rfl
  free k c hget := by cases hget

theorem oneChampion_unregistered : OneChampion unregistered := by
  intro key j k c d hget
  cases hget

def trained (algorithm : Algorithm) (score : ℚ) (created_at : ℕ) : Candidate where
  algorithm := algorithm
  version := "20250101000000"
  best_score := .fin score
  accuracy := .fin (3 / 5)
  expectancy := .fin 1
  total_return := .fin 1
  created_at := created_at

/-- A first training, up to its commit. -/
def training (i : ℕ) (candidate : Candidate) : List Action :=
  [.train i "R_75" "M1" candidate, .advance i, .advance i, .advance i, .advance i]

/-- Neither of two first trainings sees the champion of the other. -/
theorem two_champions :
    ¬ Machine.RunIf.Always (registry .ascii) OneChampion unregistered
      (training 0 (trained .rf 1 1) ++ training 1 (trained .xgb 1 2) ++
        [.advance 0, .advance 1]) := by
  intro halways
  let key : Key := ⟨"R_75", "1m"⟩
  have hexec : ((registry .ascii).exec unregistered
      (training 0 (trained .rf 1 1) ++ training 1 (trained .xgb 1 2) ++
        [.advance 0, .advance 1])).any (fun t =>
          (t.models.get? 1).any key.crowns && (t.models.get? 2).any key.crowns) = true := by
    decide +kernel
  obtain ⟨t, ht, hboth⟩ := (Option.any_eq_true _ _).mp hexec
  obtain ⟨hfirst, hsecond⟩ := Bool.and_eq_true_iff.mp hboth
  obtain ⟨c, hc, hcrowns⟩ := (Option.any_eq_true _ _).mp hfirst
  obtain ⟨d, hd, hcrowns'⟩ := (Option.any_eq_true _ _).mp hsecond
  have hsame := halways.last ht key 1 2 c d hc hd hcrowns hcrowns'
  cases hsame

/-- A promotion over rows that are no champions, or that it has demoted and compared with. -/
def careful (s : Registry) : Action → Bool
  | .advance i =>
      (s.processes i).promotes.isNone || s.models.rows.all fun c =>
        !(c.committed.any fun m => m.status = .champion) ||
          c.holder == some i && c.draft.all (fun m => m.status ≠ .champion) &&
            match s.processes i with
            | .training _ _ (.saved _ previous _) => previous.map (·.1) == some c.pk
            | _ => true
  | _ => true

theorem arbitrated_of_careful (h : careful s a = true) : Arbitrated s a := by
  cases a with
  | advance i =>
    rcases Bool.or_eq_true_iff.mp h with hnone | hall
    · have hpromotes := Option.isNone_iff_eq_none.mp hnone
      constructor
      · intro own c m key hcontra
        rw [hpromotes] at hcontra
        cases hcontra
      · split
        · next hprocess =>
          rw [hprocess] at hpromotes
          cases hpromotes
        · trivial
    · have hrow : ∀ k d (key : Key), s.models.get? k = some d → key.crowns d = true →
          Demoted i d ∧ ∀ key candidate own previous promoted,
            s.processes i = .training key candidate (.saved own previous promoted) →
              previous.map (·.1) = some k := by
        intro k d key hget hcrowns
        obtain ⟨m, hcommitted, _, hchampion⟩ := crowns_iff.mp hcrowns
        obtain ⟨hmem, rfl⟩ := Table.get?_eq_some.mp hget
        have hcell := List.all_eq_true.mp hall d hmem
        simp only [hcommitted, Option.any_some, hchampion, decide_true, Bool.not_true,
          Bool.false_or, Bool.and_eq_true, beq_iff_eq] at hcell
        refine ⟨⟨hcell.1.1, hcell.1.2⟩, ?_⟩
        intro key candidate own previous promoted hprocess
        have hprevious := hcell.2
        rw [hprocess] at hprevious
        exact beq_iff_eq.mp hprevious
      constructor
      · intro own c m key _ _ _ _ k d hget hcrowns
        exact (hrow k d key hget hcrowns).1
      · split
        · next key candidate own previous hprocess =>
          intro k c m hget _ hcrowns
          exact Or.inl ((hrow k c key hget hcrowns).2 _ _ _ _ _ hprocess)
        · trivial
  | _ => exact trivial

/-- A second training after the first has ended takes its place. -/
theorem retrained_one_champion :
    Machine.RunIf.Always (registry .ascii) OneChampion unregistered
      (training 0 (trained .rf 1 1) ++ [.advance 0] ++ training 1 (trained .xgb 2 2) ++
        [.advance 1, .advance 1]) := by
  have hsome : ((registry .ascii).execIf (fun s a => careful s a = true) unregistered
      (training 0 (trained .rf 1 1) ++ [.advance 0] ++ training 1 (trained .xgb 2 2) ++
        [.advance 1, .advance 1])).isSome = true := by
    decide +kernel
  obtain ⟨t, ht⟩ := Machine.exists_runIf hsome
  have hguarded := ht.mono fun _ _ => arbitrated_of_careful
  exact ((one_champion_iff rests_unregistered oneChampion_unregistered
    (ht.mono fun _ _ _ => trivial)).mpr hguarded).1

end AlgoBot.AiEngine
