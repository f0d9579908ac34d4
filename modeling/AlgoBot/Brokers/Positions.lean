import Mathlib.Data.List.AList
import AlgoBot.Core.Machine
import AlgoBot.Python.Value

/-!
# Positions of an account

`_persist_snapshot_sync` and what it is given: the broker's records, normalised.
The position sync and the realtime sync both write the rows of an account through
it, one record after the other under a lock on the row. A full snapshot marks the
rows it does not mention as unknown.

A record that settles a position schedules its `TradeClosed` event, which is
published after the commit if the row then has a profit.
-/

namespace AlgoBot.Brokers

open AlgoBot.Core AlgoBot.Python

/-- A row of the account, under its contract id. -/
structure Position where
  status : String
  profit : Option Dec
deriving DecidableEq, Repr

/-- The rows of an account; the contract id is unique. -/
abbrev Positions := AList fun _ : String => Position

/-- What `normalize_broker_position` keeps for the row. -/
structure Observed where
  contract_id : String
  status : String
  profit : Option Dec

/-- `_decimal`. -/
def decimalOf (h : Host) (v : Value) : Option Dec :=
  match v with
  | .none => none
  | .str "" => none
  | v => decimalOfText h (v.toStr h)

/-- The status of a record, from its text and its flags. -/
def recordStatus (h : Host) (record : Dict) : String :=
  let status := h.lower (strip (textOr h (record.get "status") ""))
  if (record.get "is_sold").truthy then "closed"
  else if (record.get "is_expired").truthy then "expired"
  else if status = "" then "open"
  else status

/-- `normalize_broker_position`; a record without a contract id is `none`. -/
def normalizeBrokerPosition (h : Host) : Value → Option Observed
  | .dict record =>
      match Dict.get record "contract_id" with
      | .none => none
      | .str "" => none
      | contract_id => some {
          contract_id := contract_id.toStr h
          status := recordStatus h record
          profit := decimalOf h (Dict.get record "profit") }
  | _ => none

/-- `terminal_statuses`. -/
def terminal_statuses : List String := ["closed", "expired", "sold", "settled", "won", "lost"]

/-- `str(status or "").lower() in terminal_statuses`. -/
def terminal (h : Host) (status : String) : Bool := terminal_statuses.contains (h.lower status)

/-- Terminal, with a profit. -/
def Position.settled (h : Host) (p : Position) : Bool := terminal h p.status && p.profit.isSome

/-- The statuses of rows a full snapshot may mark as unknown. -/
def openStatuses : List String := ["open", "active", "pending", "unknown"]

/-- The rows, and the events that are scheduled for each contract. -/
structure Ledger where
  positions : Positions
  scheduled : String → ℕ

/-- The row a record leaves. -/
def Observed.position (o : Observed) : Position := ⟨o.status, o.profit⟩

/-- `transaction.on_commit(...)` is called: the row was there and becomes settled. -/
def schedules (h : Host) (existing : Option Position) (o : Observed) : Bool :=
  match existing with
  | some p => o.position.settled h && (!terminal h p.status || p.profit.isNone)
  | none => false

/-- One record. `seen` is false where the row was inserted between the locked read and the write. -/
def Ledger.observe (h : Host) (s : Ledger) (o : Observed) (seen : Bool) : Ledger where
  positions := s.positions.insert o.contract_id o.position
  scheduled :=
    if schedules h (if seen then s.positions.lookup o.contract_id else none) o then
      Function.update s.scheduled o.contract_id (s.scheduled o.contract_id + 1)
    else s.scheduled

/-- What becomes of a row that a full snapshot with these contracts does not mention. -/
def sweptPosition (ids : List String) (contract_id : String) (p : Position) : Position :=
  if openStatuses.contains p.status && contract_id != "" && !ids.contains contract_id then
    { p with status := "unknown" }
  else p

/-- `stale.update(status="unknown", ...)`. -/
def sweep (positions : Positions) (ids : List String) : Positions where
  entries := positions.entries.map fun e => ⟨e.1, sweptPosition ids e.1 e.2⟩
  nodupKeys := List.NodupKeys.map₂ _ _ positions.nodupKeys

def Ledger.sweep (s : Ledger) (ids : List String) : Ledger :=
  { s with positions := Brokers.sweep s.positions ids }

/-- `_persist_snapshot_sync`. -/
def persistSnapshot (h : Host) (s : Ledger) (normalized : List Observed) (full_snapshot : Bool) :
    Ledger :=
  let s := normalized.foldl (fun s o => s.observe h o true) s
  if full_snapshot then s.sweep (normalized.map Observed.contract_id) else s

/-! ## Rows -/

variable {positions : Positions} {ids : List String} {c : String}

@[simp] theorem lookup_sweep :
    (sweep positions ids).lookup c = (positions.lookup c).map (sweptPosition ids c) :=
  List.dlookup_map₂ c

theorem lookup_observe (h : Host) (s : Ledger) (o : Observed) (seen : Bool) :
    (s.observe h o seen).positions.lookup c =
      if c = o.contract_id then some o.position else s.positions.lookup c := by
  split
  · next hc =>
    subst hc
    exact AList.lookup_insert s.positions
  · next hc => exact AList.lookup_insert_ne hc

/-- A contract that no record is about keeps its row. -/
theorem lookup_observeAll_of_not_mem (h : Host) (s : Ledger) {records : List Observed}
    (hc : c ∉ records.map Observed.contract_id) :
    (records.foldl (fun s o => s.observe h o true) s).positions.lookup c =
      s.positions.lookup c := by
  induction records generalizing s with
  | nil => rfl
  | cons o records ih =>
    simp only [List.map_cons, List.mem_cons, not_or] at hc
    rw [List.foldl_cons, ih _ hc.2, lookup_observe, if_neg hc.1]

/-- A contract that a record is about has the row of one of its records. -/
theorem lookup_observeAll_of_mem (h : Host) (s : Ledger) {records : List Observed}
    (hc : c ∈ records.map Observed.contract_id) :
    ∃ o ∈ records, o.contract_id = c ∧
      (records.foldl (fun s o => s.observe h o true) s).positions.lookup c = some o.position := by
  induction records generalizing s with
  | nil => cases hc
  | cons o records ih =>
    by_cases hlater : c ∈ records.map Observed.contract_id
    · rcases ih (s.observe h o true) hlater with ⟨o', ho', hid, hrow⟩
      exact ⟨o', List.mem_cons_of_mem o ho', hid, hrow⟩
    · have hid : c = o.contract_id := by
        rcases List.mem_cons.mp hc with hid | hid
        · exact hid
        · exact absurd hid hlater
      refine ⟨o, List.mem_cons_self, hid.symm, ?_⟩
      rw [List.foldl_cons, lookup_observeAll_of_not_mem h _ hlater, lookup_observe, if_pos hid]

/-- The words of the two sets are in lower case, so lowering leaves them. -/
theorem lower_word (h : TextHost) {w : String} (hw : w ∈ terminal_statuses ++ openStatuses) :
    h.lower w = w := by
  have hwords : inLowerCase (terminal_statuses ++ openStatuses) = true := by decide +kernel
  exact h.lower_of_mem hwords hw

theorem terminal_of_mem (h : TextHost) {w : String} (hw : w ∈ terminal_statuses) :
    terminal h.toHost w = true := by
  rw [terminal, lower_word h (List.mem_append_left _ hw)]
  exact List.contains_iff_mem.mpr hw

theorem not_terminal_of_open (h : TextHost) {w : String} (hw : w ∈ openStatuses) :
    terminal h.toHost w = false := by
  have hdisjoint : ∀ w ∈ openStatuses, terminal_statuses.contains w = false := by decide
  rw [terminal, lower_word h (List.mem_append_right _ hw)]
  exact hdisjoint w hw

/-- Marking rows as unknown touches no terminal row. -/
theorem sweptPosition_of_terminal (h : TextHost) {p : Position}
    (hp : terminal h.toHost p.status = true) : sweptPosition ids c p = p := by
  unfold sweptPosition
  split
  · next hopen =>
    simp only [Bool.and_eq_true, List.contains_iff_mem] at hopen
    rw [not_terminal_of_open h hopen.1.1] at hp
    cases hp
  · rfl

/-- A row that is swept stays as unsettled as it was. -/
theorem terminal_swept (h : TextHost) (p : Position) :
    terminal h.toHost (sweptPosition ids c p).status = terminal h.toHost p.status := by
  unfold sweptPosition
  split
  · next hopen =>
    simp only [Bool.and_eq_true, List.contains_iff_mem] at hopen
    have hunknown : "unknown" ∈ openStatuses := by decide
    rw [not_terminal_of_open h hopen.1.1]
    exact not_terminal_of_open h hunknown
  · rfl

end AlgoBot.Brokers
