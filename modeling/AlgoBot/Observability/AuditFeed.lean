import AlgoBot.Core.Merged
import Mathlib.Data.Prod.Lex

/-!
# The audit feed

The dashboard shows the request logs and the events of the application in one feed. It reads the
hundred latest of each, sorts these by their times and shows a hundred.

* `audit_feed_latest`: the feed is the beginning of everything that its reader may see.
-/

namespace AlgoBot.Observability

open AlgoBot.Core

/-! ## Records -/

/-- A row of `StructuredAuditLog`; times are in microseconds. -/
structure AuditLog where
  pk : ℕ
  user_id : Option ℕ
  action : String
  module : String
  resource : String
  timestamp : ℤ

structure AuditEvent where
  pk : ℕ
  actor_id : Option ℕ
  action : String
  resource_type : String
  resource_id : String
  outcome : String
  created_at : ℤ

/-- An entry of the feed. -/
structure Entry where
  id : String
  action : String
  resource_type : String
  resource_id : String
  outcome : String
  created_at : String
  source : String

/-- An entry with its `_sort`. -/
structure Item where
  sort : ℤ
  entry : Entry

/-! ## The feed -/

/-- `order_by("-timestamp", "-id")`. -/
def latest {α : Type} (time : α → ℤ) (pk : α → ℕ) (rows : List α) : List α :=
  rows.insertionSort fun a b => toLex (time b, pk b) ≤ toLex (time a, pk a)

/-- What `filter` and `all` leave of a table; `none` where the feed is empty. -/
def visible {α : Type} (owner : α → Option ℕ) (actor_id : Option ℕ) (include_global : Bool)
    (rows : List α) : Option (List α) :=
  match actor_id with
  | some actor => some (rows.filter fun row => owner row = some actor)
  | none => if include_global then some rows else none

def AuditLog.item (isoformat : ℤ → String) (record : AuditLog) : Item where
  sort := record.timestamp
  entry :=
    { id := "request-" ++ toString record.pk
      action := record.action
      resource_type := record.module
      resource_id := record.resource
      outcome := "recorded"
      created_at := isoformat record.timestamp
      source := "request" }

def AuditEvent.item (isoformat : ℤ → String) (event : AuditEvent) : Item where
  sort := event.created_at
  entry :=
    { id := "event-" ++ toString event.pk
      action := event.action
      resource_type := event.resource_type
      resource_id := event.resource_id
      outcome := event.outcome
      created_at := isoformat event.created_at
      source := "application" }

/-- `items.sort(key=..., reverse=True)`, which keeps the order of items with one key. -/
def sorted (items : List Item) : List Item := items.insertionSort fun a b => b.sort ≤ a.sort

def _audit_feed (isoformat : ℤ → String) (logs : List AuditLog) (events : List AuditEvent)
    (actor_id : Option ℕ) (include_global : Bool) : List Entry :=
  match visible AuditLog.user_id actor_id include_global logs,
      visible AuditEvent.actor_id actor_id include_global events with
  | some request_logs, some app_events =>
    let items :=
      ((latest AuditLog.timestamp AuditLog.pk request_logs).take 100).map
          (AuditLog.item isoformat) ++
        ((latest AuditEvent.created_at AuditEvent.pk app_events).take 100).map
          (AuditEvent.item isoformat)
    ((sorted items).take 100).map Item.entry
  | _, _ => []

/-- What the view of the dashboard asks for: staff sees everything, others see their own. -/
def dashboardAudit (isoformat : ℤ → String) (logs : List AuditLog) (events : List AuditEvent)
    (user : ℕ) (is_staff : Bool) : List Entry :=
  _audit_feed isoformat logs events (if is_staff then none else some user) is_staff

/-! ## What it shows -/

section Feed

variable {isoformat : ℤ → String} {logs : List AuditLog} {events : List AuditEvent} {user : ℕ}
  {is_staff : Bool}

/-- Whether the dashboard of a user may show a row. -/
def mayShow {α : Type} (owner : α → Option ℕ) (user : ℕ) (is_staff : Bool) (row : α) : Bool :=
  is_staff || owner row = some user

theorem visible_eq {α : Type} (owner : α → Option ℕ) (user : ℕ) (is_staff : Bool)
    (rows : List α) :
    visible owner (if is_staff then none else some user) is_staff rows =
      some (rows.filter (mayShow owner user is_staff)) := by
  cases is_staff with
  | true =>
    rw [if_pos rfl, visible, if_pos rfl]
    congr 1
    exact (List.filter_eq_self.mpr fun row _ => rfl).symm
  | false =>
    rw [if_neg Bool.false_ne_true, visible]
    congr 1

/-- The latest rows come in the order of their times. -/
theorem pairwise_latest {α : Type} (time : α → ℤ) (pk : α → ℕ) (rows : List α) :
    (latest time pk rows).Pairwise fun a b => time b ≤ time a := by
  have hsorted : (latest time pk rows).Pairwise
      fun a b => toLex (time b, pk b) ≤ toLex (time a, pk a) :=
    List.pairwise_insertionSort _ rows
  refine hsorted.imp ?_
  intro a b hle
  rcases Prod.Lex.toLex_le_toLex.mp hle with hlt | ⟨heq, _⟩
  · exact hlt.le
  · exact heq.le

/-- All that the dashboard may show, with the request logs first where times are the same. -/
def everything (isoformat : ℤ → String) (logs : List AuditLog) (events : List AuditEvent)
    (user : ℕ) (is_staff : Bool) : List Item :=
  (latest AuditLog.timestamp AuditLog.pk
      (logs.filter (mayShow AuditLog.user_id user is_staff))).map (AuditLog.item isoformat) ++
    (latest AuditEvent.created_at AuditEvent.pk
      (events.filter (mayShow AuditEvent.actor_id user is_staff))).map (AuditEvent.item isoformat)

theorem dashboardAudit_eq : dashboardAudit isoformat logs events user is_staff =
    ((sorted (everything isoformat logs events user is_staff)).take 100).map Item.entry := by
  unfold dashboardAudit _audit_feed
  rw [visible_eq, visible_eq]
  dsimp only
  congr 1
  rw [List.map_take, List.map_take]
  unfold sorted everything
  rw [Merged.take_insertionSort]
  · exact List.pairwise_map.mpr (pairwise_latest _ _ _)
  · exact List.pairwise_map.mpr (pairwise_latest _ _ _)

/-- Although only the hundred latest records of each table are read, the dashboard shows the
hundred latest of both tables together, in the order a stable sort of all of them gives. It shows
nothing but what its reader may see, and leaves something of that out only where it shows a hundred
others, none of them older. -/
theorem audit_feed_latest (isoformat : ℤ → String) (logs : List AuditLog)
    (events : List AuditEvent) (user : ℕ) (is_staff : Bool) :
    ∃ shown : List Item,
      dashboardAudit isoformat logs events user is_staff = shown.map Item.entry ∧
      shown = (sorted (everything isoformat logs events user is_staff)).take 100 ∧
      (∀ item ∈ shown, item ∈ everything isoformat logs events user is_staff) ∧
      ∀ item ∈ everything isoformat logs events user is_staff, item ∈ shown ∨
        shown.length = 100 ∧ ∀ other ∈ shown, item.sort ≤ other.sort := by
  refine ⟨_, dashboardAudit_eq, rfl, ?_, ?_⟩
  · intro item hitem
    exact (List.mem_insertionSort _).mp (List.mem_of_mem_take hitem)
  · intro item hitem
    exact Merged.mem_take_insertionSort hitem 100

end Feed

end AlgoBot.Observability
