import AlgoBot.Brokers.Positions

/-!
# Settlements that are still to be found out

`BrokerPositionSyncService.synchronize`, one call after the other. A position that
has left the portfolio is looked up once more for its final record, and whatever is
not found then is marked as unknown by the snapshot that is persisted.

`settlement_kept_iff`: positions that are absent and not closed stay candidates for
the lookup exactly if every call that persists its snapshot has found the final
record of each of them, and every call that fails before leaves them as the next one
selects them. `settlement_lost` is a single lookup that fails.
-/

namespace AlgoBot.Brokers

open AlgoBot.Core AlgoBot.Python

/-! ## `synchronize` -/

/-- A row with its contract id. -/
abbrev Row := Σ _ : String, Position

/-- The order in which a query returns rows. It depends on columns that are left out. -/
structure QueryOrder where
  sort : List Row → List Row
  perm : ∀ rows, (sort rows).Perm rows

/-- How `fetch_final` ends: a record, nothing, or an exception that ends the call. -/
inductive Lookup where
  | returns (v : Value)
  | nothing
  | raises

/-- A call of `synchronize`: the portfolio, the order of the query, the lookups, and whether the
transaction at the end commits. -/
structure Sync where
  records : List Value
  order : QueryOrder
  lookup : String → Lookup
  commits : Bool

/-- `status__in=["open", "active", "pending"]`, with a contract id that the snapshot does not
have. -/
def selected (ids : List String) (r : Row) : Bool :=
  ["open", "active", "pending"].contains r.2.status && r.1 != "" && !ids.contains r.1

/-- `stale_ids`, at most a hundred. -/
def candidates (order : QueryOrder) (positions : Positions) (ids : List String) : List String :=
  ((order.sort (positions.entries.filter (selected ids))).map Sigma.fst).take 100

/-- A final record that `synchronize` keeps. -/
def finalRecord (h : Host) : Lookup → Option Observed
  | .returns v =>
      (normalizeBrokerPosition h v).filter fun o =>
        ["closed", "expired", "settled", "won", "lost"].contains o.status
  | _ => none

def Sync.normalized (h : Host) (call : Sync) : List Observed :=
  call.records.filterMap (normalizeBrokerPosition h)

/-- `current_ids`. -/
def Sync.ids (h : Host) (call : Sync) : List String :=
  (call.normalized h).map Observed.contract_id

/-- The contracts the call looks up. -/
def Sync.staleIds (h : Host) (call : Sync) (positions : Positions) : List String :=
  candidates call.order positions (call.ids h)

/-- The call ends with an exception, and nothing is persisted. -/
def Sync.fails (h : Host) (call : Sync) (positions : Positions) : Bool :=
  !call.commits || (call.staleIds h positions).any fun c =>
    match call.lookup c with
    | .raises => true
    | _ => false

/-- The final records that go into the snapshot. -/
def Sync.finals (h : Host) (call : Sync) (positions : Positions) : List Observed :=
  (call.staleIds h positions).filterMap fun c => finalRecord h (call.lookup c)

def synchronize (h : Host) (s : Ledger) (call : Sync) : Ledger :=
  if call.fails h s.positions then s
  else persistSnapshot h s (call.normalized h ++ call.finals h s.positions) true

/-- Calls one after the other. -/
def synchronizer (h : Host) : Machine Ledger Sync := ⟨fun s call => some (synchronize h s call)⟩

def synchronizeAll (h : Host) (s : Ledger) (calls : List Sync) : Ledger :=
  calls.foldl (synchronize h) s

/-! ## What is to be shown -/

/-- Every position that is not closed and not among `ids` is a candidate of the next call, as long
as the portfolio does not list it again. -/
def Awaited (h : Host) (positions : Positions) (ids : List String) : Prop :=
  ∀ c p, positions.lookup c = some p → c ∉ ids → terminal h p.status = false →
    ∀ order next, c ∉ next → c ∈ candidates order positions next

/-- After every call, the positions that were absent from its portfolio are awaited. -/
def NothingLost (h : Host) (s : Ledger) (calls : List Sync) : Prop :=
  ∀ before call rest, calls = before ++ call :: rest →
    Awaited h (synchronizeAll h s (before ++ [call])).positions (call.ids h)

/-- The call has found out about every absent position that is not closed, or, where it fails, these
positions have a status that is looked for and are not too many. -/
def FindsOut (h : Host) (s : Ledger) (call : Sync) : Prop :=
  ∀ c p, s.positions.lookup c = some p → c ∉ call.ids h → terminal h p.status = false →
    if call.fails h s.positions then
      selected [] ⟨c, p⟩ = true ∧ (s.positions.entries.filter (selected [])).length ≤ 100
    else
      ∃ d ∈ call.staleIds h s.positions, ∃ o, finalRecord h (call.lookup d) = some o ∧
        o.contract_id = c

section Steps

variable {h : TextHost} {s t : Ledger} {call : Sync} {c : String} {p : Position}
  {positions : Positions} {ids : List String}

/-! ## Candidates -/

theorem mem_entries_of_lookup (hp : positions.lookup c = some p) :
    (⟨c, p⟩ : Row) ∈ positions.entries := List.of_mem_dlookup hp

/-- A candidate is a row that is selected. -/
theorem selected_of_candidate {order : QueryOrder} (hp : positions.lookup c = some p)
    (hc : c ∈ candidates order positions ids) : selected ids ⟨c, p⟩ = true := by
  have hmem := List.mem_of_mem_take hc
  rcases List.mem_map.mp hmem with ⟨⟨c', p'⟩, hrow, rfl⟩
  have hrow := (order.perm _).mem_iff.mp hrow
  rw [List.mem_filter] at hrow
  -- the contract id determines the row
  have hp' := List.mem_dlookup positions.nodupKeys hrow.1
  have hsame : p' = p := Option.some.inj (Option.mem_def.mp hp' ▸ hp)
  rw [← hsame]
  exact hrow.2

theorem candidate_of_few {order : QueryOrder} (hp : positions.lookup c = some p)
    (hsel : selected ids ⟨c, p⟩ = true)
    (hfew : (positions.entries.filter (selected ids)).length ≤ 100) :
    c ∈ candidates order positions ids := by
  have hlen : ((order.sort (positions.entries.filter (selected ids))).map Sigma.fst).length ≤
      100 := by
    rw [List.length_map, (order.perm _).length_eq]
    exact hfew
  rw [candidates, List.take_of_length_le hlen]
  refine List.mem_map.mpr ⟨⟨c, p⟩, (order.perm _).mem_iff.mpr ?_, rfl⟩
  exact List.mem_filter.mpr ⟨mem_entries_of_lookup hp, hsel⟩

/-- The order that returns the row of a contract last. -/
def lastOrder (c : String) : QueryOrder where
  sort rows := rows.filter (fun r => r.1 != c) ++ rows.filter fun r => !(r.1 != c)
  perm rows := List.filter_append_perm _ rows

/-- The row of a contract is at most one. -/
theorem length_le_filter_ne {rows : List Row} (hkeys : rows.NodupKeys) (c : String) :
    rows.length ≤ (rows.filter fun r => r.1 != c).length + 1 := by
  induction rows with
  | nil => simp
  | cons r rows ih =>
    rw [List.nodupKeys_cons] at hkeys
    have ih := ih hkeys.2
    by_cases hr : r.1 = c
    · subst hr
      have hall : rows.filter (fun q => q.1 != r.1) = rows := by
        rw [List.filter_eq_self]
        intro q hq
        have hne : q.1 ≠ r.1 := by
          intro heq
          exact hkeys.1 (heq ▸ List.mem_map_of_mem hq)
        simpa using hne
      simp [hall]
    · have hkeep : (r.1 != c) = true := by simpa using hr
      simp only [List.filter_cons, hkeep, if_true, List.length_cons]
      omega

/-- Where more than a hundred rows are selected, any of them may be left out. -/
theorem few_of_candidate (hc : c ∈ candidates (lastOrder c) positions ids) :
    (positions.entries.filter (selected ids)).length ≤ 100 := by
  have hkeys : (positions.entries.filter (selected ids)).NodupKeys :=
    positions.nodupKeys.sublist List.filter_sublist
  by_contra hmany
  have hlen := length_le_filter_ne hkeys c
  -- the other rows fill the hundred
  have hothers : 100 ≤
      (((positions.entries.filter (selected ids)).filter fun r => r.1 != c).map
        Sigma.fst).length := by
    rw [List.length_map]
    omega
  rw [candidates, lastOrder, List.map_append, List.take_append_of_le_length hothers] at hc
  rcases List.mem_map.mp (List.mem_of_mem_take hc) with ⟨r, hr, hrc⟩
  rw [List.mem_filter] at hr
  simp [hrc] at hr

theorem selected_of_selected {r : Row} (hsel : selected ids r = true) : selected [] r = true := by
  simp only [selected, Bool.and_eq_true] at hsel ⊢
  exact ⟨hsel.1, by simp⟩

theorem selected_of_not_mem (hsel : selected [] ⟨c, p⟩ = true) (hc : c ∉ ids) :
    selected ids ⟨c, p⟩ = true := by
  simp only [selected, Bool.and_eq_true] at hsel ⊢
  exact ⟨hsel.1, by simpa using hc⟩

/-- The rows of an account are awaited whatever comes next if they are few and selected. -/
theorem candidate_of_selected {order : QueryOrder} (hp : positions.lookup c = some p)
    (hsel : selected [] ⟨c, p⟩ = true)
    (hfew : (positions.entries.filter (selected [])).length ≤ 100) (hc : c ∉ ids) :
    c ∈ candidates order positions ids := by
  refine candidate_of_few hp (selected_of_not_mem hsel hc) (le_trans ?_ hfew)
  rw [← List.countP_eq_length_filter, ← List.countP_eq_length_filter]
  exact List.countP_mono_left fun r _ => selected_of_selected

/-! ## The snapshot that is persisted -/

/-- A row that a full snapshot does not mention is no candidate afterwards, unless it is closed. -/
theorem not_selected_swept (hc : c ∉ ids) : selected [] ⟨c, sweptPosition ids c p⟩ = false := by
  have hunknown : ["open", "active", "pending"].contains "unknown" = false := by decide
  have hsub : ∀ w, ["open", "active", "pending"].contains w = true →
      openStatuses.contains w = true := by
    intro w hw
    simp only [List.contains_iff_mem, openStatuses, List.mem_cons, List.not_mem_nil] at hw ⊢
    tauto
  have hids : ids.contains c = false := by simpa using hc
  unfold sweptPosition
  split
  · simp only [selected, hunknown, Bool.false_and]
  · next hkeep =>
    by_cases hsel : ["open", "active", "pending"].contains p.status = true
    · -- only the empty contract id is left out by the update, and by the query as well
      simp only [hsub _ hsel, hids, Bool.true_and, Bool.not_false, Bool.and_true] at hkeep
      simp only [selected, hkeep, Bool.and_false, Bool.false_and]
    · simp only [selected, hsel, Bool.false_and]

theorem mem_finals {o : Observed} : o ∈ call.finals h.toHost positions ↔
    ∃ d ∈ call.staleIds h.toHost positions, finalRecord h.toHost (call.lookup d) = some o :=
  List.mem_filterMap

theorem terminal_final {v : Lookup} {o : Observed} (ho : finalRecord h.toHost v = some o) :
    terminal h.toHost o.status = true := by
  cases v with
  | returns v =>
    simp only [finalRecord, Option.filter_eq_some_iff] at ho
    refine terminal_of_mem h ?_
    have hmem := List.contains_iff_mem.mp ho.2
    simp only [terminal_statuses, List.mem_cons, List.not_mem_nil] at hmem ⊢
    tauto
  | nothing => cases ho
  | raises => cases ho

/-- What a call that persists its snapshot leaves of a contract that is not in it. -/
theorem lookup_synchronize (hok : call.fails h.toHost s.positions = false)
    (hc : c ∉ (call.normalized h.toHost ++ call.finals h.toHost s.positions).map
      Observed.contract_id) :
    (synchronize h.toHost s call).positions.lookup c =
      (s.positions.lookup c).map (sweptPosition
        ((call.normalized h.toHost ++ call.finals h.toHost s.positions).map
          Observed.contract_id) c) := by
  simp only [synchronize, hok, Bool.false_eq_true, if_false, persistSnapshot, if_true,
    Ledger.sweep, lookup_sweep]
  rw [lookup_observeAll_of_not_mem h.toHost s hc]

/-- An absent contract with a final record is closed by the call. -/
theorem terminal_synchronize (hok : call.fails h.toHost s.positions = false)
    (hids : c ∉ call.ids h.toHost)
    (hc : c ∈ (call.normalized h.toHost ++ call.finals h.toHost s.positions).map
      Observed.contract_id)
    (hp : (synchronize h.toHost s call).positions.lookup c = some p) :
    terminal h.toHost p.status = true := by
  rcases lookup_observeAll_of_mem h.toHost s hc with ⟨o, ho, hid, hrow⟩
  have hfinal : o ∈ call.finals h.toHost s.positions := by
    rcases List.mem_append.mp ho with ho | ho
    · exact absurd (hid ▸ List.mem_map_of_mem ho) hids
    · exact ho
  rcases mem_finals.mp hfinal with ⟨d, _, hd⟩
  have hterm : terminal h.toHost o.position.status = true := terminal_final hd
  simp only [synchronize, hok, Bool.false_eq_true, if_false, persistSnapshot, if_true,
    Ledger.sweep, lookup_sweep] at hp
  rw [hrow, Option.map_some, Option.some.injEq] at hp
  rw [← hp, terminal_swept]
  exact hterm

/-! ## One call -/

/-- A call that fails leaves the absent positions awaited exactly if they were. -/
theorem awaited_of_fails (hfail : call.fails h.toHost s.positions = true) :
    Awaited h.toHost (synchronize h.toHost s call).positions (call.ids h.toHost) ↔
      FindsOut h.toHost s call := by
  have hsame : synchronize h.toHost s call = s := by
    rw [synchronize, if_pos hfail]
  rw [hsame]
  constructor
  · intro hawait c p hp hids hterm
    rw [if_pos hfail]
    have hc := hawait c p hp hids hterm (lastOrder c) [] List.not_mem_nil
    exact ⟨selected_of_candidate hp hc, few_of_candidate hc⟩
  · intro hfinds c p hp hids hterm order next hnext
    have hfew := hfinds c p hp hids hterm
    rw [if_pos hfail] at hfew
    exact candidate_of_selected hp hfew.1 hfew.2 hnext

/-- A call that persists its snapshot leaves the absent positions awaited exactly if it has found a
final record of each. -/
theorem awaited_of_persists (hok : call.fails h.toHost s.positions = false) :
    Awaited h.toHost (synchronize h.toHost s call).positions (call.ids h.toHost) ↔
      FindsOut h.toHost s call := by
  have hmem : ∀ c, c ∉ call.ids h.toHost →
      (c ∈ (call.normalized h.toHost ++ call.finals h.toHost s.positions).map
        Observed.contract_id ↔
      ∃ d ∈ call.staleIds h.toHost s.positions, ∃ o,
        finalRecord h.toHost (call.lookup d) = some o ∧ o.contract_id = c) := by
    intro c hids
    have hportfolio : c ∉ (call.normalized h.toHost).map Observed.contract_id := hids
    rw [List.map_append, List.mem_append, or_iff_right hportfolio, List.mem_map]
    constructor
    · rintro ⟨o, ho, hid⟩
      rcases mem_finals.mp ho with ⟨d, hd, hrecord⟩
      exact ⟨d, hd, o, hrecord, hid⟩
    · rintro ⟨d, hd, o, hrecord, hid⟩
      exact ⟨o, mem_finals.mpr ⟨d, hd, hrecord⟩, hid⟩
  constructor
  · intro hawait c p hp hids hterm
    rw [if_neg (by simp [hok]), ← hmem c hids]
    by_contra hmissing
    have hrow := lookup_synchronize hok hmissing
    rw [hp, Option.map_some] at hrow
    -- the row is still there, but nobody asks for it
    have hc := hawait c _ hrow hids (by rwa [terminal_swept]) (lastOrder c) [] List.not_mem_nil
    have hsel := selected_of_candidate hrow hc
    rw [not_selected_swept hmissing] at hsel
    cases hsel
  · intro hfinds c p hp hids hterm
    by_cases hc : c ∈ (call.normalized h.toHost ++ call.finals h.toHost s.positions).map
        Observed.contract_id
    · rw [terminal_synchronize hok hids hc hp] at hterm
      cases hterm
    · have hrow := lookup_synchronize hok hc
      rw [hp] at hrow
      rcases Option.map_eq_some_iff.mp hrow.symm with ⟨q, hq, hswept⟩
      rw [← hswept, terminal_swept] at hterm
      have hfound := hfinds c q hq hids hterm
      rw [if_neg (by simp [hok]), ← hmem c hids] at hfound
      exact absurd hfound hc

theorem awaited_iff :
    Awaited h.toHost (synchronize h.toHost s call).positions (call.ids h.toHost) ↔
      FindsOut h.toHost s call := by
  cases hf : call.fails h.toHost s.positions with
  | true => exact awaited_of_fails hf
  | false => exact awaited_of_persists hf

end Steps

/-! ## Any number of calls -/

theorem run_synchronizer {h : Host} {s t : Ledger} {calls : List Sync} :
    (synchronizer h).Run s calls t ↔ t = synchronizeAll h s calls := by
  have hnext : ∀ s call, (synchronizer h).next s call = some (synchronize h s call) := by
    intro s call
    rfl
  exact Machine.run_iff_foldl hnext

/-- No settlement is lost exactly if every call finds out about the absent positions, or fails and
leaves them as the next call looks for them. -/
theorem settlement_kept_iff (h : TextHost) (s : Ledger) (calls : List Sync) :
    NothingLost h.toHost s calls ↔
      (synchronizer h.toHost).RunIf (FindsOut h.toHost) s calls
        (synchronizeAll h.toHost s calls) := by
  rw [Machine.RunIf.iff_forall_prefix (run_synchronizer.mpr rfl)]
  have hlast : ∀ before call, synchronizeAll h.toHost s (before ++ [call]) =
      synchronize h.toHost (synchronizeAll h.toHost s before) call := by
    intro before call
    rw [synchronizeAll, List.foldl_append]
    rfl
  constructor
  · intro hnothing before call rest t hcalls ht
    rw [run_synchronizer.mp ht, ← awaited_iff, ← hlast]
    exact hnothing before call rest hcalls
  · intro hfinds before call rest hcalls
    rw [hlast, awaited_iff]
    exact hfinds before call rest _ hcalls (run_synchronizer.mpr rfl)

/-- One open position. -/
def openPosition : Ledger where
  positions := AList.singleton "5" ⟨"open", none⟩
  scheduled _ := 0

/-- An empty portfolio, and the lookup ends with an exception that is caught. -/
def failedLookup : Sync where
  records := []
  order := lastOrder "5"
  lookup _ := .nothing
  commits := true

/-- The lookup fails once, and the position is never looked up again. -/
theorem settlement_lost : ¬ NothingLost Host.ascii openPosition [failedLookup] := by
  have hrow : (synchronizeAll Host.ascii openPosition [failedLookup]).positions.lookup "5" =
      some ⟨"unknown", none⟩ := by decide +kernel
  have hterm : terminal Host.ascii "unknown" = false := by decide +kernel
  have hids : "5" ∉ failedLookup.ids Host.ascii := by decide +kernel
  have hnot : "5" ∉ candidates (lastOrder "5")
      (synchronizeAll Host.ascii openPosition [failedLookup]).positions [] := by decide +kernel
  intro hnothing
  exact hnot (hnothing [] failedLookup [] rfl "5" _ hrow hids hterm (lastOrder "5") []
    List.not_mem_nil)

end AlgoBot.Brokers
