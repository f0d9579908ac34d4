import AlgoBot.Brokers.Positions
import AlgoBot.Execution.Models
import AlgoBot.Execution.TradeHistory

/-!
# Four readings of a broker contract

A record of a contract ends in the position table, in the order it belongs to, in the
event that is broadcast to the browser and in the trade history, each time through a
function of its own that gives it a status.

* `readings_agree_iff`: when the four give it a terminal status alike, or alike one that
  is not terminal.
* `expired_read_as_open`: a record they read differently.
-/

namespace AlgoBot.Brokers

open AlgoBot.Core AlgoBot.Python

/-! ## The readings -/

/-- `_normalize_contract`. -/
def normalizeContract (contract : Dict) : Dict :=
  [("contract_id", contract.get "contract_id"),
   ("symbol", contract.firstOf ["underlying_symbol", "symbol"]),
   ("contract_type", contract.get "contract_type"),
   ("buy_price", contract.get "buy_price"),
   ("bid_price", contract.get "bid_price"),
   ("profit", contract.get "profit"),
   ("status", (contract.get "status").or
     (.str (if (contract.get "is_sold").truthy then "closed" else "open"))),
   ("payout", contract.get "payout"),
   ("entry_spot", contract.get "entry_spot"),
   ("current_spot", contract.get "current_spot"),
   ("date_start", contract.get "date_start"),
   ("date_expiry", contract.get "date_expiry"),
   ("is_sold", contract.get "is_sold"),
   ("is_expired", contract.get "is_expired"),
   ("status_display", contract.get "status_display")]

/-- A status that ends a contract, `terminal_statuses` and `CLOSED_HISTORY_STATUSES`. -/
def isTerminal (status : String) : Bool := terminal_statuses.contains status

variable (h : Host) (epoch : Value → Option ℚ) (record : Dict)

/-- Whether the position of a record is terminal; a record without a contract id has none. -/
def positionTerminal : Option Bool :=
  (normalizeBrokerPosition h (.dict record)).map fun o => isTerminal o.status

/-- Whether the event is terminal that the realtime sync makes of a record. -/
def eventTerminal : Option Bool :=
  (Execution.normalizeExecutionEvent h [("proposal_open_contract", .dict record)]).map fun ev =>
    isTerminal ev.status

/-- Whether the broadcast contract is terminal. -/
def realtimeTerminal : Bool :=
  isTerminal (h.lower ((Dict.get (normalizeContract record) "status").toStr h))

/-- Whether the row of the trade history is terminal. -/
def historyTerminal (tx : Value) : Bool :=
  isTerminal (TradeHistory.normalizeDerivTrade ⟨h, epoch, fun _ => true⟩ tx (.dict record)).status

/-- All four read the record as terminal, or all four as open. -/
def Agree (tx : Value) : Prop :=
  ∃ b, positionTerminal h record = some b ∧ eventTerminal h record = some b ∧
    realtimeTerminal h record = b ∧ historyTerminal h epoch record tx = b

/-! ## What the record says -/

def isSold : Bool := (record.get "is_sold").truthy

def isExpired : Bool := (record.get "is_expired").truthy

/-- The record has a status. -/
def hasStatus : Bool := (record.get "status").truthy

/-- Its word, in lower case. -/
def statusWord : String := h.lower ((record.get "status").toStr h)

/-- The trade history goes by `status_display`. -/
def usesDisplay : Bool :=
  TradeHistory.isBlank (record.get "status") && (record.get "status_display").truthy

def displayWord : String := h.lower ((record.get "status_display").toStr h)

/-- The records that are read alike. With a status, its word is `closed`, or a flag goes with
another terminal word, or there is neither a flag nor a terminal word. Without one, a contract
that expired is also sold, and a status that is displayed says so too. -/
def Alike : Prop :=
  TradeHistory.isBlank (record.get "contract_id") = false ∧
    if hasStatus record then
      statusWord h record = "closed" ∨
        (isTerminal (statusWord h record) = true ∧ (isSold record || isExpired record) = true) ∨
        (isTerminal (strip (statusWord h record)) = false ∧
          (isSold record || isExpired record) = false)
    else
      (isExpired record = true → isSold record = true) ∧
        (usesDisplay record = true → isTerminal (displayWord h record) = isSold record)

/-! ## What each reading comes to -/

section Readings

variable {h : CaseHost} {epoch : Value → Option ℚ} {record : Dict} {tx : Value}

/-- The terminal words have no blanks around them. -/
theorem strip_terminal {w : String} (hw : isTerminal w = true) : strip w = w := by
  have hstrip : ∀ w ∈ terminal_statuses, strip w = w := by decide +kernel
  exact hstrip w (List.contains_iff_mem.mp hw)

/-- The words of the readings themselves are in lower case. -/
theorem lower_own {w : String} (hw : w ∈ ["open", "closed", "sold", "expired", "unknown", ""]) :
    h.lower w = w := by
  have hwords : inLowerCase ["open", "closed", "sold", "expired", "unknown", ""] = true := by
    decide +kernel
  exact h.lower_of_mem hwords hw

/-- The word a position goes by. -/
theorem position_word : h.lower (strip (textOr h.toHost (record.get "status") "")) =
    if hasStatus record then strip (statusWord h.toHost record) else "" := by
  rw [h.lower_strip]
  unfold textOr Value.or hasStatus statusWord
  split
  · rfl
  · have hempty : h.lower "" = "" := lower_own (by simp)
    rw [Value.toStr_str, hempty]
    decide +kernel

theorem terminal_recordStatus :
    isTerminal (recordStatus h.toHost record) = ((isSold record || isExpired record) ||
      (hasStatus record && isTerminal (strip (statusWord h.toHost record)))) := by
  have hclosed : isTerminal "closed" = true := by decide
  have hexpired : isTerminal "expired" = true := by decide
  have hopen : isTerminal "open" = false := by decide
  have hempty : isTerminal "" = false := by decide
  unfold recordStatus
  rw [position_word]
  cases hs : (record.get "is_sold").truthy with
  | true => simp [isSold, hs, hclosed]
  | false =>
    cases he : (record.get "is_expired").truthy with
    | true => simp [isExpired, he, hexpired]
    | false =>
      cases hg : hasStatus record with
      | false => simp [isSold, isExpired, hs, he, hopen]
      | true =>
        by_cases hw : strip (statusWord h.toHost record) = ""
        · simp [isSold, isExpired, hs, he, hw, hopen, hempty]
        · simp [isSold, isExpired, hs, he, hw]

/-- A record is read if it has a contract id. -/
theorem positionTerminal_eq : positionTerminal h.toHost record =
    if TradeHistory.isBlank (record.get "contract_id") then none
    else some ((isSold record || isExpired record) ||
      (hasStatus record && isTerminal (strip (statusWord h.toHost record)))) := by
  rw [← terminal_recordStatus]
  simp only [positionTerminal, normalizeBrokerPosition]
  split
  · next hnone => simp [hnone, TradeHistory.isBlank]
  · next hempty => simp [hempty, TradeHistory.isBlank]
  · next hnone hempty =>
    have hid : TradeHistory.isBlank (record.get "contract_id") = false := by
      cases hv : record.get "contract_id" with
      | none => exact absurd hv hnone
      | str s =>
        have hs : s ≠ "" := by
          rintro rfl
          exact hempty hv
        simpa [TradeHistory.isBlank] using hs
      | _ => rfl
    simp [hid]

/-- An event keeps no terminal word but `closed`. -/
theorem eventTerminal_eq (hne : record ≠ []) :
    eventTerminal h.toHost record = some ((isSold record || isExpired record) ||
      (hasStatus record && statusWord h.toHost record == "closed")) := by
  -- the states that are kept, and the terminal words, have only this one in common
  have hkept : ∀ w, isTerminal (if w ∈ Execution.EXECUTION_STATES then w else "unknown") =
      (w == "closed") := by
    intro w
    split
    · next hw =>
      have hone : ∀ w ∈ Execution.EXECUTION_STATES, isTerminal w = (w == "closed") := by decide
      exact hone w hw
    · next hw =>
      have hne : w ≠ "closed" := by
        rintro rfl
        exact hw (by decide)
      have hunknown : isTerminal "unknown" = false := by decide
      simp [hne, hunknown]
  have hcontract : Execution.orEmpty (Dict.firstOf [("proposal_open_contract", .dict record)]
      ["proposal_open_contract", "contract"]) = some record := by
    have htruthy : (Value.dict record).truthy = true := by
      cases record with
      | nil => exact absurd rfl hne
      | cons kv record => rfl
    show Execution.orEmpty ((Value.dict record).or _) = some record
    rw [Value.or, if_pos htruthy]
    rfl
  have htx : Execution.orEmpty (Dict.get [("proposal_open_contract", .dict record)]
      "transaction") = some [] := rfl
  have hpayload : Dict.get [("proposal_open_contract", .dict record)] "status" = .none := rfl
  have hword : h.lower (textOr h.toHost ((record.get "status").or .none) "unknown") =
      if hasStatus record then statusWord h.toHost record else "unknown" := by
    unfold textOr hasStatus statusWord
    cases hg : (record.get "status").truthy with
    | true => simp [Value.or, hg]
    | false =>
      have hlower : h.lower "unknown" = "unknown" := lower_own (by simp)
      simp only [Value.or, hg, Bool.false_eq_true, if_false]
      exact hlower
  unfold eventTerminal Execution.normalizeExecutionEvent
  simp only [hcontract, htx, hpayload, hword, Option.bind_eq_bind, Option.bind_some]
  show some (isTerminal _) = _
  rw [hkept]
  cases hs : (record.get "is_sold").truthy <;> cases he : (record.get "is_expired").truthy <;>
    cases hg : hasStatus record <;> simp [isSold, isExpired, hs, he]

theorem realtimeTerminal_eq : realtimeTerminal h.toHost record =
    if hasStatus record then isTerminal (statusWord h.toHost record) else isSold record := by
  have hclosed : h.lower "closed" = "closed" := lower_own (by simp)
  have hopen : h.lower "open" = "open" := lower_own (by simp)
  show isTerminal (h.lower (((record.get "status").or _).toStr h.toHost)) = _
  unfold Value.or hasStatus statusWord isSold
  cases hg : (record.get "status").truthy with
  | true => rfl
  | false =>
    cases hs : (record.get "is_sold").truthy with
    | true =>
      simp only [Bool.false_eq_true, if_false, if_true, Value.toStr_str, hclosed]
      decide
    | false =>
      simp only [Bool.false_eq_true, if_false, Value.toStr_str, hopen]
      decide

theorem truthy_of_isBlank {v : Value} (hv : TradeHistory.isBlank v = true) : v.truthy = false := by
  cases v with
  | none => rfl
  | str s =>
    have hs : s = "" := by simpa [TradeHistory.isBlank] using hv
    rw [hs]
    rfl
  | _ => cases hv

/-- The word of the trade history's row. -/
theorem statusOf_eq : TradeHistory.statusOf record =
    if hasStatus record then record.get "status"
    else if usesDisplay record then record.get "status_display"
    else .str (if isSold record then "sold" else if isExpired record then "expired"
      else "unknown") := by
  have hflags : ∀ v : Value, v.truthy = false →
      (if v.truthy then v else if (record.get "is_sold").truthy then .str "sold"
        else if (record.get "is_expired").truthy then .str "expired" else .str "unknown") =
      Value.str (if isSold record then "sold" else if isExpired record then "expired"
        else "unknown") := by
    intro v hv
    rw [hv]
    unfold isSold isExpired
    simp only [Bool.false_eq_true, if_false]
    split
    · rfl
    · split <;> rfl
  unfold TradeHistory.statusOf
  simp only [TradeHistory.first, hasStatus, usesDisplay]
  by_cases hb : TradeHistory.isBlank (record.get "status") = true
  · have hg := truthy_of_isBlank hb
    by_cases hblank : TradeHistory.isBlank (record.get "status_display") = true
    · have hd := truthy_of_isBlank hblank
      simp only [hb, hblank, hg, hd, if_true, Bool.true_and, Bool.false_eq_true, if_false]
      exact hflags .none rfl
    · simp only [hb, hblank, hg, if_true, Bool.true_and, Bool.false_eq_true, if_false]
      cases hd : (record.get "status_display").truthy with
      | true => simp
      | false =>
        have hflag := hflags _ hd
        rw [hd] at hflag
        simpa using hflag
  · simp only [hb, Bool.false_eq_true, if_false]
    cases hg : (record.get "status").truthy with
    | true => simp
    | false =>
      have hflag := hflags _ hg
      rw [hg] at hflag
      simpa [hb] using hflag

theorem historyTerminal_eq : historyTerminal h.toHost epoch record tx =
    if hasStatus record then isTerminal (statusWord h.toHost record)
    else if usesDisplay record then isTerminal (displayWord h.toHost record)
    else isSold record || isExpired record := by
  have hsold : h.lower "sold" = "sold" := lower_own (by simp)
  have hexpired : h.lower "expired" = "expired" := lower_own (by simp)
  have hunknown : h.lower "unknown" = "unknown" := lower_own (by simp)
  show isTerminal (h.lower ((TradeHistory.statusOf record).toStr h.toHost)) = _
  rw [statusOf_eq]
  split
  · rfl
  · split
    · rfl
    · rw [Value.toStr_str]
      cases isSold record <;> cases isExpired record <;>
        simp only [Bool.false_eq_true, if_false, if_true, hsold, hexpired, hunknown] <;> decide

/-! ## Agreement -/

/-- The four readings of a record agree exactly if it is one of those that are read alike. -/
theorem readings_agree_iff (h : CaseHost) (epoch : Value → Option ℚ) (record : Dict) (tx : Value) :
    Agree h.toHost epoch record tx ↔ Alike h.toHost record := by
  unfold Agree Alike
  rw [positionTerminal_eq, realtimeTerminal_eq, historyTerminal_eq]
  by_cases hid : TradeHistory.isBlank (record.get "contract_id") = true
  · simp [hid]
  · have hne : record ≠ [] := by
      rintro rfl
      exact hid rfl
    rw [eventTerminal_eq hne]
    have hstrip : isTerminal (statusWord h.toHost record) = true →
        isTerminal (strip (statusWord h.toHost record)) = true := by
      intro hw
      rw [strip_terminal hw, hw]
    cases hasStatus record with
    | false =>
      -- without a status only the flags and the displayed word are read
      cases isSold record <;> cases isExpired record <;> cases usesDisplay record <;>
        simp [hid]
    | true =>
      by_cases hc : statusWord h.toHost record = "closed"
      · have hclosed : isTerminal "closed" = true := by decide
        have htrimmed : isTerminal (strip "closed") = true := by decide +kernel
        simp [hid, hc, hclosed, htrimmed]
      · cases hw : isTerminal (statusWord h.toHost record) with
        | true => simp [hid, hc, hstrip hw]
        | false =>
          cases isTerminal (strip (statusWord h.toHost record)) <;>
            cases isSold record <;> cases isExpired record <;> simp [hid, hc]

/-- A contract that has expired, with a status that is still `open`: the position and the order
see it as terminal, the browser and the trade history as open. -/
theorem expired_read_as_open :
    ¬ Agree CaseHost.ascii.toHost (fun _ => none)
      [("contract_id", .int 7), ("status", .str "open"), ("is_expired", .int 1)] .none := by
  rintro ⟨b, hposition, _, hrealtime, _⟩
  have hterminal : positionTerminal CaseHost.ascii.toHost
      [("contract_id", .int 7), ("status", .str "open"), ("is_expired", .int 1)] = some true := by
    decide +kernel
  have hopen : realtimeTerminal CaseHost.ascii.toHost
      [("contract_id", .int 7), ("status", .str "open"), ("is_expired", .int 1)] = false := by
    decide +kernel
  rw [hterminal] at hposition
  rw [hopen] at hrealtime
  cases hposition
  cases hrealtime

end Readings

end AlgoBot.Brokers
