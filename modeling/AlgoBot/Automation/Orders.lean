import AlgoBot.Automation.Models
import AlgoBot.Brokers.Submit

/-!
# The client order ids of an order node

`ActionService._execute_trade` names its order after the workflow, the node and what
has triggered the execution: an event, a scheduled task, or nothing but the
execution itself. `ExecutionEngine.submit` answers with the order it finds under
the name.

`orders_apart_iff`: two triggers of a node have different names, and neither is
answered with the order of the other, exactly if the node has no name of its own
and the ids of the triggers differ where the name is not cut off.
-/

namespace AlgoBot.Automation

open AlgoBot.Core AlgoBot.Python AlgoBot.Brokers

/-! ## What an execution is triggered with -/

/-- `event_payload` of `AutomationEventService.publish`. -/
def eventPayload (pk : ℕ+) (payload : Dict) : Dict :=
  payload.merge
    [("_automation_event_id", .int pk),
      ("_automation_depth", payload.getD "automation_depth" (.int 0))]

/-- What the `execute` view hands over. -/
def requestPayload (pk : ℕ+) (payload : Dict) : Dict :=
  payload.merge [("_automation_event_id", .int pk)]

/-- What `process_due_scheduled_tasks` hands over. -/
def scheduledPayload (pk : ℕ+) (scheduled_at : String) : Dict :=
  [("event", .str "time_schedule"), ("scheduled_task_id", .int pk),
    ("scheduled_at", .str scheduled_at)]

/-- A trigger of a workflow. A manual execution may be given any payload. -/
inductive Trigger where
  | event (pk : ℕ+) (payload : Dict)
  | request (pk : ℕ+) (payload : Dict)
  | scheduled (pk : ℕ+) (scheduled_at : String)
  | manual (payload : Dict)

def Trigger.payload : Trigger → Dict
  | .event pk payload => eventPayload pk payload
  | .request pk payload => requestPayload pk payload
  | .scheduled pk scheduled_at => scheduledPayload pk scheduled_at
  | .manual payload => payload

/-- An execution: what has triggered it, and its primary key. -/
structure Execution where
  trigger : Trigger
  pk : ℕ+

/-- `stable_event_id`. -/
def stable_event_id (payload : Dict) (execution_id : ℕ) : Value :=
  ((payload.get "_automation_event_id").or (payload.get "scheduled_task_id")).or
    (.int execution_id)

def Execution.stableId (e : Execution) : Value := stable_event_id e.trigger.payload e.pk

/-! ## The name of the order -/

/-- A node that trades: its workflow, its id, its action. -/
structure OrderNode where
  workflow : ℕ
  node_id : Value
  action : Dict

/-- `f"automation-{workflow.pk}-{node_id}-"`. -/
def OrderNode.stem (h : Host) (n : OrderNode) : String :=
  "automation-" ++ toString n.workflow ++ "-" ++ n.node_id.toStr h ++ "-"

/-- `client_order_id`. -/
def OrderNode.client_order_id (h : Host) (n : OrderNode) (e : Execution) : String :=
  take 100 (textOr h (n.action.get "client_order_id") (n.stem h ++ e.stableId.toStr h))

/-- The order of `e` is found by the lookup for `e'` on the same account, or its id keeps the other
order from being inserted. -/
def Answers (h : Host) (n : OrderNode) (e e' : Execution) : Prop :=
  ∃ (orders : Table Order) (order : Order), order.client_order_id = n.client_order_id h e ∧
    (holder orders order.account (strip (n.client_order_id h e')) = some order ∨
      holder orders order.account (n.client_order_id h e') = some order)

/-- Neither order is in the way of the other. -/
structure Apart (h : Host) (n : OrderNode) (e e' : Execution) : Prop where
  ids : n.client_order_id h e ≠ n.client_order_id h e'
  answers : ¬ Answers h n e e'
  answered : ¬ Answers h n e' e

/-! ## The condition -/

/-- What is left of the id behind the trigger when the name is cut off. -/
def OrderNode.rest (h : Host) (n : OrderNode) (e : Execution) : List Char :=
  (e.stableId.toStr h).toList.take (100 - (n.stem h).toList.length)

/-- The node does not name its orders, and the ids of the triggers differ in what is left of them,
blanks at the end apart. -/
structure TellsApart (h : Host) (n : OrderNode) (e e' : Execution) : Prop where
  unnamed : (n.action.get "client_order_id").truthy = false
  rests : n.rest h e ≠ n.rest h e'
  blanks : stripEnd (n.rest h e') ≠ n.rest h e
  blanks' : stripEnd (n.rest h e) ≠ n.rest h e'

section Names

variable {h : Host} {n : OrderNode} {e e' : Execution}

/-- An order is in the way exactly if it has the id, with or without its blanks. -/
theorem answers_iff : Answers h n e e' ↔
    strip (n.client_order_id h e') = n.client_order_id h e ∨
      n.client_order_id h e' = n.client_order_id h e := by
  constructor
  · rintro ⟨orders, order, hid, hfound⟩
    rw [← hid]
    rcases hfound with hfound | hfound
    · have hrow := Table.of_find? hfound
      simp only [Bool.and_eq_true, beq_iff_eq] at hrow
      exact Or.inl hrow.2.symm
    · have hrow := Table.of_find? hfound
      simp only [Bool.and_eq_true, beq_iff_eq] at hrow
      exact Or.inr hrow.2.symm
  · intro hid
    -- the order is the only one there is
    let order : Order := ⟨1, 1, n.client_order_id h e, .filled, "", 1⟩
    refine ⟨⟨[order], by simp⟩, order, rfl, ?_⟩
    rcases hid with hid | hid
    · exact Or.inl (by simp [holder, Table.find?, order, hid])
    · exact Or.inr (by simp [holder, Table.find?, order, hid])

theorem toList_client_order_id (hfalse : (n.action.get "client_order_id").truthy = false) :
    (n.client_order_id h e).toList = (n.stem h).toList.take 100 ++ n.rest h e := by
  have htext : textOr h (n.action.get "client_order_id") (n.stem h ++ e.stableId.toStr h) =
      n.stem h ++ e.stableId.toStr h := by
    simp [textOr, Value.or, hfalse]
  rw [OrderNode.client_order_id, htext, toList_take, String.toList_append, List.take_append]
  rfl

/-- A node that names its orders gives all of them one name. -/
theorem client_order_id_of_named (htrue : (n.action.get "client_order_id").truthy = true) :
    n.client_order_id h e = take 100 ((n.action.get "client_order_id").toStr h) := by
  simp [OrderNode.client_order_id, textOr, Value.or, htrue]

theorem stem_ends (h : Host) (n : OrderNode) :
    ∃ cs, (n.stem h).toList = 'a' :: cs ++ ['-'] := by
  refine ⟨"utomation-".toList ++ (toString n.workflow).toList ++ ['-'] ++
    (n.node_id.toStr h).toList, ?_⟩
  simp [OrderNode.stem]

/-- The lookup drops the blanks at the end of what is left of the trigger's id. -/
theorem toList_strip_client_order_id (hfalse : (n.action.get "client_order_id").truthy = false)
    (hroom : (n.stem h).toList.length < 100) :
    (strip (n.client_order_id h e)).toList =
      (n.stem h).toList.take 100 ++ stripEnd (n.rest h e) := by
  have ha : isSpace 'a' = false := by decide
  have hdash : isSpace '-' = false := by decide
  rcases stem_ends h n with ⟨cs, hcs⟩
  have hstem : (n.stem h).toList.take 100 = 'a' :: cs ++ ['-'] := by
    rw [List.take_of_length_le (Nat.le_of_lt hroom), hcs]
  rw [toList_strip, toList_client_order_id hfalse, hstem, List.append_assoc, List.append_assoc,
    List.singleton_append, List.singleton_append]
  exact stripChars_append ha hdash

/-- Where something is left of the trigger's id, the stem is not cut off. -/
theorem stem_lt_of_rest (hrest : n.rest h e ≠ []) : (n.stem h).toList.length < 100 := by
  by_contra hlong
  have hzero : 100 - (n.stem h).toList.length = 0 := by omega
  exact hrest (by rw [OrderNode.rest, hzero, List.take_zero])

theorem client_order_id_eq_iff (hfalse : (n.action.get "client_order_id").truthy = false) :
    n.client_order_id h e = n.client_order_id h e' ↔ n.rest h e = n.rest h e' := by
  rw [← String.toList_inj, toList_client_order_id hfalse, toList_client_order_id hfalse,
    List.append_right_inj]

theorem strip_eq_iff (hfalse : (n.action.get "client_order_id").truthy = false)
    (hroom : (n.stem h).toList.length < 100) :
    strip (n.client_order_id h e) = n.client_order_id h e' ↔
      stripEnd (n.rest h e) = n.rest h e' := by
  rw [← String.toList_inj, toList_strip_client_order_id hfalse hroom,
    toList_client_order_id hfalse, List.append_right_inj]

theorem named_of_named (hfalse : (n.action.get "client_order_id").truthy = true) :
    n.client_order_id h e = n.client_order_id h e' := by
  rw [client_order_id_of_named hfalse, client_order_id_of_named hfalse]

end Names

/-- The orders of two executions are kept apart exactly if the node does not name them and the ids
behind their triggers are told apart by what is left of them in the name. -/
theorem orders_apart_iff (h : Host) (n : OrderNode) (e e' : Execution) :
    Apart h n e e' ↔ TellsApart h n e e' := by
  cases hnamed : (n.action.get "client_order_id").truthy with
  | true =>
    constructor
    · intro hapart
      exact absurd (named_of_named hnamed) hapart.ids
    · intro htells
      rw [htells.unnamed] at hnamed
      cases hnamed
  | false =>
    by_cases hrest : n.rest h e = n.rest h e'
    · constructor
      · intro hapart
        exact absurd ((client_order_id_eq_iff hnamed).mpr hrest) hapart.ids
      · intro htells
        exact absurd hrest htells.rests
    · -- something is left of one of the two ids
      have hroom : (n.stem h).toList.length < 100 := by
        by_cases hnil : n.rest h e = []
        · exact stem_lt_of_rest fun hnil' => hrest (hnil.trans hnil'.symm)
        · exact stem_lt_of_rest hnil
      have hids : n.client_order_id h e ≠ n.client_order_id h e' := by
        rwa [ne_eq, client_order_id_eq_iff hnamed]
      constructor
      · intro hapart
        refine ⟨hnamed, hrest, ?_, ?_⟩
        · intro hblanks
          exact hapart.answers (answers_iff.mpr (Or.inl ((strip_eq_iff hnamed hroom).mpr hblanks)))
        · intro hblanks
          exact hapart.answered (answers_iff.mpr (Or.inl ((strip_eq_iff hnamed hroom).mpr hblanks)))
      · intro htells
        refine ⟨hids, ?_, ?_⟩
        · intro hanswers
          rcases answers_iff.mp hanswers with hstrip | heq
          · exact htells.blanks ((strip_eq_iff hnamed hroom).mp hstrip)
          · exact hids heq.symm
        · intro hanswers
          rcases answers_iff.mp hanswers with hstrip | heq
          · exact htells.blanks' ((strip_eq_iff hnamed hroom).mp hstrip)
          · exact hids heq

/-! ## Triggers with numbers -/

section Numbers

variable {h : Host} {n : OrderNode} {e e' : Execution} {k k' : ℕ}

/-- The id behind the trigger is this number. -/
def Execution.Numbered (e : Execution) (k : ℕ) : Prop := e.stableId = .int k

theorem truthy_pk (pk : ℕ+) : (Value.int pk).truthy = true := by
  simp [Value.truthy]

theorem numbered_event (pk : ℕ+) (payload : Dict) (x : ℕ+) :
    (Execution.mk (.event pk payload) x).Numbered pk := by
  simp [Execution.Numbered, Execution.stableId, Trigger.payload, eventPayload, stable_event_id,
    Dict.merge, Dict.get_insert, Value.or, truthy_pk]

theorem numbered_request (pk : ℕ+) (payload : Dict) (x : ℕ+) :
    (Execution.mk (.request pk payload) x).Numbered pk := by
  simp [Execution.Numbered, Execution.stableId, Trigger.payload, requestPayload, stable_event_id,
    Dict.merge, Dict.get_insert, Value.or, truthy_pk]

theorem numbered_scheduled (pk : ℕ+) (scheduled_at : String) (x : ℕ+) :
    (Execution.mk (.scheduled pk scheduled_at) x).Numbered pk := by
  have hevent : Dict.get (scheduledPayload pk scheduled_at) "_automation_event_id" = .none := rfl
  have htask : Dict.get (scheduledPayload pk scheduled_at) "scheduled_task_id" = .int pk := rfl
  simp [Execution.Numbered, Execution.stableId, Trigger.payload, stable_event_id, hevent, htask,
    Value.or, Value.truthy]

theorem numbered_manual (x : ℕ+) : (Execution.mk (.manual []) x).Numbered x := rfl

theorem rest_of_number (hk : e.Numbered k) :
    n.rest h e = (Nat.toDigits 10 k).take (100 - (n.stem h).toList.length) := by
  have htext : e.stableId.toStr h = Nat.repr k := by
    rw [hk]
    rfl
  rw [OrderNode.rest, htext, Nat.toList_repr]

/-- Triggers of any kind with one number are mixed up by every node. -/
theorem mixed_up_of_number (hk : e.Numbered k) (hk' : e'.Numbered k) : ¬ Apart h n e e' := by
  rw [orders_apart_iff]
  intro htells
  exact htells.rests (by rw [rest_of_number hk, rest_of_number hk'])

/-- Different numbers that are not cut off are told apart. -/
theorem apart_of_numbers (hunnamed : (n.action.get "client_order_id").truthy = false)
    (hk : e.Numbered k) (hk' : e'.Numbered k') (hne : k ≠ k')
    (hfit : (n.stem h).toList.length + (Nat.toDigits 10 k).length ≤ 100)
    (hfit' : (n.stem h).toList.length + (Nat.toDigits 10 k').length ≤ 100) : Apart h n e e' := by
  have hrest : n.rest h e = Nat.toDigits 10 k := by
    rw [rest_of_number hk, List.take_of_length_le (by omega)]
  have hrest' : n.rest h e' = Nat.toDigits 10 k' := by
    rw [rest_of_number hk', List.take_of_length_le (by omega)]
  have hdigits : Nat.toDigits 10 k ≠ Nat.toDigits 10 k' := by
    intro heq
    have hvalue := congrArg (fun cs => Nat.ofDigitChars 10 cs 0) heq
    exact hne (by simpa using hvalue)
  have hblank : ∀ m, stripEnd (Nat.toDigits 10 m) = Nat.toDigits 10 m := by
    intro m
    apply stripEnd_of_forall
    intro c hc
    exact isSpace_of_isDigit (Nat.isDigit_of_mem_toDigits (by decide) (by decide) hc)
  rw [orders_apart_iff]
  constructor
  · exact hunnamed
  · rwa [hrest, hrest']
  · rw [hrest, hrest', hblank]
    exact hdigits.symm
  · rwa [hrest, hrest', hblank]

end Numbers

/-- Node `action-1` of workflow 1. -/
def tradeNode : OrderNode := ⟨1, .str "action-1", [("type", .str "execute_trade")]⟩

/-- The order of event 5 is the answer to scheduled task 5. -/
theorem event_answers_task :
    tradeNode.client_order_id .ascii ⟨.event 5 [], 8⟩ = "automation-1-action-1-5" ∧
      tradeNode.client_order_id .ascii ⟨.scheduled 5 "2026-01-01T00:00:00+00:00", 9⟩ =
        "automation-1-action-1-5" ∧
      ¬ Apart .ascii tradeNode ⟨.event 5 [], 8⟩ ⟨.scheduled 5 "2026-01-01T00:00:00+00:00", 9⟩ := by
  refine ⟨by decide +kernel, by decide +kernel, ?_⟩
  exact mixed_up_of_number (numbered_event 5 [] 8) (numbered_scheduled 5 _ 9)

end AlgoBot.Automation
