import AlgoBot.Automation.Conditions

/-!
# Workflows

`WorkflowDesignerService.validate` checks a definition, `WorkflowExecutionService.run` runs
it: it goes through the nodes as they are listed, up to a condition that is not met or a
control node. The edges are checked for their ends only, and the run does not look at them.

* `edges_respected`: of an accepted definition no node runs before the nodes listed before
  it have passed, and so an edge is respected if its source is listed before its target.
* `edge_ignored`: an edge whose source is listed after its target.
-/

namespace AlgoBot.Automation.Workflows

open AlgoBot.Core AlgoBot.Python
open AlgoBot.Automation.Conditions (FloatHost Raised toFloat evaluate validateCondition)

/-! ## Words -/

def WORKFLOW_NODE_TYPES : List String :=
  ["trigger", "condition", "action", "trade", "risk", "ai", "broker", "notification", "delay",
    "branch", "martingale"]

def TRIGGER_TYPES : List String :=
  ["market_event", "trade_executed", "trade_closed", "strategy_signal", "ai_prediction",
    "risk_alert", "broker_connected", "broker_disconnected", "margin_warning", "drawdown_trigger",
    "price_level", "indicator_cross", "smc_event", "time_schedule", "webhook", "manual", "api",
    "system_event"]

def ACTION_TYPES : List String :=
  ["execute_trade", "close_trade", "pause_strategy", "resume_strategy", "start_strategy",
    "stop_strategy", "activate_risk_profile", "deactivate_risk_profile", "send_notification",
    "execute_ai_prediction", "start_backtest", "deploy_strategy", "retrain_ai_model",
    "export_report", "backup_database", "restart_service", "execute_script", "webhook_call",
    "api_call", "custom_python"]

/-- The nodes that carry an action. -/
def actionNodes : List String := ["action", "trade", "broker", "notification", "risk", "ai"]

/-- The nodes that end a run, with their codes. -/
def controlCodes : List (String × String) :=
  [("delay", "DELAY_ADAPTER_NOT_CONFIGURED"), ("branch", "BRANCH_ROUTER_NOT_CONFIGURED"),
    ("martingale", "MARTINGALE_NODE_NOT_CONFIGURED")]

/-! ## `validate` -/

/-- `v in words`, for words that are texts. -/
def among (v : Value) (words : List String) : Bool :=
  match v with
  | .str s => s ∈ words
  | _ => false

/-- `if c: errors.append(message)`. -/
def orError (c : Bool) (message : String) : List String := if c then [message] else []

/-- `validate_martingale`; `none` where a conversion raises. -/
def martingaleNumbers (h : FloatHost) (config : Dict) : Option (Double × Double × ℤ × Double) := do
  let base_stake ← (toFloat h (config.get "base_stake")).toOption
  let multiplier ← (toFloat h (config.getD "multiplier" (.int 2))).toOption
  let max_steps ← ((config.getD "max_steps" (.int 5)).toInt h.toHost).toOption
  let max_stake ← (toFloat h (config.get "max_stake")).toOption
  return (base_stake, multiplier, max_steps, max_stake)

def validateMartingale (h : FloatHost) (config : Dict) : List String :=
  let accepted := match martingaleNumbers h config with
    | some (base_stake, multiplier, max_steps, max_stake) =>
      base_stake.isFinite && multiplier.isFinite && max_stake.isFinite &&
        !(Double.le base_stake (.fin 0) || Double.le multiplier (.fin 1) || max_steps < 1 ||
          20 < max_steps || Double.lt max_stake base_stake)
    | none => false
  orError (!accepted) ("Martingale requires positive base_stake, multiplier > 1, max_steps 1–20, " ++
    "and max_stake >= base_stake.")

/-- The errors of a trigger. -/
def triggerErrors (h : Host) (trigger : Value) : List String :=
  match trigger with
  | .dict kvs =>
    if kvs.isEmpty then []
    else if (Dict.get kvs "type").truthy = false then []
    else if !among (Dict.get kvs "type") TRIGGER_TYPES then
      ["Unsupported trigger type: " ++ (Dict.get kvs "type").toStr h ++ "."]
    else orError (strip (textOr h (Dict.get kvs "event") "") = "")
      "trigger.event is required when a trigger is configured."
  | _ => ["trigger must be an object."]

def triggerWarnings (trigger : Value) : List String :=
  match trigger with
  | .dict kvs => orError (!kvs.isEmpty && !(Dict.get kvs "type").truthy)
      ("Legacy trigger has no type; event matching remains supported, but new workflows should " ++
        "set trigger.type.")
  | _ => []

/-- `str(node.get("id") or index)`. -/
def idOf (h : Host) (index : ℕ) (node : Dict) : String := textOr h (node.get "id") (toString index)

/-- `str(node.get("type") or node.get("node_type") or "")`. -/
def typeOf (h : Host) (node : Dict) : String := textOr h (node.firstOf ["type", "node_type"]) ""

/-- The errors of a configuration. -/
def configErrors (h : FloatHost) (label node_type : String) (config : Dict) : List String :=
  let action_type := strip (textOr h.toHost (config.get "type") "")
  (if node_type ∈ actionNodes then
      if action_type = "" then [label ++ " requires an explicit action type."]
      else orError (action_type ∉ ACTION_TYPES)
        (label ++ " has unsupported action: " ++ action_type ++ ".")
    else []) ++
  (if node_type = "condition" then
      (validateCondition h (.dict config) 0).map fun message => label ++ " " ++ message
    else []) ++
  (if node_type = "martingale" then
      (validateMartingale h config).map fun message => label ++ " " ++ message
    else []) ++
  (if config.contains "martingale" then
      match config.get "martingale" with
      | .dict nested => (validateMartingale h nested).map fun message => label ++ " " ++ message
      | _ => [label ++ ".configuration.martingale must be an object."]
    else [])

/-- The errors of a node, apart from its id. -/
def nodeErrors (h : FloatHost) (index : ℕ) (node : Dict) : List String :=
  let label := "nodes[" ++ toString index ++ "]"
  let node_type := strip (typeOf h.toHost node)
  if node_type ∉ WORKFLOW_NODE_TYPES then
    [label ++ " has unsupported type: " ++ (if node_type = "" then "(missing)" else node_type) ++
      "."]
  else
    match node.getD "configuration" (.dict node) with
    | .dict config => configErrors h label node_type config
    | _ => [label ++ ".configuration must be an object."]

/-- The loop over the nodes, from an index and the ids so far. -/
def nodesErrors (h : FloatHost) : ℕ → List String → List Value → List String
  | _, _, [] => []
  | index, node_ids, .dict node :: nodes =>
    orError (idOf h.toHost index node ∈ node_ids)
        ("Duplicate node id: " ++ idOf h.toHost index node ++ ".") ++
      nodeErrors h index node ++
      nodesErrors h (index + 1) (idOf h.toHost index node :: node_ids) nodes
  | index, node_ids, _ :: nodes =>
    ("nodes[" ++ toString index ++ "] must be an object.") ::
      nodesErrors h (index + 1) node_ids nodes

/-- `node_ids`. -/
def nodeIds (h : Host) : ℕ → List Value → List String
  | _, [] => []
  | index, .dict node :: nodes => idOf h index node :: nodeIds h (index + 1) nodes
  | index, _ :: nodes => nodeIds h (index + 1) nodes

/-- The ends of an edge. -/
def sourceOf (h : Host) (edge : Dict) : String := textOr h (edge.firstOf ["from", "source"]) ""

def targetOf (h : Host) (edge : Dict) : String := textOr h (edge.firstOf ["to", "target"]) ""

def edgeErrors (h : Host) (node_ids : List String) (index : ℕ) : Value → List String
  | .dict edge =>
    orError (sourceOf h edge ∉ node_ids || targetOf h edge ∉ node_ids)
      ("edges[" ++ toString index ++ "] references a missing node.")
  | _ => ["edges[" ++ toString index ++ "] must be an object."]

/-- A list, or nothing for what is none. -/
def listOr : Value → List Value
  | .list xs => xs
  | _ => []

def isList : Value → Bool
  | .list _ => true
  | _ => false

/-- `definition.get("edges", definition.get("connections", []))`. -/
def edgesValue (definition : Dict) : Value :=
  definition.getD "edges" (definition.getD "connections" (.list []))

def nodesValue (definition : Dict) : Value := definition.getD "nodes" (.list [])

structure Validation where
  errors : List String
  warnings : List String

/-- `WorkflowDesignerService.validate`. -/
def validate (h : FloatHost) : Value → Validation
  | .dict definition =>
    let trigger := Dict.getD definition "trigger" (.dict [])
    let nodes := listOr (nodesValue definition)
    let node_ids := nodeIds h.toHost 0 nodes
    { errors :=
        triggerErrors h.toHost trigger ++
        orError (!isList (nodesValue definition)) "nodes must be a list." ++
        orError (100 < nodes.length) "A workflow may contain at most 100 nodes." ++
        orError (trigger.truthy && nodes.isEmpty)
          "A triggered workflow must contain at least one node." ++
        nodesErrors h 0 [] nodes ++
        (if isList (edgesValue definition) then
            ((listOr (edgesValue definition)).mapIdx (edgeErrors h.toHost node_ids)).flatten
          else ["edges/connections must be a list."])
      warnings := triggerWarnings trigger }
  | _ => ⟨["Workflow definition must be an object."], []⟩

/-! ## The run -/

/-- A node as the run sees it. -/
structure Node where
  pk : Value
  node_type : String
  configuration : Dict

/-- The nodes of a definition. -/
def nodeOf (h : Host) (index : ℕ) (node : Dict) : Node where
  pk := node.getD "id" (.int index)
  node_type := typeOf h node
  configuration :=
    match node.get "configuration" with
    | .dict config => config
    | _ => node

def definitionNodes (h : Host) : ℕ → List Value → List Node
  | _, [] => []
  | index, .dict node :: nodes => nodeOf h index node :: definitionNodes h (index + 1) nodes
  | index, _ :: nodes => definitionNodes h (index + 1) nodes

/-- An entry of the audit. -/
structure Entry where
  node_id : Value
  kind : String
  status : String
  code : String

/-- How a trade ends that the node at a position executes. -/
abbrev Trades := ℕ → Dict → Except Raised Entry

/-- `ActionService.execute`. -/
def executeAction (h : Host) (trades : Trades) (index : ℕ) (node : Node) : Except Raised Entry :=
  let kind := strip (textOr h (node.configuration.get "type") "")
  if kind ∉ ACTION_TYPES then
    .error (.workflow ("Unsupported action: " ++ if kind = "" then "(missing)" else kind))
  else if kind = "execute_trade" then
    (trades index node.configuration).map fun entry => { entry with node_id := node.pk }
  else .ok ⟨node.pk, kind, "not_dispatched", "ACTION_ADAPTER_NOT_CONFIGURED"⟩

/-- What the loop does with a node. -/
inductive Visit where
  | goesOn (entry : Entry)
  | unmet (entry : Entry)
  | control (entry : Entry)
  | raises (e : Raised)

def visit (h : FloatHost) (payload : Dict) (trades : Trades) (index : ℕ) (node : Node) : Visit :=
  if node.node_type = "trigger" then .goesOn ⟨node.pk, "trigger", "validated", ""⟩
  else if node.node_type = "condition" then
    match evaluate h payload (.dict node.configuration) with
    | .ok true => .goesOn ⟨node.pk, "condition", "matched", ""⟩
    | .ok false => .unmet ⟨node.pk, "condition", "condition_not_met", ""⟩
    | .error e => .raises e
  else
    match controlCodes.lookup node.node_type with
    | some code => .control ⟨node.pk, node.node_type, "not_dispatched", code⟩
    | none =>
      if node.node_type ∈ actionNodes then
        match executeAction h.toHost trades index node with
        | .ok entry => .goesOn entry
        | .error e => .raises e
      else .raises (.workflow ("Unsupported workflow node type: " ++ node.node_type))

/-- What the loop leaves: the positions it has visited, the audit, whether a condition was not met,
and an exception. -/
structure Walk where
  visited : List ℕ
  audit : List Entry
  condition_not_met : Bool
  raised : Option Raised

/-- The loop over the nodes, from a position. -/
def walk (h : FloatHost) (payload : Dict) (trades : Trades) : ℕ → List Node → Walk
  | _, [] => ⟨[], [], false, none⟩
  | index, node :: nodes =>
    match visit h payload trades index node with
    | .goesOn entry =>
      let rest := walk h payload trades (index + 1) nodes
      { rest with visited := index :: rest.visited, audit := entry :: rest.audit }
    | .unmet entry => ⟨[index], [entry], true, none⟩
    | .control entry => ⟨[index], [entry], false, none⟩
    | .raises e => ⟨[index], [], false, some e⟩

/-- `execution.status` and the status in its result. -/
def statusOf (w : Walk) : String × String :=
  if w.raised.isSome then ("failed", "")
  else
    let dispatch_pending := w.audit.any fun entry => entry.status == "not_dispatched"
    let action_pending := w.audit.any fun entry => entry.status == "pending"
    let status :=
      if dispatch_pending || action_pending then "pending"
      else if w.audit.any fun entry => entry.status == "failed" then "failed"
      else "completed"
    (status,
      if w.condition_not_met then "condition_not_met"
      else if dispatch_pending then "dispatch_not_configured"
      else if action_pending then "awaiting_broker_confirmation"
      else status)

structure Workflow where
  enabled : Bool
  status : String
  definition : Value
  approval_policy : Value
  /-- The rows of older workflows, by id. -/
  nodes : List Node

/-- The nodes of a run: those of the definition, if there are any. -/
def nodesOf (h : Host) (workflow : Workflow) : List Node :=
  match nodesValue workflow.definition.asDict with
  | .list (node :: nodes) => definitionNodes h 0 (node :: nodes)
  | _ => workflow.nodes

/-- How a run ends. -/
inductive Outcome where
  | refused
  | paused
  | invalid (errors : List String)
  | empty
  | walked (walk : Walk)

/-- `run`; `approved` tells that an approval of the workflow was granted. -/
def run (h : FloatHost) (workflow : Workflow) (payload : Dict) (approved : Bool) (trades : Trades) :
    Outcome :=
  if !workflow.enabled || workflow.status != "pending" then .refused
  else if (workflow.approval_policy.asDict.get "required").truthy && !approved then .paused
  else
    let validation := validate h (workflow.definition.or (.dict []))
    if validation.errors ≠ [] then .invalid validation.errors
    else if nodesOf h.toHost workflow = [] then .empty
    else .walked (walk h payload trades 0 (nodesOf h.toHost workflow))

/-! ## What is accepted -/

section Accepted

variable {h : FloatHost}

theorem orError_eq_nil {c : Bool} {message : String} : orError c message = [] ↔ c = false := by
  cases c <;> simp [orError]

/-- In an accepted list every node is an object with an id of its own. -/
theorem nodup_of_accepted {index : ℕ} {node_ids : List String} {nodes : List Value}
    (haccepted : nodesErrors h index node_ids nodes = []) :
    (nodeIds h.toHost index nodes).Nodup ∧
      (∀ id ∈ nodeIds h.toHost index nodes, id ∉ node_ids) ∧
      (nodeIds h.toHost index nodes).length = nodes.length := by
  induction nodes generalizing index node_ids with
  | nil => simp [nodeIds]
  | cons node nodes ih =>
    cases node with
    | dict kvs =>
      simp only [nodesErrors, List.append_eq_nil_iff, orError_eq_nil, decide_eq_false_iff_not]
        at haccepted
      obtain ⟨⟨hnew, _⟩, hrest⟩ := haccepted
      obtain ⟨hnodup, hfresh, hlength⟩ := ih hrest
      have hnotmem : idOf h.toHost index kvs ∉ nodeIds h.toHost (index + 1) nodes := fun hmem =>
        hfresh _ hmem List.mem_cons_self
      refine ⟨List.nodup_cons.mpr ⟨hnotmem, hnodup⟩, ?_, by simp [nodeIds, hlength]⟩
      intro id hid
      rcases List.mem_cons.mp hid with rfl | hmem
      · exact hnew
      · exact fun hold => hfresh id hmem (List.mem_cons_of_mem _ hold)
    | _ => cases haccepted

/-- What acceptance says about the nodes and the edges. -/
structure Accepted (h : FloatHost) (definition : Dict) : Prop where
  nodup : (nodeIds h.toHost 0 (listOr (nodesValue definition))).Nodup
  ends : ∀ edge, .dict edge ∈ listOr (edgesValue definition) →
    sourceOf h.toHost edge ∈ nodeIds h.toHost 0 (listOr (nodesValue definition)) ∧
      targetOf h.toHost edge ∈ nodeIds h.toHost 0 (listOr (nodesValue definition))

theorem accepted_of_errors {definition : Dict}
    (haccepted : (validate h (.dict definition)).errors = []) : Accepted h definition := by
  simp only [validate, List.append_eq_nil_iff] at haccepted
  obtain ⟨⟨_, hnodes⟩, hedges⟩ := haccepted
  refine ⟨(nodup_of_accepted hnodes).1, fun edge hedge => ?_⟩
  cases hlist : edgesValue definition with
  | list edges =>
    rw [hlist] at hedges hedge
    have hlisted : isList (.list edges) = true := rfl
    rw [if_pos hlisted, List.flatten_eq_nil_iff] at hedges
    obtain ⟨index, hlt, hget⟩ := List.getElem_of_mem hedge
    have herrors := hedges (edgeErrors h.toHost (nodeIds h.toHost 0 (listOr (nodesValue definition)))
      index (.dict edge)) (by
        rw [List.mem_mapIdx]
        exact ⟨index, hlt, by rw [hget]⟩)
    have hfalse := orError_eq_nil.mp herrors
    simpa using hfalse
  | _ =>
    rw [hlist] at hedge
    cases hedge

/-- A definition without errors is an object, or counts as the empty one. -/
theorem or_eq_asDict {v : Value} (haccepted : (validate h (v.or (.dict []))).errors = []) :
    v.or (.dict []) = .dict v.asDict := by
  by_cases htruthy : v.truthy = true
  · rw [Value.or, if_pos htruthy] at haccepted ⊢
    cases v with
    | dict kvs => rfl
    | _ => cases haccepted
  · rw [Value.or, if_neg htruthy]
    cases v with
    | dict kvs =>
      have hempty : kvs = [] := by simpa [Value.truthy] using htruthy
      rw [hempty]
      rfl
    | _ => rfl

end Accepted

/-! ## The order of a run -/

section Walk

variable {h : FloatHost} {payload : Dict} {trades : Trades}

/-- The run goes on after the node at a position. -/
def Passed (h : FloatHost) (payload : Dict) (trades : Trades) (index : ℕ) (node : Node) : Prop :=
  ∃ entry, visit h payload trades index node = .goesOn entry

/-- A condition that has passed was met. -/
theorem Passed.met {index : ℕ} {node : Node} (hpassed : Passed h payload trades index node)
    (hcondition : node.node_type = "condition") :
    evaluate h payload (.dict node.configuration) = .ok true := by
  obtain ⟨entry, hvisit⟩ := hpassed
  have htrigger : ("condition" : String) ≠ "trigger" := by decide
  rw [visit, hcondition, if_neg htrigger, if_pos rfl] at hvisit
  split at hvisit
  · assumption
  · cases hvisit
  · cases hvisit

/-- A walk visits the nodes one after the other, and each but the last of them passes. -/
theorem walk_visited (index : ℕ) (nodes : List Node) :
    ∃ k, (walk h payload trades index nodes).visited = List.range' index k ∧ k ≤ nodes.length ∧
      ∀ i, i + 1 < k → ∃ node, nodes[i]? = some node ∧ Passed h payload trades (index + i) node := by
  induction nodes generalizing index with
  | nil => exact ⟨0, rfl, le_refl 0, fun i hi => absurd hi (Nat.not_lt_zero _)⟩
  | cons node nodes ih =>
    have hlast : ∀ i, i + 1 < 1 → ∃ node', (node :: nodes)[i]? = some node' ∧
        Passed h payload trades (index + i) node' := fun i hi => by omega
    unfold walk
    cases hvisit : visit h payload trades index node with
    | goesOn entry =>
      -- the walk of the rest starts one position later
      obtain ⟨k, hvisited, hle, hpassed⟩ := ih (index + 1)
      refine ⟨k + 1, ?_, Nat.succ_le_succ hle, ?_⟩
      · dsimp only
        rw [hvisited, List.range'_succ]
      · intro i hi
        cases i with
        | zero => exact ⟨node, rfl, entry, hvisit⟩
        | succ i =>
          obtain ⟨node', hnode, hpass⟩ := hpassed i (by omega)
          refine ⟨node', hnode, ?_⟩
          rwa [show index + (i + 1) = index + 1 + i by omega]
    | unmet entry => exact ⟨1, rfl, by simp, hlast⟩
    | control entry => exact ⟨1, rfl, by simp, hlast⟩
    | raises e => exact ⟨1, rfl, by simp, hlast⟩

end Walk

/-! ## Edges -/

/-- The position of a node in the list. -/
def positionOf (h : Host) (definition : Dict) (id : String) : ℕ :=
  (nodeIds h 0 (listOr (nodesValue definition))).idxOf id

/-- The target does not run before the source has run, nor at all if the source is a condition
that is not met. -/
def Respects (h : FloatHost) (payload : Dict) (trades : Trades) (nodes : List Node)
    (visited : List ℕ) (source target : ℕ) : Prop :=
  ∀ t : ℕ, visited[t]? = some target → ∃ s : ℕ, s < t ∧ visited[s]? = some source ∧
    ∃ node, nodes[source]? = some node ∧ Passed h payload trades source node ∧
      (node.node_type = "condition" → evaluate h payload (.dict node.configuration) = .ok true)

/-- What a run is promised to do. -/
structure Ordered (h : FloatHost) (payload : Dict) (trades : Trades) (workflow : Workflow)
    (visited : List ℕ) : Prop where
  /-- The ends of an edge are ids of one node each. -/
  accepted : Accepted h workflow.definition.asDict
  edges : ∀ edge, .dict edge ∈ listOr (edgesValue workflow.definition.asDict) →
    positionOf h.toHost workflow.definition.asDict (sourceOf h.toHost edge) <
        positionOf h.toHost workflow.definition.asDict (targetOf h.toHost edge) →
      Respects h payload trades (nodesOf h.toHost workflow) visited
        (positionOf h.toHost workflow.definition.asDict (sourceOf h.toHost edge))
        (positionOf h.toHost workflow.definition.asDict (targetOf h.toHost edge))
  /-- A node runs only behind nodes that have passed. -/
  gates : ∀ j ∈ visited, ∀ i < j, ∃ node, (nodesOf h.toHost workflow)[i]? = some node ∧
    Passed h payload trades i node

/-- A run of an accepted definition visits a node only after those before it have passed. -/
theorem edges_respected (h : FloatHost) (workflow : Workflow) (payload : Dict) (approved : Bool)
    (trades : Trades) (w : Walk) (hrun : run h workflow payload approved trades = .walked w) :
    Ordered h payload trades workflow w.visited := by
  unfold run at hrun
  dsimp only at hrun
  split at hrun
  · cases hrun
  split at hrun
  · cases hrun
  split at hrun
  · cases hrun
  next herrors =>
  split at hrun
  · cases hrun
  obtain rfl := Outcome.walked.inj hrun
  have hwalk : ∃ k, (walk h payload trades 0 (nodesOf h.toHost workflow)).visited =
      List.range' 0 k ∧ k ≤ (nodesOf h.toHost workflow).length ∧
        ∀ i, i + 1 < k → ∃ node, (nodesOf h.toHost workflow)[i]? = some node ∧
          Passed h payload trades (0 + i) node :=
    walk_visited 0 (nodesOf h.toHost workflow)
  obtain ⟨k, hvisited, _, hpassed⟩ := hwalk
  -- all but the last of the visited nodes have passed
  have hbefore : ∀ i, i + 1 < k → ∃ node, (nodesOf h.toHost workflow)[i]? = some node ∧
      Passed h payload trades i node := by
    intro i hi
    obtain ⟨node, hnode, hpass⟩ := hpassed i hi
    rw [Nat.zero_add] at hpass
    exact ⟨node, hnode, hpass⟩
  rw [hvisited]
  refine ⟨?_, ?_, ?_⟩
  · -- a definition that is no object, or empty, has no errors only as the empty one
    have haccepted : (validate h (workflow.definition.or (.dict []))).errors = [] := by
      simpa using herrors
    rw [or_eq_asDict haccepted] at haccepted
    exact accepted_of_errors haccepted
  · intro edge _ hlt t ht
    obtain ⟨hk, hj⟩ := List.getElem?_eq_some_iff.mp ht
    rw [List.length_range'] at hk
    rw [List.getElem_range', Nat.zero_add, Nat.one_mul] at hj
    obtain ⟨node, hnode, hpass⟩ := hbefore (positionOf h.toHost workflow.definition.asDict
      (sourceOf h.toHost edge)) (by omega)
    refine ⟨positionOf h.toHost workflow.definition.asDict (sourceOf h.toHost edge), by omega, ?_,
      node, hnode, hpass, hpass.met⟩
    rw [List.getElem?_range' (by omega)]
    simp
  · intro j hj i hi
    obtain ⟨_, hlt⟩ := List.mem_range'_1.mp hj
    exact hbefore i (by omega)

/-! ## A condition and a notification -/

/-- A notification behind a condition, with the nodes in a given order. -/
def notifying (nodes : List Value) : Workflow where
  enabled := true
  status := "pending"
  definition := .dict [("nodes", .list nodes),
    ("edges", .list [.dict [("from", .str "check"), ("to", .str "notify")]])]
  approval_policy := .dict []
  nodes := []

def check : Value :=
  .dict [("id", .str "check"), ("type", .str "condition"),
    ("configuration", .dict [("field", .str "drawdown"), ("op", .str "gt"), ("value", .int 5)])]

def notify : Value :=
  .dict [("id", .str "notify"), ("type", .str "notification"),
    ("configuration", .dict [("type", .str "send_notification")])]

def noTrades : Trades := fun _ _ => .error (.workflow "")

/-- The positions that a run visits. -/
def visitedOf : Outcome → List ℕ
  | .walked w => w.visited
  | _ => []

/-- With the condition first the edge is respected. -/
theorem edges_respected_check : ∃ w,
    run .digits (notifying [check, notify]) [("drawdown", .int 7)] false noTrades = .walked w ∧
      w.visited = [0, 1] ∧
      Ordered .digits [("drawdown", .int 7)] noTrades (notifying [check, notify]) w.visited := by
  have hvisited : visitedOf (run .digits (notifying [check, notify]) [("drawdown", .int 7)] false
      noTrades) = [0, 1] := by decide +kernel
  cases hrun : run .digits (notifying [check, notify]) [("drawdown", .int 7)] false noTrades with
  | walked w =>
    rw [hrun] at hvisited
    exact ⟨w, rfl, hvisited, edges_respected .digits (notifying [check, notify])
      [("drawdown", .int 7)] false noTrades w hrun⟩
  | _ =>
    rw [hrun] at hvisited
    cases hvisited

/-- With the notification first it runs before the condition, which is not met. -/
theorem edge_ignored :
    (validate .digits (notifying [notify, check]).definition).errors = [] ∧
      visitedOf (run .digits (notifying [notify, check]) [("drawdown", .int 3)] false noTrades) =
        [0, 1] ∧
      positionOf FloatHost.digits.toHost (notifying [notify, check]).definition.asDict "notify" = 0 ∧
      positionOf FloatHost.digits.toHost (notifying [notify, check]).definition.asDict "check" = 1 ∧
      ¬ Respects .digits [("drawdown", .int 3)] noTrades
        (nodesOf FloatHost.digits.toHost (notifying [notify, check])) [0, 1] 1 0 := by
  refine ⟨by decide +kernel, by decide +kernel, by decide +kernel, by decide +kernel, ?_⟩
  intro hrespects
  obtain ⟨s, hs, _⟩ := hrespects 0 rfl
  exact absurd hs (Nat.not_lt_zero s)

end AlgoBot.Automation.Workflows
