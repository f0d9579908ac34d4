import Mathlib.Tactic.IntervalCases
import AlgoBot.Core.Double
import AlgoBot.Python.Value

/-!
# Conditions

`RuleEngine.evaluate` runs a condition over the payload of an event, and
`validate_condition` checks it when a workflow is saved. A condition is JSON:
`and` and `or` have a list of conditions, `not` has one, and every other
operator compares a field of the payload with a value.

The two read an operator and a field differently, and so a condition that has
been accepted may raise.

* `holds_of_plain`: where no part of a condition raises, it evaluates to what it
  means.
* `evaluates_iff`: an accepted condition evaluates to a boolean exactly if no
  part of it that evaluation gets to has an empty operator or is about a field
  that is a list or an object.
* `null_operator`: an accepted condition that raises.
-/

namespace AlgoBot.Automation.Conditions

open AlgoBot.Core AlgoBot.Python

/-! ## Values in Python -/

/-- A host that reads floating point numbers; `none` is a `ValueError`. A number it reads that is
an integer is the float of that integer. -/
structure FloatHost extends Host where
  floatOfText : String → Option Double
  float_int : ∀ (s : String) (n : ℤ), floatOfText s = some (.fin n) → Double.ofRat n = .fin n

/-- The number a value is, exactly. -/
def number (h : FloatHost) : Value → Option Double
  | .bool b => some (.fin (if b then 1 else 0))
  | .int n => some (.fin n)
  | .float r _ => h.floatOfText r
  | _ => none

/-- Both are numbers, and equal. -/
def numberEq (h : FloatHost) (a b : Value) : Bool :=
  match number h a, number h b with
  | some x, some y => Double.eq x y
  | _, _ => false

mutual
/-- `a == b`. -/
def pyEq (h : FloatHost) : Value → Value → Bool
  | .none, .none => true
  | .str a, .str b => a == b
  | .list xs, .list ys => pyEqList h xs ys
  | .dict xs, .dict ys => xs.length == ys.length && pyEqDict h xs ys
  | a, b => numberEq h a b

def pyEqList (h : FloatHost) : List Value → List Value → Bool
  | [], [] => true
  | x :: xs, y :: ys => pyEq h x y && pyEqList h xs ys
  | _, _ => false

/-- The order of the items does not matter. -/
def pyEqDict (h : FloatHost) : List (String × Value) → List (String × Value) → Bool
  | [], _ => true
  | (k, x) :: xs, ys =>
    (match ys.lookup k with
      | some y => pyEq h x y
      | none => false) && pyEqDict h xs ys
end

/-- An integer that is too large for a float raises. -/
def orOverflow : Double → Except PyError Double
  | .inf _ => .error .OverflowError
  | x => .ok x

/-- `float(v)`. -/
def toFloat (h : FloatHost) : Value → Except PyError Double
  | .none => .error .TypeError
  | .bool b => .ok (.fin (if b then 1 else 0))
  | .int n => orOverflow (Double.ofRat n)
  | .float r _ => .ok ((h.floatOfText r).getD .nan)
  | .str s =>
    match h.floatOfText s with
    | some x => .ok x
    | none => .error .ValueError
  | .list _ => .error .TypeError
  | .dict _ => .error .TypeError

/-- Lists and dicts have no hash. -/
def hashable : Value → Bool
  | .list _ => false
  | .dict _ => false
  | _ => true

/-- `target in value`. -/
def pyIn (h : FloatHost) (target : Value) : Value → Except PyError Bool
  | .str s =>
    match target with
    | .str t => .ok (contains t s)
    | _ => .error .TypeError
  | .list xs => .ok (xs.any fun x => pyEq h x target)
  | .dict kvs =>
    match target with
    | .str t => .ok (Dict.contains kvs t)
    | v => if hashable v then .ok false else .error .TypeError
  | _ => .error .TypeError

/-- `d.get(key)` for any key; the keys of a payload are strings. -/
def getAny (d : Dict) (key : Value) : Except PyError Value :=
  match key with
  | .str k => .ok (d.get k)
  | v => if hashable v then .ok .none else .error .TypeError

/-- `v == s` for a string. -/
def isText (v : Value) (s : String) : Bool :=
  match v with
  | .str t => t == s
  | _ => false

/-! ## Recursion over a condition -/

/-- What a recursion has made of the conditions in a condition: of the entries of its list
`conditions`, and of its `condition`. -/
structure Children (α : Type) where
  list : Option (List α)
  one : Option α

mutual
/-- A function of a condition that calls itself on the conditions in it. -/
def recurse {α : Type} (f : Value → Children α → α) : Value → α
  | .dict kvs => f (.dict kvs) ⟨recurseConditions f kvs, recurseCondition f kvs⟩
  | v => f v ⟨none, none⟩

def recurseConditions {α : Type} (f : Value → Children α → α) :
    List (String × Value) → Option (List α)
  | [] => none
  | (key, v) :: kvs =>
    if key = "conditions" then recurseChildren f v else recurseConditions f kvs

def recurseChildren {α : Type} (f : Value → Children α → α) : Value → Option (List α)
  | .list vs => some (recurseAll f vs)
  | _ => none

def recurseAll {α : Type} (f : Value → Children α → α) : List Value → List α
  | [] => []
  | v :: vs => recurse f v :: recurseAll f vs

def recurseCondition {α : Type} (f : Value → Children α → α) :
    List (String × Value) → Option α
  | [] => none
  | (key, v) :: kvs => if key = "condition" then some (recurse f v) else recurseCondition f kvs
end

/-- `v` if it is a list. -/
def asList? : Value → Option (List Value)
  | .list vs => some vs
  | _ => none

section Recurse

variable {α : Type} (f : Value → Children α → α)

theorem recurseAll_eq (vs : List Value) : recurseAll f vs = vs.map (recurse f) := by
  induction vs with
  | nil => rfl
  | cons v vs ih => rw [recurseAll, ih, List.map_cons]

theorem recurseConditions_eq (kvs : Dict) :
    recurseConditions f kvs =
      ((kvs.lookup "conditions").bind asList?).map (List.map (recurse f)) := by
  induction kvs with
  | nil => rfl
  | cons kv kvs ih =>
    obtain ⟨key, v⟩ := kv
    rw [recurseConditions]
    by_cases hkey : key = "conditions"
    · subst hkey
      rw [if_pos rfl, List.lookup_cons_self, Option.bind_some]
      cases v with
      | list vs => rw [recurseChildren, asList?, Option.map_some, recurseAll_eq]
      | _ => rfl
    · have hne : ("conditions" == key) = false := by simpa using Ne.symm hkey
      rw [if_neg hkey, ih, List.lookup_cons, hne]

theorem recurseCondition_eq (kvs : Dict) :
    recurseCondition f kvs = (kvs.lookup "condition").map (recurse f) := by
  induction kvs with
  | nil => rfl
  | cons kv kvs ih =>
    obtain ⟨key, v⟩ := kv
    rw [recurseCondition]
    by_cases hkey : key = "condition"
    · subst hkey
      rw [if_pos rfl, List.lookup_cons_self, Option.map_some]
    · have hne : ("condition" == key) = false := by simpa using Ne.symm hkey
      rw [if_neg hkey, ih, List.lookup_cons, hne]

/-- The conditions in a condition are those under its two keys. -/
theorem recurse_dict (kvs : Dict) :
    recurse f (.dict kvs) =
      f (.dict kvs) ⟨((kvs.lookup "conditions").bind asList?).map (List.map (recurse f)),
        (kvs.lookup "condition").map (recurse f)⟩ := by
  rw [recurse, recurseConditions_eq, recurseCondition_eq]

end Recurse

/-! ## `RuleEngine.evaluate` -/

/-- `WorkflowValidationError`, or an exception of Python's own. -/
inductive Raised where
  | workflow (message : String)
  | python (e : PyError)
deriving DecidableEq, Repr

def CONDITION_OPERATORS : List String :=
  ["eq", "ne", "gt", "gte", "lt", "lte", "contains", "and", "or", "not"]

/-- The operators that compare numbers. -/
def orderings : List String := ["gt", "gte", "lt", "lte"]

/-- `{"gt": left > right, ...}[op]`. -/
def order (op : String) (left right : Double) : Bool :=
  if op = "gt" then Double.lt right left
  else if op = "gte" then Double.le right left
  else if op = "lt" then Double.lt left right
  else Double.le left right

/-- `except (TypeError, ValueError, OverflowError): return False`. -/
def onFloatError (e : PyError) : Except Raised Bool :=
  if e = .TypeError ∨ e = .ValueError ∨ e = .OverflowError then .ok false else .error (.python e)

def compareFloats (h : FloatHost) (op : String) (value target : Value) : Except Raised Bool :=
  match toFloat h value with
  | .error e => onFloatError e
  | .ok left =>
    match toFloat h target with
    | .error e => onFloatError e
    | .ok right =>
      if !left.isFinite || !right.isFinite then .ok false else .ok (order op left right)

/-- The operators that compare a field with a value. -/
def evaluateLeaf (h : FloatHost) (op : String) (value target : Value) : Except Raised Bool :=
  if op ∈ orderings then compareFloats h op value target
  else if op = "ne" then .ok (!pyEq h value target)
  else if op = "contains" then
    match pyIn h target value with
    | .ok b => .ok b
    | .error .TypeError => .ok false
    | .error e => .error (.python e)
  else .ok (pyEq h value target)

/-- `any(...)` for `stop`, `all(...)` for its opposite: the results up to the first that is
`stop`. -/
def stopAt (stop : Bool) : List (Except Raised Bool) → Except Raised Bool
  | [] => .ok !stop
  | .error e :: _ => .error e
  | .ok b :: rs => if b = stop then .ok stop else stopAt stop rs

/-- `all(...)`. -/
def allOf : List (Except Raised Bool) → Except Raised Bool := stopAt false

/-- `any(...)`. -/
def anyOf : List (Except Raised Bool) → Except Raised Bool := stopAt true

def unsupported (h : Host) (op : Value) : Raised :=
  .workflow ("Unsupported condition operator: " ++ op.toStr h)

/-- `payload.get(key) if key else None`. -/
def fieldValue (payload : Dict) (key : Value) : Except PyError Value :=
  if key.truthy then getAny payload key else .ok .none

/-- The operator of a condition, `condition.get("op", "eq")`. -/
def operatorOf (kvs : Dict) : Value := kvs.getD "op" (.str "eq")

/-- The body of `evaluate`, with what it returns for the conditions in the condition. -/
def evaluateNode (h : FloatHost) (payload : Dict) (condition : Value)
    (children : Children (Except Raised Bool)) : Except Raised Bool :=
  if condition.truthy = false then .ok true
  else
    match condition with
    | .dict kvs =>
      match fieldValue payload (Dict.get kvs "field") with
      | .error e => .error (.python e)
      | .ok value =>
        let op := operatorOf kvs
        -- `condition.get("conditions", [])`, where anything but a list is false
        let conditions := if Dict.contains kvs "conditions" then children.list else some []
        if isText op "and" then (conditions.map allOf).getD (.ok false)
        else if isText op "or" then (conditions.map anyOf).getD (.ok false)
        -- without a `condition` it is the empty one, which is true
        else if isText op "not" then (children.one.getD (.ok true)).map not
        else
          match op with
          | .str name =>
            if name ∈ CONDITION_OPERATORS then evaluateLeaf h name value (Dict.get kvs "value")
            else .error (unsupported h.toHost op)
          | v =>
            if hashable v then .error (unsupported h.toHost op) else .error (.python .TypeError)
    | _ => .error (.workflow "Rule condition must be an object.")

/-- `RuleEngine.evaluate`. -/
def evaluate (h : FloatHost) (payload : Dict) (condition : Value) : Except Raised Bool :=
  recurse (evaluateNode h payload) condition

/-! ## `validate_condition` -/

/-- `float(v)` returns a finite number. -/
def finiteFloat (h : FloatHost) (v : Value) : Bool :=
  match toFloat h v with
  | .ok x => x.isFinite
  | .error _ => false

/-- The errors of what is no condition at all. -/
def objectErrors (depth : ℕ) : List String :=
  if 8 < depth then ["condition nesting may not exceed 8 levels."]
  else ["condition must be an object."]

/-- The errors of a condition that compares a field with a value. -/
def leafErrors (h : FloatHost) (op : String) (kvs : Dict) : List String :=
  (if strip (textOr h.toHost (Dict.get kvs "field") "") = "" then ["condition field is required."]
    else []) ++
  (if op ∈ orderings ∧ finiteFloat h (Dict.get kvs "value") = false then
      [op ++ " condition value must be a finite number."]
    else [])

/-- The body of `validate_condition`, with what it returns for the conditions in the condition. -/
def validateNode (h : FloatHost) (condition : Value) (children : Children (ℕ → List String))
    (depth : ℕ) : List String :=
  match condition with
  | .dict kvs =>
    if 8 < depth then objectErrors depth
    else
      let op := textOr h.toHost (Dict.get kvs "op") "eq"
      if op ∉ CONDITION_OPERATORS then ["unsupported condition operator: " ++ op ++ "."]
      else if op = "and" ∨ op = "or" then
        match children.list with
        | some results =>
          if results.isEmpty ∨ 20 < results.length then
            [op ++ " requires between 1 and 20 nested conditions."]
          else results.flatMap fun result => result (depth + 1)
        | none => [op ++ " requires between 1 and 20 nested conditions."]
      else if op = "not" then
        match children.one with
        | some result => result (depth + 1)
        | none => objectErrors (depth + 1)
      else leafErrors h op kvs
  | _ => objectErrors depth

/-- `validate_condition`: the errors of a condition, none if it is accepted. -/
def validateCondition (h : FloatHost) (condition : Value) (depth : ℕ) : List String :=
  recurse (validateNode h) condition depth

/-! ## What a condition means -/

/-- The meaning of a comparison. -/
def leafHolds (h : FloatHost) (op : String) (value target : Value) : Bool :=
  if op ∈ orderings then
    match toFloat h value, toFloat h target with
    | .ok left, .ok right => left.isFinite && right.isFinite && order op left right
    | _, _ => false
  else if op = "ne" then !pyEq h value target
  else if op = "contains" then (pyIn h target value).toOption.getD false
  else pyEq h value target

/-- Whether one of them is `stop`, and the conditions one comes to until that is clear. -/
def decidedAt (stop : Bool) : List (Bool × List Value) → Bool × List Value
  | [] => (!stop, [])
  | (b, vs) :: ms =>
    if b = stop then (stop, vs) else ((decidedAt stop ms).1, vs ++ (decidedAt stop ms).2)

/-- The meaning of a condition and the conditions in it that decide it. -/
def meaningNode (h : FloatHost) (payload : Dict) (condition : Value)
    (children : Children (Bool × List Value)) : Bool × List Value :=
  match condition with
  | .dict kvs =>
    let op := textOr h.toHost (Dict.get kvs "op") "eq"
    let inner :=
      if op = "and" then decidedAt false (children.list.getD [])
      else if op = "or" then decidedAt true (children.list.getD [])
      else if op = "not" then
        let m := children.one.getD (true, [])
        (!m.1, m.2)
      else
        (leafHolds h op ((fieldValue payload (Dict.get kvs "field")).toOption.getD .none)
          (Dict.get kvs "value"), [])
    (inner.1, condition :: inner.2)
  | _ => (true, [condition])

def meaning (h : FloatHost) (payload : Dict) (condition : Value) : Bool × List Value :=
  recurse (meaningNode h payload) condition

/-- What the condition means for a payload. -/
def holds (h : FloatHost) (payload : Dict) (condition : Value) : Bool :=
  (meaning h payload condition).1

/-- The conditions evaluation gets to: the parts of an `and` up to the first that does not hold,
those of an `or` up to the first that does. -/
def reached (h : FloatHost) (payload : Dict) (condition : Value) : List Value :=
  (meaning h payload condition).2

/-- The operator is left out or a nonempty text, and the field is no nonempty list or object. -/
def plain : Value → Bool
  | .dict kvs =>
    (match kvs.lookup "op" with
      | none => true
      | some (.str op) => op != ""
      | some _ => false) &&
      (!(Dict.get kvs "field").truthy || hashable (Dict.get kvs "field"))
  | _ => false

/-! ## Evaluation -/

section Evaluation

variable {h : FloatHost} {payload : Dict} {condition : Value} {kvs : Dict}

theorem toFloat_error {v : Value} {e : PyError} (he : toFloat h v = .error e) :
    onFloatError e = .ok false := by
  have hkind : e = .TypeError ∨ e = .ValueError ∨ e = .OverflowError := by
    unfold toFloat at he
    split at he
    · exact Or.inl (Except.error.inj he).symm
    · cases he
    · unfold orOverflow at he
      split at he
      · exact Or.inr (Or.inr (Except.error.inj he).symm)
      · cases he
    · cases he
    · split at he
      · cases he
      · exact Or.inr (Or.inl (Except.error.inj he).symm)
    · exact Or.inl (Except.error.inj he).symm
    · exact Or.inl (Except.error.inj he).symm
  rw [onFloatError, if_pos hkind]

theorem pyIn_error {target value : Value} {e : PyError} (he : pyIn h target value = .error e) :
    e = .TypeError := by
  unfold pyIn at he
  split at he
  · split at he
    · cases he
    · exact (Except.error.inj he).symm
  · cases he
  · split at he
    · cases he
    · split at he
      · cases he
      · exact (Except.error.inj he).symm
  · exact (Except.error.inj he).symm

/-- A comparison returns what it means. -/
theorem evaluateLeaf_eq (op : String) (value target : Value) :
    evaluateLeaf h op value target = .ok (leafHolds h op value target) := by
  unfold evaluateLeaf leafHolds
  split_ifs with horder hne hcontains
  · unfold compareFloats
    cases hleft : toFloat h value with
    | error e => exact toFloat_error hleft
    | ok left =>
      cases hright : toFloat h target with
      | error e => exact toFloat_error hright
      | ok right =>
        cases hl : left.isFinite
        · simp [hl]
        · cases hr : right.isFinite
          · simp [hl, hr]
          · simp [hl, hr]
  · rfl
  · cases hin : pyIn h target value with
    | ok b => rfl
    | error e =>
      obtain rfl := pyIn_error hin
      rfl
  · rfl

/-- A result is the meaning, unless a condition that was come to is not plain. -/
def Agrees (m : Bool × List Value) (result : Except Raised Bool) : Prop :=
  ((∀ c ∈ m.2, plain c = true) → result = .ok m.1) ∧
    ((∃ c ∈ m.2, plain c = false) → ∃ e, result = .error e)

theorem agrees_stopAt (stop : Bool) {ms : List (Bool × List Value)}
    {rs : List (Except Raised Bool)} (hall : List.Forall₂ Agrees ms rs) :
    Agrees (decidedAt stop ms) (stopAt stop rs) := by
  induction hall with
  | nil => exact ⟨fun _ => rfl, fun ⟨_, hc, _⟩ => absurd hc List.not_mem_nil⟩
  | @cons m r ms rs hagrees _ ih =>
    obtain ⟨b, vs⟩ := m
    by_cases hplain : ∀ c ∈ vs, plain c = true
    · obtain rfl := hagrees.1 hplain
      have hgood : ¬ ∃ c ∈ vs, plain c = false := by
        rintro ⟨c, hc, hbad⟩
        rw [hplain c hc] at hbad
        cases hbad
      simp only [decidedAt, stopAt]
      split
      · exact ⟨fun _ => rfl, fun hbad => absurd hbad hgood⟩
      · refine ⟨fun hrest => ih.1 fun c hc => hrest c (List.mem_append_right _ hc), ?_⟩
        rintro ⟨c, hc, hbad⟩
        rcases List.mem_append.mp hc with hc | hc
        · exact absurd ⟨c, hc, hbad⟩ hgood
        · exact ih.2 ⟨c, hc, hbad⟩
    · -- it raises before the rest is looked at
      push Not at hplain
      obtain ⟨c, hc, hbad⟩ := hplain
      have hbad : plain c = false := by simpa using hbad
      obtain ⟨e, rfl⟩ := hagrees.2 ⟨c, hc, hbad⟩
      have hmem : c ∈ (decidedAt stop ((b, vs) :: ms)).2 := by
        simp only [decidedAt]
        split
        · exact hc
        · exact List.mem_append_left _ hc
      refine ⟨fun hrest => ?_, fun _ => ⟨e, rfl⟩⟩
      have hgood := hrest c hmem
      rw [hbad] at hgood
      cases hgood

/-- What has been accepted. -/
inductive Accepted (h : FloatHost) (depth : ℕ) (kvs : Dict) : Prop
  | quantified (stop : Bool) (cs : List Value)
      (hop : textOr h.toHost (Dict.get kvs "op") "eq" = if stop then "or" else "and")
      (hcs : kvs.lookup "conditions" = some (.list cs))
      (hvalid : ∀ c ∈ cs, validateCondition h c (depth + 1) = [])
  | negated (c : Value) (hop : textOr h.toHost (Dict.get kvs "op") "eq" = "not")
      (hc : kvs.lookup "condition" = some c) (hvalid : validateCondition h c (depth + 1) = [])
  | leaf (op : String) (hop : textOr h.toHost (Dict.get kvs "op") "eq" = op)
      (hknown : op ∈ CONDITION_OPERATORS) (hcompares : op ≠ "and" ∧ op ≠ "or" ∧ op ≠ "not")
      (hfield : strip (textOr h.toHost (Dict.get kvs "field") "") ≠ "")
      (hvalue : op ∈ orderings → finiteFloat h (Dict.get kvs "value") = true)

theorem evaluate_dict (kvs : Dict) :
    evaluate h payload (.dict kvs) = evaluateNode h payload (.dict kvs)
      ⟨((kvs.lookup "conditions").bind asList?).map (List.map (evaluate h payload)),
        (kvs.lookup "condition").map (evaluate h payload)⟩ := recurse_dict _ kvs

theorem meaning_dict (kvs : Dict) :
    meaning h payload (.dict kvs) = meaningNode h payload (.dict kvs)
      ⟨((kvs.lookup "conditions").bind asList?).map (List.map (meaning h payload)),
        (kvs.lookup "condition").map (meaning h payload)⟩ := recurse_dict _ kvs

theorem objectErrors_ne_nil (depth : ℕ) : objectErrors depth ≠ [] := by
  unfold objectErrors
  split <;> simp

theorem accepted_of_valid {depth : ℕ} (hvalid : validateCondition h condition depth = []) :
    depth ≤ 8 ∧ ∃ kvs, condition = .dict kvs ∧ Accepted h depth kvs := by
  cases condition with
  | dict kvs =>
    rw [validateCondition, recurse_dict] at hvalid
    unfold validateNode at hvalid
    dsimp only at hvalid
    split at hvalid
    · exact absurd hvalid (objectErrors_ne_nil depth)
    next hdepth =>
    refine ⟨not_lt.mp hdepth, kvs, rfl, ?_⟩
    split at hvalid
    · cases hvalid
    next hknown =>
    split at hvalid
    · next hop =>
      obtain ⟨stop, hstop⟩ : ∃ stop : Bool, textOr h.toHost (Dict.get kvs "op") "eq" =
          if stop then "or" else "and" := by
        rcases hop with hop | hop
        · exact ⟨false, hop⟩
        · exact ⟨true, hop⟩
      cases hlookup : kvs.lookup "conditions" with
      | none => simp [hlookup] at hvalid
      | some v =>
        cases v with
        | list cs =>
          rw [hlookup, Option.bind_some, asList?, Option.map_some] at hvalid
          dsimp only at hvalid
          split at hvalid
          · cases hvalid
          · refine Accepted.quantified stop cs hstop hlookup ?_
            intro c hc
            exact List.flatMap_eq_nil_iff.mp hvalid _ (List.mem_map_of_mem hc)
        | _ => simp [hlookup, asList?] at hvalid
    next hquantified =>
    split at hvalid
    · next hop =>
      cases hlookup : kvs.lookup "condition" with
      | none =>
        rw [hlookup] at hvalid
        exact absurd hvalid (objectErrors_ne_nil (depth + 1))
      | some c =>
        rw [hlookup] at hvalid
        exact Accepted.negated c hop hlookup hvalid
    · next hop =>
      obtain ⟨hfield, hvalue⟩ := List.append_eq_nil_iff.mp hvalid
      refine Accepted.leaf _ rfl (not_not.mp hknown) ⟨?_, ?_, hop⟩ ?_ ?_
      · exact fun hand => hquantified (Or.inl hand)
      · exact fun hor => hquantified (Or.inr hor)
      · intro hblank
        rw [if_pos hblank] at hfield
        cases hfield
      · intro horder
        by_contra hnot
        rw [if_pos ⟨horder, by simpa using hnot⟩] at hvalue
        cases hvalue
  | _ => exact absurd hvalid (objectErrors_ne_nil depth)

/-- The operator and the field of a plain condition are read as they were validated. -/
theorem read_of_plain (h : FloatHost) (payload : Dict) (hplain : plain (.dict kvs) = true) :
    operatorOf kvs = .str (textOr h.toHost (Dict.get kvs "op") "eq") ∧
      ∃ value, fieldValue payload (Dict.get kvs "field") = .ok value := by
  obtain ⟨hop, hfield⟩ := Bool.and_eq_true_iff.mp hplain
  constructor
  · unfold operatorOf Dict.getD Dict.get
    cases hlookup : kvs.lookup "op" with
    | none => rfl
    | some v =>
      rw [hlookup] at hop
      cases v with
      | str op =>
        have hne : op ≠ "" := by simpa using hop
        simp [textOr, Value.or, hne]
      | _ => cases hop
  · unfold fieldValue
    split
    · next htruthy =>
      rw [htruthy] at hfield
      unfold getAny
      split
      · exact ⟨_, rfl⟩
      · rw [if_pos (by simpa using hfield)]
        exact ⟨_, rfl⟩
    · exact ⟨_, rfl⟩

/-- A condition that is not plain raises. -/
theorem error_of_not_plain (h : FloatHost) (payload : Dict) (hplain : plain (.dict kvs) = false)
    (children : Children (Except Raised Bool)) :
    ∃ e, evaluateNode h payload (.dict kvs) children = .error e := by
  unfold evaluateNode
  have htruthy : (Value.dict kvs).truthy = true := by
    cases kvs with
    | nil => simp [plain, Dict.get, Value.truthy] at hplain
    | cons kv kvs => rfl
  rw [if_neg (by rw [htruthy]; exact Bool.noConfusion)]
  dsimp only
  cases hvalue : fieldValue payload (Dict.get kvs "field") with
  | error e => exact ⟨_, rfl⟩
  | ok value =>
    have hfield : (!(Dict.get kvs "field").truthy || hashable (Dict.get kvs "field")) = true := by
      unfold fieldValue at hvalue
      split at hvalue
      · next htruthy =>
        unfold getAny at hvalue
        split at hvalue
        · next hkey => simp [hkey, hashable]
        · split at hvalue
          · next hhash => simp [hhash]
          · cases hvalue
      · next htruthy => simp [htruthy]
    simp only [plain, hfield, Bool.and_true] at hplain
    unfold operatorOf Dict.getD
    cases hlookup : kvs.lookup "op" with
    | none =>
      rw [hlookup] at hplain
      cases hplain
    | some v =>
      rw [hlookup] at hplain
      cases v with
      | str op =>
        have hempty : op = "" := by simpa using hplain
        subst hempty
        exact ⟨_, rfl⟩
      | list vs => exact ⟨_, rfl⟩
      | dict kvs => exact ⟨_, rfl⟩
      | _ => exact ⟨_, rfl⟩

theorem evaluate_quantified (hplain : plain (.dict kvs) = true) {stop : Bool} {cs : List Value}
    (hop : textOr h.toHost (Dict.get kvs "op") "eq" = if stop then "or" else "and")
    (hcs : kvs.lookup "conditions" = some (.list cs)) :
    evaluate h payload (.dict kvs) = stopAt stop (cs.map (evaluate h payload)) := by
  obtain ⟨hread, value, hvalue⟩ := read_of_plain h payload hplain
  have hne : kvs ≠ [] := by
    rintro rfl
    cases hcs
  rw [evaluate_dict, evaluateNode]
  cases stop <;>
    simp [Value.truthy, hne, hvalue, hread, hop, isText, Dict.contains, hcs, asList?, allOf, anyOf]

theorem evaluate_negated (hplain : plain (.dict kvs) = true) {c : Value}
    (hop : textOr h.toHost (Dict.get kvs "op") "eq" = "not")
    (hc : kvs.lookup "condition" = some c) :
    evaluate h payload (.dict kvs) = (evaluate h payload c).map not := by
  obtain ⟨hread, value, hvalue⟩ := read_of_plain h payload hplain
  have hne : kvs ≠ [] := by
    rintro rfl
    cases hc
  rw [evaluate_dict, evaluateNode]
  simp [Value.truthy, hne, hvalue, hread, hop, isText, hc]

theorem evaluate_leaf (hplain : plain (.dict kvs) = true) {op : String} {value : Value}
    (hop : textOr h.toHost (Dict.get kvs "op") "eq" = op) (hknown : op ∈ CONDITION_OPERATORS)
    (hcompares : op ≠ "and" ∧ op ≠ "or" ∧ op ≠ "not")
    (hfield : strip (textOr h.toHost (Dict.get kvs "field") "") ≠ "")
    (hvalue : fieldValue payload (Dict.get kvs "field") = .ok value) :
    evaluate h payload (.dict kvs) = .ok (leafHolds h op value (Dict.get kvs "value")) := by
  obtain ⟨hread, _⟩ := read_of_plain h payload hplain
  have hne : kvs ≠ [] := by
    rintro rfl
    exact hfield rfl
  rw [evaluate_dict, evaluateNode]
  simp [Value.truthy, hne, hvalue, hread, hop, isText, hcompares, hknown, evaluateLeaf_eq]

/-- A plain condition is decided by the conditions in it. -/
theorem agrees_cons (hplain : plain (.dict kvs) = true) {m : Bool × List Value}
    {result : Except Raised Bool}
    (hm : meaning h payload (.dict kvs) = (m.1, .dict kvs :: m.2))
    (hresult : evaluate h payload (.dict kvs) = result) (hagrees : Agrees m result) :
    Agrees (meaning h payload (.dict kvs)) (evaluate h payload (.dict kvs)) := by
  rw [hm, hresult]
  refine ⟨fun hall => hagrees.1 fun c hc => hall c (List.mem_cons_of_mem _ hc), ?_⟩
  rintro ⟨c, hc, hbad⟩
  rcases List.mem_cons.mp hc with rfl | hc
  · rw [hplain] at hbad
    cases hbad
  · exact hagrees.2 ⟨c, hc, hbad⟩

/-- Evaluation returns the meaning of an accepted condition, or comes to a part that is not
plain and raises. -/
theorem agrees_of_valid (n : ℕ) : ∀ {condition : Value} {depth : ℕ}, depth + n = 9 →
    validateCondition h condition depth = [] →
    Agrees (meaning h payload condition) (evaluate h payload condition) := by
  -- by induction on the levels that acceptance still allows: a condition nests nine at most
  induction n with
  | zero =>
    intro condition depth hdepth hvalid
    have hle := (accepted_of_valid hvalid).1
    omega
  | succ n ih =>
    intro condition depth hdepth hvalid
    obtain ⟨_, kvs, rfl, haccepted⟩ := accepted_of_valid hvalid
    have hnext : depth + 1 + n = 9 := by omega
    cases hplain : plain (.dict kvs) with
    | false =>
      -- the condition itself is the part that raises, whatever its children are
      obtain ⟨e, he⟩ := error_of_not_plain h payload hplain
        ⟨((kvs.lookup "conditions").bind asList?).map (List.map (evaluate h payload)),
          (kvs.lookup "condition").map (evaluate h payload)⟩
      rw [evaluate_dict, meaning_dict, he]
      refine ⟨fun hall => ?_, fun _ => ⟨e, rfl⟩⟩
      have hgood := hall (.dict kvs) List.mem_cons_self
      rw [hplain] at hgood
      cases hgood
    | true =>
      cases haccepted with
      | quantified stop cs hopText hcs hvalid =>
        -- both sides stop at the same child
        have hall : List.Forall₂ Agrees (cs.map (meaning h payload))
            (cs.map (evaluate h payload)) := by
          rw [List.forall₂_map_left_iff, List.forall₂_map_right_iff, List.forall₂_same]
          intro c hc
          exact ih hnext (hvalid c hc)
        have hmeaning : meaning h payload (.dict kvs) =
            ((decidedAt stop (cs.map (meaning h payload))).1,
              .dict kvs :: (decidedAt stop (cs.map (meaning h payload))).2) := by
          rw [meaning_dict, meaningNode]
          cases stop <;> simp [hopText, hcs, asList?]
        exact agrees_cons hplain hmeaning (evaluate_quantified hplain hopText hcs)
          (agrees_stopAt stop hall)
      | negated c hopText hc hvalid =>
        have hmeaning : meaning h payload (.dict kvs) =
            (!(meaning h payload c).1, .dict kvs :: (meaning h payload c).2) := by
          rw [meaning_dict, meaningNode]
          simp [hopText, hc]
        have hinner := ih hnext hvalid
        refine agrees_cons (m := (!(meaning h payload c).1, (meaning h payload c).2))
          hplain hmeaning (evaluate_negated hplain hopText hc) ⟨fun hall => ?_, fun hbad => ?_⟩
        · rw [hinner.1 hall]
          rfl
        · obtain ⟨e, he⟩ := hinner.2 hbad
          exact ⟨e, by rw [he]; rfl⟩
      | leaf op hopText hknown hcompares hfield _ =>
        obtain ⟨_, value, hvalue⟩ := read_of_plain h payload hplain
        have hmeaning : meaning h payload (.dict kvs) =
            (leafHolds h op value (Dict.get kvs "value"), [.dict kvs]) := by
          rw [meaning_dict, meaningNode]
          simp [hopText, hcompares, hvalue, Except.toOption]
        have hevaluate := evaluate_leaf hplain hopText hknown hcompares hfield hvalue
        refine agrees_cons (m := (leafHolds h op value (Dict.get kvs "value"), []))
          hplain hmeaning hevaluate ⟨fun _ => rfl, ?_⟩
        rintro ⟨c, hc, _⟩
        cases hc

theorem agrees (hvalid : validateCondition h condition 0 = []) :
    Agrees (meaning h payload condition) (evaluate h payload condition) :=
  agrees_of_valid 9 rfl hvalid

/-- A condition evaluates to what it means where nothing raises. -/
theorem holds_of_plain (hvalid : validateCondition h condition 0 = [])
    (hplain : ∀ c ∈ reached h payload condition, plain c = true) :
    evaluate h payload condition = .ok (holds h payload condition) :=
  (agrees hvalid).1 hplain

/-- An accepted condition evaluates to a boolean exactly if every part of it that evaluation gets
to is plain. -/
theorem evaluates_iff (hvalid : validateCondition h condition 0 = []) :
    (∃ b, evaluate h payload condition = .ok b) ↔
      ∀ c ∈ reached h payload condition, plain c = true := by
  constructor
  · rintro ⟨b, hb⟩ c hc
    by_contra hbad
    obtain ⟨e, he⟩ := (agrees hvalid).2 ⟨c, hc, by simpa using hbad⟩
    rw [hb] at he
    cases he
  · intro hplain
    exact ⟨_, holds_of_plain hvalid hplain⟩

end Evaluation

/-! ## Two conditions -/

/-- A host that reads digits only. -/
def FloatHost.digits : FloatHost where
  toHost := Host.ascii
  floatOfText s :=
    ((intOfText Host.ascii s).filter fun n => 0 ≤ n ∧ n < 10).map fun n : ℤ => .fin (n : ℚ)
  float_int := by
    intro s n hn
    obtain ⟨k, hk, hkn⟩ := Option.map_eq_some_iff.mp hn
    have hsmall : 0 ≤ k ∧ k < 10 := by simpa using (Option.filter_eq_some_iff.mp hk).2
    obtain rfl : k = n := by exact_mod_cast Double.fin.inj hkn
    obtain ⟨hlow, hhigh⟩ := hsmall
    interval_cases k <;> decide +kernel

/-- A drawdown of 5 or more, and no kill switch. -/
def drawdown : Value :=
  .dict [("op", .str "and"), ("conditions", .list [
    .dict [("field", .str "drawdown"), ("op", .str "gte"), ("value", .int 5)],
    .dict [("op", .str "not"), ("condition", .dict [("field", .str "kill"),
      ("value", .bool true)])]])]

theorem drawdown_evaluates :
    validateCondition .digits drawdown 0 = [] ∧
      ∃ b, evaluate .digits [("drawdown", .int 7), ("kill", .bool false)] drawdown = .ok b := by
  have hvalid : validateCondition .digits drawdown 0 = [] := by decide +kernel
  have hplain : ((reached .digits [("drawdown", .int 7), ("kill", .bool false)]
      drawdown).all plain) = true := by decide +kernel
  exact ⟨hvalid, (evaluates_iff hvalid).mpr (List.all_eq_true.mp hplain)⟩

/-- A condition whose operator is null. -/
def nullOperator : Value :=
  .dict [("op", .none), ("field", .str "drawdown"), ("value", .int 5)]

/-- It is accepted as a comparison for equality, and evaluating it raises. -/
theorem null_operator :
    validateCondition .digits nullOperator 0 = [] ∧
      evaluate .digits [("drawdown", .int 5)] nullOperator =
        .error (.workflow "Unsupported condition operator: None") := by
  have hvalid : (validateCondition .digits nullOperator 0).isEmpty = true := by decide +kernel
  exact ⟨List.isEmpty_iff.mp hvalid, by decide +kernel⟩

end AlgoBot.Automation.Conditions
