import AlgoBot.Automation.Conditions

/-!
# Conditions that fail closed

A field of a payload may be missing, and a number may have become something that
is none. A comparison of numbers is false then. What this makes of a condition
depends on how many `not`s the comparison is under, and `ne` is true of a field
that is missing.

* `fail_closed`: an outcome does not turn from false to true, if the field is
  compared so that its loss decides the comparison the right way.
* `negation_opens`: under a `not` a missing number makes an outcome true.
-/

namespace AlgoBot.Automation.Conditions

open AlgoBot.Core AlgoBot.Python

/-! ## A field that is lost -/

/-- A field is deleted, or replaced by another value. -/
inductive Loss where
  | deleted
  | malformed (v : Value)

/-- The payload without the field, or with the other value. -/
def lose (payload : Dict) (key : String) : Loss → Dict
  | .deleted => payload.filter fun kv => kv.1 != key
  | .malformed v => payload.insert key v

/-- Only a number is replaced, by what is no finite number. -/
def Loss.Malforms (h : FloatHost) (payload : Dict) (key : String) : Loss → Prop
  | .deleted => True
  | .malformed v => finiteFloat h (payload.get key) = true ∧ finiteFloat h v = false

/-- The lost field cannot be equal to the value. -/
def apart (h : FloatHost) (target : Value) : Loss → Bool
  | .deleted =>
    match target with
    | .none => false
    | _ => true
  | .malformed _ => finiteFloat h target

/-- The comparison is false of a lost field, or true where `closed` is false. -/
def leafCloses (h : FloatHost) (loss : Loss) (op : String) (target : Value) (closed : Bool) : Bool :=
  if closed then
    op ∈ orderings || (op == "eq" && apart h target loss) ||
      (op == "contains" && (match loss with
        | .deleted => true
        | .malformed _ => false))
  else op == "ne" && apart h target loss

/-- Each comparison of the field closes, or opens if it is under an odd number of `not`s. -/
def closesNode (h : FloatHost) (key : String) (loss : Loss) (condition : Value)
    (children : Children (Bool → Bool)) (closed : Bool) : Bool :=
  match condition with
  | .dict kvs =>
    let op := textOr h.toHost (Dict.get kvs "op") "eq"
    if op = "and" ∨ op = "or" then (children.list.getD []).all fun closes => closes closed
    else if op = "not" then children.one.all fun closes => closes !closed
    else if isText (Dict.get kvs "field") key then
      leafCloses h loss op (Dict.get kvs "value") closed
    else true
  | _ => true

def closes (h : FloatHost) (key : String) (loss : Loss) (condition : Value) (closed : Bool) : Bool :=
  recurse (closesNode h key loss) condition closed

/-! ## Comparisons of a lost field -/

section Closed

variable {h : FloatHost} {payload : Dict} {key : String} {loss : Loss} {condition : Value}
  {kvs : Dict}

theorem get_lose_ne {k : String} (hk : k ≠ key) : (lose payload key loss).get k = payload.get k := by
  cases loss with
  | deleted =>
    have hlookup : (payload.filter fun kv => kv.1 != key).lookup k = payload.lookup k := by
      induction payload with
      | nil => rfl
      | cons kv payload ih =>
        obtain ⟨k', v⟩ := kv
        by_cases hk' : k' = key
        · have hne : (k == k') = false := by
            rw [hk']
            simpa using hk
          rw [List.filter_cons_of_neg (by simpa using hk'), ih, List.lookup_cons, hne]
        · rw [List.filter_cons_of_pos (by simpa using hk'), List.lookup_cons, List.lookup_cons, ih]
    rw [lose, Dict.get, hlookup, Dict.get]
  | malformed v => rw [lose, Dict.get_insert, if_neg hk]

theorem get_deleted : (lose payload key .deleted).get key = .none := by
  have hlookup : (payload.filter fun kv => kv.1 != key).lookup key = none := by
    rw [List.lookup_eq_none_iff]
    intro kv hkv
    have hne := (List.mem_filter.mp hkv).2
    rw [bne_iff_ne] at hne
    simpa using Ne.symm hne
  rw [lose, Dict.get, hlookup]
  rfl

/-- The lost field is no finite number. -/
theorem finiteFloat_lose (hloss : loss.Malforms h payload key) :
    finiteFloat h ((lose payload key loss).get key) = false := by
  cases loss with
  | deleted =>
    rw [get_deleted]
    rfl
  | malformed v =>
    rw [lose, Dict.get_insert, if_pos rfl]
    exact hloss.2

theorem eq_fin {x : Double} {q : ℚ} (hx : Double.eq x (.fin q) = true) : x = .fin q := by
  cases x with
  | nan => cases hx
  | inf neg => cases hx
  | fin r => rw [show r = q from by simpa [Double.eq] using hx]

theorem finiteFloat_eq_true {v : Value} (hv : finiteFloat h v = true) :
    ∃ q, toFloat h v = .ok (.fin q) := by
  unfold finiteFloat at hv
  split at hv
  · next x hx =>
    cases x with
    | nan => cases hv
    | inf neg => cases hv
    | fin q => exact ⟨q, hx⟩
  · cases hv

/-- The float of a number that is finite is the number, except for a large integer. -/
theorem number_of_finite {v : Value} {x : Double} (hx : number h v = some x)
    (hv : finiteFloat h v = true) : ∃ q, x = .fin q ∧ ∀ n : ℤ, q = n →
      finiteFloat h (.int n) = true := by
  obtain ⟨q, hq⟩ := finiteFloat_eq_true hv
  have hint : ∀ n : ℤ, Double.ofRat n = .fin n → finiteFloat h (.int n) = true := by
    intro n hn
    rw [finiteFloat, toFloat, hn]
    rfl
  cases v with
  | bool b =>
    obtain rfl := Option.some.inj hx
    refine ⟨_, rfl, fun n hn => hint n ?_⟩
    cases b with
    | false =>
      obtain rfl : n = 0 := by exact_mod_cast hn.symm
      decide +kernel
    | true =>
      obtain rfl : n = 1 := by exact_mod_cast hn.symm
      decide +kernel
  | int m =>
    obtain rfl := Option.some.inj hx
    refine ⟨_, rfl, fun n hn => ?_⟩
    obtain rfl : m = n := by exact_mod_cast hn
    exact hv
  | float r t =>
    have hread : h.floatOfText r = some x := hx
    have hfin : x = .fin q := by
      have hok : toFloat h (.float r t) = .ok x := by rw [toFloat, hread, Option.getD_some]
      rw [hok] at hq
      exact Except.ok.inj hq
    refine ⟨q, hfin, fun n hn => hint n (h.float_int r n ?_)⟩
    rw [hread, hfin, hn]
  | _ => cases hx

/-- What is equal to a finite number is one. -/
theorem finiteFloat_of_pyEq {v target : Value} (heq : pyEq h v target = true)
    (htarget : finiteFloat h target = true) : finiteFloat h v = true := by
  have hnumber : pyEq h v target = numberEq h v target → finiteFloat h v = true := by
    intro hboth
    rw [hboth, numberEq] at heq
    split at heq
    · next x y hx hy =>
      obtain ⟨q, rfl, hint⟩ := number_of_finite hy htarget
      obtain rfl := eq_fin heq
      cases v with
      | bool b => rfl
      | int n => exact hint n (Double.fin.inj (Option.some.inj hx)).symm
      | float r t =>
        have hread : h.floatOfText r = some (.fin q) := hx
        simp [finiteFloat, toFloat, hread, Double.isFinite]
      | _ => cases hx
    · cases heq
  cases v with
  | str a =>
    cases target with
    | str b =>
      obtain rfl : a = b := by simpa [pyEq] using heq
      exact htarget
    | _ => exact hnumber (by simp [pyEq])
  | none =>
    cases target with
    | none => cases htarget
    | _ => exact hnumber (by simp [pyEq])
  | list xs =>
    cases target with
    | list ys => cases htarget
    | _ => exact hnumber (by simp [pyEq])
  | dict xs =>
    cases target with
    | dict ys => cases htarget
    | _ => exact hnumber (by simp [pyEq])
  | _ => exact hnumber (by simp [pyEq])

theorem pyEq_none (target : Value) :
    pyEq h .none target = true ↔ target = .none := by
  cases target <;> simp [pyEq, numberEq, number]

/-- A lost field is not equal to a value that is apart from it. -/
theorem pyEq_lose (hloss : loss.Malforms h payload key) {target : Value}
    (hapart : apart h target loss = true) :
    pyEq h ((lose payload key loss).get key) target = false := by
  by_contra heq
  have heq : pyEq h ((lose payload key loss).get key) target = true := by simpa using heq
  have hlost := finiteFloat_lose hloss
  cases loss with
  | deleted =>
    have hnone : (lose payload key .deleted).get key = .none := get_deleted
    rw [hnone] at heq
    rw [(pyEq_none target).mp heq] at hapart
    cases hapart
  | malformed v =>
    rw [finiteFloat_of_pyEq heq hapart] at hlost
    cases hlost

theorem leafHolds_ordering {op : String} (hop : op ∈ orderings) {value target : Value}
    (hvalue : finiteFloat h value = false) : leafHolds h op value target = false := by
  unfold leafHolds
  rw [if_pos hop]
  cases hleft : toFloat h value with
  | error e => rfl
  | ok left =>
    have hinfinite : left.isFinite = false := by simpa [finiteFloat, hleft] using hvalue
    cases toFloat h target with
    | error e => rfl
    | ok right => simp [hinfinite]

/-- A comparison of the lost field that closes is false, one that opens is true. -/
theorem leafHolds_lose (hloss : loss.Malforms h payload key) {op : String} {target : Value}
    {closed : Bool} (hcloses : leafCloses h loss op target closed = true) :
    leafHolds h op ((lose payload key loss).get key) target = !closed := by
  cases closed with
  | false =>
    obtain ⟨hop, hapart⟩ := Bool.and_eq_true_iff.mp hcloses
    obtain rfl : op = "ne" := by simpa using hop
    have hne : "ne" ∉ orderings := by decide
    rw [leafHolds, if_neg hne, if_pos rfl, pyEq_lose hloss hapart]
  | true =>
    by_cases hop : op ∈ orderings
    · exact leafHolds_ordering hop (finiteFloat_lose hloss)
    · simp only [leafCloses, if_true, hop, decide_false, Bool.false_or, Bool.or_eq_true,
        Bool.and_eq_true, beq_iff_eq] at hcloses
      rcases hcloses with ⟨rfl, hapart⟩ | ⟨rfl, hdeleted⟩
      · simp [leafHolds, orderings, pyEq_lose hloss hapart]
      · cases loss with
        | deleted =>
          rw [get_deleted]
          rfl
        | malformed v => cases hdeleted

/-! ## Outcomes -/

/-- The outcome does not turn into `closed` where it was the opposite. -/
def Turns (closed : Bool) (before after : Except Raised Bool) : Prop :=
  before = .ok (!closed) ∧ after = .ok closed

/-- If none of the results turns, neither does what they decide. -/
theorem not_turns_stopAt {stop closed : Bool} {before after : List (Except Raised Bool)}
    (hall : List.Forall₂ (fun r r' => ¬ Turns closed r r') before after) :
    ¬ Turns closed (stopAt stop before) (stopAt stop after) := by
  induction hall with
  | nil =>
    rintro ⟨hbefore, hafter⟩
    have hsame : (!closed) = closed := by
      rw [← Except.ok.inj hbefore, Except.ok.inj hafter]
    cases closed <;> cases hsame
  | @cons r r' rs rs' hr _ ih =>
    rintro ⟨hbefore, hafter⟩
    cases r with
    | error e => cases hbefore
    | ok b =>
      cases r' with
      | error e => cases hafter
      | ok b' =>
        simp only [stopAt] at hbefore hafter
        split at hbefore
        · next hb =>
          -- the result that decided before is the opposite of `closed`, and so it stays
          have hstop := Except.ok.inj hbefore
          split at hafter
          · rw [Except.ok.inj hafter] at hstop
            cases closed <;> cases hstop
          · next hb' =>
            refine hr ⟨by rw [hb, hstop], ?_⟩
            rw [hstop] at hb'
            cases closed <;> cases b' <;> simp_all
        · next hb =>
          split at hafter
          · next hb' =>
            have hstop := Except.ok.inj hafter
            refine hr ⟨?_, by rw [hb', hstop]⟩
            rw [hstop] at hb
            cases closed <;> cases b <;> simp_all
          · exact ih ⟨hbefore, hafter⟩

theorem fieldValue_of_isText {v : Value} (hkey : isText v key = true)
    (hfield : strip (textOr h.toHost v "") ≠ "") :
    fieldValue payload v = .ok (payload.get key) := by
  cases v with
  | str k =>
    obtain rfl : k = key := by simpa [isText] using hkey
    have hne : k ≠ "" := by
      rintro rfl
      exact hfield rfl
    simp [fieldValue, getAny, hne]
  | _ => cases hkey

/-- Other fields are read as before. -/
theorem fieldValue_lose {v : Value} (hkey : isText v key = false) :
    fieldValue (lose payload key loss) v = fieldValue payload v := by
  unfold fieldValue getAny
  cases v with
  | str k =>
    have hk : k ≠ key := by simpa [isText] using hkey
    simp only [get_lose_ne hk]
  | _ => rfl

theorem closes_dict (kvs : Dict) (closed : Bool) :
    closes h key loss (.dict kvs) closed = closesNode h key loss (.dict kvs)
      ⟨((kvs.lookup "conditions").bind asList?).map (List.map (closes h key loss)),
        (kvs.lookup "condition").map (closes h key loss)⟩ closed :=
  congrFun (recurse_dict _ kvs) closed

theorem not_turns_of_closes (hloss : loss.Malforms h payload key) (n : ℕ) :
    ∀ {condition : Value} {depth : ℕ} {closed : Bool}, depth + n = 9 →
      validateCondition h condition depth = [] → closes h key loss condition closed = true →
      ¬ Turns closed (evaluate h payload condition)
        (evaluate h (lose payload key loss) condition) := by
  -- by induction on the levels that acceptance still allows
  induction n with
  | zero =>
    intro condition depth closed hdepth hvalid
    have hle := (accepted_of_valid hvalid).1
    omega
  | succ n ih =>
    intro condition depth closed hdepth hvalid hcloses
    obtain ⟨_, kvs, rfl, haccepted⟩ := accepted_of_valid hvalid
    have hnext : depth + 1 + n = 9 := by omega
    rintro ⟨hbefore, hafter⟩
    -- the outcome before the loss is a boolean, so the condition is plain
    have hplain : plain (.dict kvs) = true := by
      by_contra hnot
      rw [evaluate_dict] at hbefore
      have hnot : plain (.dict kvs) = false := by simpa using hnot
      obtain ⟨e, he⟩ := error_of_not_plain h payload hnot _
      rw [he] at hbefore
      cases hbefore
    rw [closes_dict] at hcloses
    unfold closesNode at hcloses
    dsimp only at hcloses
    cases haccepted with
    | quantified stop cs hop hcs hvalid =>
      rw [evaluate_quantified hplain hop hcs] at hbefore hafter
      have hchildren : ∀ c ∈ cs, closes h key loss c closed = true := by
        have hquantified : (if stop then "or" else "and") = "and" ∨
            (if stop then "or" else "and") = "or" := by cases stop <;> simp
        rw [hop, if_pos hquantified, hcs] at hcloses
        simpa [asList?] using hcloses
      refine not_turns_stopAt ?_ ⟨hbefore, hafter⟩
      rw [List.forall₂_map_left_iff, List.forall₂_map_right_iff, List.forall₂_same]
      intro c hc
      exact ih hnext (hvalid c hc) (hchildren c hc)
    | negated c hop hc hvalid =>
      rw [evaluate_negated hplain hop hc] at hbefore hafter
      have hchild : closes h key loss c (!closed) = true := by
        rw [hop, hc] at hcloses
        simpa using hcloses
      -- under a `not` the child has to close the other way
      have hflip : ∀ {r : Except Raised Bool} {b : Bool}, r.map not = .ok b → r = .ok !b := by
        intro r b hr
        obtain ⟨a, rfl, rfl⟩ := map_ok.mp hr
        rw [Bool.not_not]
      exact ih hnext hvalid hchild ⟨hflip hbefore, hflip hafter⟩
    | leaf op hop hknown hcompares hfield hvalue =>
      obtain ⟨_, value, hread⟩ := read_of_plain h payload hplain
      obtain ⟨_, value', hread'⟩ := read_of_plain h (lose payload key loss) hplain
      rw [evaluate_leaf hplain hop hknown hcompares hfield hread] at hbefore
      rw [evaluate_leaf hplain hop hknown hcompares hfield hread'] at hafter
      have hopposite : (!closed) ≠ closed := by cases closed <;> exact Bool.noConfusion
      by_cases hkey : isText (Dict.get kvs "field") key = true
      · -- a comparison of the lost field
        have hleaf : leafCloses h loss op (Dict.get kvs "value") closed = true := by
          simpa [hop, hcompares, hkey] using hcloses
        have hlost := leafHolds_lose hloss hleaf
        have hvalue' : value' = (lose payload key loss).get key :=
          Except.ok.inj (hread'.symm.trans (fieldValue_of_isText hkey hfield))
        rw [hvalue', hlost] at hafter
        exact hopposite (Except.ok.inj hafter)
      · -- a comparison of another field does not see the loss
        have hsame : value' = value := by
          rw [fieldValue_lose (by simpa using hkey)] at hread'
          exact Except.ok.inj (hread'.symm.trans hread)
        rw [hsame] at hafter
        rw [Except.ok.inj hbefore] at hafter
        exact hopposite (Except.ok.inj hafter)

/-- Losing a field does not turn the outcome of an accepted condition from false to true, if
every comparison of the field closes. -/
theorem fail_closed (hvalid : validateCondition h condition 0 = [])
    (hloss : loss.Malforms h payload key) (hcloses : closes h key loss condition true = true)
    (hfalse : evaluate h payload condition = .ok false) :
    evaluate h (lose payload key loss) condition ≠ .ok true := by
  intro htrue
  exact not_turns_of_closes hloss 9 rfl hvalid hcloses ⟨hfalse, htrue⟩

end Closed

/-! ## The drawdown rule -/

/-- Without its drawdown the rule does not hold. -/
theorem drawdown_closes :
    validateCondition .digits drawdown 0 = [] ∧
      (Loss.malformed (.str "n/a")).Malforms .digits [("drawdown", .int 3)] "drawdown" ∧
      closes .digits "drawdown" (.malformed (.str "n/a")) drawdown true = true ∧
      evaluate .digits [("drawdown", .int 3)] drawdown = .ok false ∧
      evaluate .digits (lose [("drawdown", .int 3)] "drawdown" (.malformed (.str "n/a")))
        drawdown ≠ .ok true := by
  have hvalid : validateCondition .digits drawdown 0 = [] := by decide +kernel
  have hloss : (Loss.malformed (.str "n/a")).Malforms .digits [("drawdown", .int 3)]
      "drawdown" := ⟨by decide +kernel, by decide +kernel⟩
  have hcloses : closes .digits "drawdown" (.malformed (.str "n/a")) drawdown true = true := by
    decide +kernel
  have hfalse : evaluate .digits [("drawdown", .int 3)] drawdown = .ok false := by decide +kernel
  exact ⟨hvalid, hloss, hcloses, hfalse, fail_closed hvalid hloss hcloses hfalse⟩

/-- A drawdown that is not above 5. -/
def calm : Value :=
  .dict [("op", .str "not"),
    ("condition", .dict [("field", .str "drawdown"), ("op", .str "gt"), ("value", .int 5)])]

/-- Under a `not`, a number that is deleted or replaced turns the outcome from false to true. -/
theorem negation_opens :
    validateCondition .digits calm 0 = [] ∧
      evaluate .digits [("drawdown", .int 7)] calm = .ok false ∧
      evaluate .digits (lose [("drawdown", .int 7)] "drawdown" .deleted) calm = .ok true ∧
      (Loss.malformed (.str "n/a")).Malforms .digits [("drawdown", .int 7)] "drawdown" ∧
      evaluate .digits (lose [("drawdown", .int 7)] "drawdown" (.malformed (.str "n/a"))) calm =
        .ok true :=
  ⟨by decide +kernel, by decide +kernel, by decide +kernel,
    ⟨by decide +kernel, by decide +kernel⟩, by decide +kernel⟩

end AlgoBot.Automation.Conditions
