import AlgoBot.Core.Machine
import AlgoBot.Portfolios.Models

/-!
# Portfolio allocations

`AllocationService.allocate` checks the targets of one call and upserts them. A
percentage column has six decimals, so a percentage is a number of millionths.

* `total_persist`: after the upserts a portfolio has the percentages of the call and
  of the rows the call does not name.
* `total_allocate_iff`: the percentages stay within 100 all along a sequence of calls
  exactly if each call that is not refused leaves room for the rows it does not name.
  `total_exceeds` shows two calls that do not.
-/

namespace AlgoBot.Portfolios

open AlgoBot.Core AlgoBot.Python

/-! ## The table -/

/-- What an allocation of a portfolio is identified by. -/
abbrev Identity := String × String

def PortfolioAllocation.identity (a : PortfolioAllocation) : Identity := (a.strategy, a.symbol)

/-- Two rows for one strategy and symbol of a portfolio. -/
def SameTarget (a b : PortfolioAllocation) : Prop :=
  a.portfolio = b.portfolio ∧ a.identity = b.identity

theorem SameTarget.symm (a b : PortfolioAllocation) (h : SameTarget a b) : SameTarget b a :=
  ⟨h.1.symm, h.2.symm⟩

/-- The table, with `unique_together = [("portfolio", "strategy", "symbol")]`. -/
structure Allocations where
  table : Table PortfolioAllocation
  unique : Table.Unique SameTarget table

/-- The table without rows. -/
def Allocations.empty : Allocations := ⟨Table.empty, Table.unique_empty SameTarget⟩

/-- What a call may raise. -/
inductive Failure where
  | AllocationError (message : String)
  | InvalidOperation
  | TypeError
  | DataError
deriving DecidableEq, Repr

/-- One hundred percent. -/
def hundred : ℕ := 100 * 10 ^ 6

/-! ## The checks -/

/-- `AllocationService.METHODS`. -/
def METHODS : List String := ["percentage", "equal_weight"]

/-- `_decimal`. -/
def decimal (h : Host) (value : Value) (field : String) (maximum : Option ℕ) :
    Except Failure Dec :=
  match decimalOfText h (value.toStr h) with
  | none => .error (.AllocationError (field ++ " must be a finite number."))
  | some result =>
    let bound :=
      match maximum with
      | some m => " between 0 and " ++ toString m
      | none => " greater than or equal to 0"
    let inside :=
      match result with
      | .finite neg coeff exp => !(neg && coeff != 0) && maximum.all fun m => Dec.atMost m coeff exp
      | _ => false
    if inside then .ok result
    else .error (.AllocationError (field ++ " must be" ++ bound ++ "."))

/-- `quantize(Decimal("0.000001"))`. -/
def quantize : Dec → Except Failure ℕ
  | .finite _ coeff exp =>
    let c := Dec.unitsAt 6 coeff exp
    if Dec.prec < Dec.numDigits c then .error .InvalidOperation else .ok c
  | _ => .error .InvalidOperation

/-- An entry of `clean_targets`. -/
structure Clean where
  strategy : String
  symbol : String
  allocation_percent : ℕ
  risk_budget : ℕ
deriving DecidableEq

def Clean.identity (c : Clean) : Identity := (c.strategy, c.symbol)

/-- The name of a field in a message. -/
def fieldOf (index : ℕ) (field : String) : String := "targets[" ++ toString index ++ "]." ++ field

section Allocate

variable (h : Host)

/-- The checks of one target, after the identities `seen`. -/
def cleanTarget (index : ℕ) (seen : List Identity) (target : Dict) : Except Failure Clean :=
  match target.getD "strategy" (.str ""), target.getD "symbol" (.str "") with
  | .str strategy, .str symbol =>
    let strategy := strip strategy
    let symbol := strip symbol
    if 160 < strategy.length ∨ 40 < symbol.length then
      .error (.AllocationError "Strategy or symbol exceeds the supported length.")
    else if (strategy, symbol) ∈ seen then
      .error (.AllocationError "Duplicate strategy/symbol allocation targets are not allowed.")
    else do
      let pct ← decimal h (target.getD "allocation_percent" (.int 0))
        (fieldOf index "allocation_percent") (some 100)
      let pct ← quantize pct
      let risk_budget ← decimal h (target.getD "risk_budget" (.int 0))
        (fieldOf index "risk_budget") (some 100)
      let risk_budget ← quantize risk_budget
      return ⟨strategy, symbol, pct, risk_budget⟩
  | _, _ => .error (.AllocationError "Strategy and symbol must be text.")

/-- The loop over the targets. -/
def cleanTargets : ℕ → List Identity → List Dict → Except Failure (List Clean)
  | _, _, [] => .ok []
  | index, seen, target :: targets => do
    let clean ← cleanTarget h index seen target
    let cleaned ← cleanTargets (index + 1) (clean.identity :: seen) targets
    return clean :: cleaned

/-- The weights of the `equal_weight` method: rounded down, and the rest for the last target. -/
def equalWeight (targets : List Clean) : List Clean :=
  let weight := hundred / targets.length
  (targets.dropLast.map fun t => { t with allocation_percent := weight }) ++
    targets.getLast?.toList.map fun t =>
      { t with allocation_percent := hundred - weight * (targets.length - 1) }

/-- What the percentages of some targets add up to. -/
def sumPercent (targets : List Clean) : ℕ := (targets.map Clean.allocation_percent).sum

/-- `method in METHODS`; a list or a dict cannot be looked up in a set. -/
def supported : Value → Except Failure Bool
  | .str method => .ok (decide (method ∈ METHODS))
  | .list _ => .error .TypeError
  | .dict _ => .error .TypeError
  | _ => .ok false

/-- The percentages by method. -/
def weigh (clean_targets : List Clean) (method : Value) : List Clean :=
  match method with
  | .str "equal_weight" => equalWeight clean_targets
  | _ => clean_targets

/-- The call up to the transaction: the targets it is about to persist. -/
def plan (targets method : Value) : Except Failure (List Clean) := do
  if ← supported method then
    match targets with
    | .list [] => .error (.AllocationError "At least one allocation target is required.")
    | .list xs =>
      if xs.any fun target => !target.isDict then
        .error (.AllocationError "Each allocation target must be an object.")
      else do
        let clean_targets ← cleanTargets h 0 [] (xs.map Value.asDict)
        let clean_targets := weigh clean_targets method
        if hundred + 1 < sumPercent clean_targets then
          .error (.AllocationError "Allocation percent cannot exceed 100%.")
        else .ok clean_targets
    | _ => .error (.AllocationError "At least one allocation target is required.")
  else .error (.AllocationError "Unsupported allocation method.")

end Allocate

/-! ## The upserts -/

/-- What the decimal context and the column make of a capital; `none` where the database refuses
it. -/
structure Backend where
  capital : ℚ → Option ℚ

/-- `portfolio.net_asset_value * pct / Decimal("100")`. -/
def capitalOf (b : Backend) (portfolio : Portfolio) (target : Clean) : Option ℚ :=
  b.capital (portfolio.net_asset_value * (target.allocation_percent / 10 ^ 6) / 100)

/-- The row of an identity. -/
def Allocations.find (s : Allocations) (portfolio : ℕ) (i : Identity) :
    Option PortfolioAllocation :=
  s.table.find? fun a => a.portfolio == portfolio && a.identity == i

/-- The row a target becomes, under a primary key. -/
def rowOf (portfolio : Portfolio) (method : Value) (target : Clean) (capital : ℚ) (pk : ℕ) :
    PortfolioAllocation where
  pk := pk
  portfolio := portfolio.pk
  strategy := target.strategy
  symbol := target.symbol
  allocation_percent := target.allocation_percent
  allocated_capital := capital
  risk_budget := target.risk_budget
  metadata := [("method", method)]

section Persist

variable {s : Allocations} {portfolio : ℕ} {i : Identity} {a : PortfolioAllocation}

theorem Allocations.find_spec (h : s.find portfolio i = some a) :
    a ∈ s.table ∧ a.portfolio = portfolio ∧ a.identity = i := by
  have hrow := Table.of_find? h
  rw [Bool.and_eq_true, beq_iff_eq, beq_iff_eq] at hrow
  exact ⟨Table.mem_of_find? h, hrow.1, hrow.2⟩

theorem Allocations.find_none (h : s.find portfolio i = none) (ha : a ∈ s.table)
    (hp : a.portfolio = portfolio) : a.identity ≠ i := by
  intro hi
  have hrow := Table.not_of_find?_none h ha
  simp [hp, hi] at hrow

/-- Overwrite a row with one of the same key and identity. -/
def Allocations.overwrite (s : Allocations) (old new : PortfolioAllocation) (hold : old ∈ s.table)
    (hpk : new.pk = old.pk) (hsame : SameTarget new old) : Allocations where
  table := s.table.set new
  unique := by
    refine s.unique.set SameTarget.symm ?_
    intro q hq hk hclash
    have hqold : SameTarget q old := ⟨hclash.1.trans hsame.1, hclash.2.trans hsame.2⟩
    rw [s.unique q hq old hold hqold] at hk
    exact hk hpk.symm

/-- Insert a row of an identity that has none. -/
def Allocations.insert (s : Allocations) (new : ℕ → PortfolioAllocation)
    (hpk : ∀ k, HasPk.pk (new k) = k)
    (hnew : ∀ k, s.find (new k).portfolio (new k).identity = none) : Allocations where
  table := s.table.create new hpk
  unique := by
    refine s.unique.create SameTarget.symm hpk ?_
    intro q hq hclash
    exact find_none (hnew s.table.nextPk) hq hclash.1 hclash.2

end Persist

/-- `update_or_create` of one target; the object and the table. -/
def upsert (b : Backend) (portfolio : Portfolio) (method : Value) (s : Allocations)
    (target : Clean) : Except Failure (PortfolioAllocation × Allocations) :=
  match capitalOf b portfolio target with
  | none => .error .DataError
  | some capital =>
    let new := rowOf portfolio method target capital
    match hfind : s.find portfolio.pk target.identity with
    | some old =>
      have hold := Allocations.find_spec hfind
      .ok (new old.pk, s.overwrite old (new old.pk) hold.1 rfl ⟨hold.2.1.symm, hold.2.2.symm⟩)
    | none => .ok (new s.table.nextPk, s.insert new (fun _ => rfl) fun _ => hfind)

/-- The loop in the transaction. -/
def persist (b : Backend) (portfolio : Portfolio) (method : Value) :
    Allocations → List Clean → Except Failure (List PortfolioAllocation × Allocations)
  | s, [] => .ok ([], s)
  | s, target :: targets => do
    let (obj, s) ← upsert b portfolio method s target
    let (created, s) ← persist b portfolio method s targets
    return (obj :: created, s)

/-- `AllocationService.allocate`. -/
def allocate (h : Host) (b : Backend) (s : Allocations) (portfolio : Portfolio)
    (targets method : Value) : Except Failure (List PortfolioAllocation × Allocations) := do
  let clean_targets ← plan h targets method
  persist b portfolio method s clean_targets

/-! ## Sums of percentages -/

/-- The percentages of a portfolio. -/
def total (s : Allocations) (p : ℕ) : ℕ :=
  s.table.sum fun a => if a.portfolio = p then a.allocation_percent else 0

/-- The percentages of a portfolio in rows of other identities. -/
def kept (s : Allocations) (p : ℕ) (is : List Identity) : ℕ :=
  s.table.sum fun a => if a.portfolio = p ∧ a.identity ∉ is then a.allocation_percent else 0

section Sums

variable {b : Backend} {portfolio : Portfolio} {method : Value} {s s' : Allocations}
  {target : Clean} {obj : PortfolioAllocation} {p : ℕ} {is : List Identity}

theorem total_eq_kept (s : Allocations) (p : ℕ) : total s p = kept s p [] := by
  apply Table.sum_congr
  intro a _
  simp

/-- The row of an identity is what setting the identity aside takes from the sum. -/
theorem kept_cons_of_mem {a : PortfolioAllocation} (ha : a ∈ s.table) (hp : a.portfolio = p)
    (his : a.identity ∉ is) :
    kept s p is = kept s p (a.identity :: is) + a.allocation_percent := by
  let f : PortfolioAllocation → ℕ := fun r =>
    if r.portfolio = p ∧ r.identity ∉ is then r.allocation_percent else 0
  let g : PortfolioAllocation → ℕ := fun r =>
    if r.portfolio = p ∧ r.identity ∉ a.identity :: is then r.allocation_percent else 0
  have hother : ∀ r ∈ s.table, r ≠ a → f r = g r := by
    intro r hr hne
    have hid : r.portfolio = p → r.identity ≠ a.identity := by
      intro hrp hri
      exact hne (s.unique r hr a ha ⟨hrp.trans hp.symm, hri⟩)
    by_cases hrp : r.portfolio = p
    · simp [f, g, hrp, hid hrp]
    · simp [f, g, hrp]
  have hsum := Table.sum_except f ha hother
  have hf : f a = a.allocation_percent := if_pos ⟨hp, his⟩
  have hg : g a = 0 := if_neg (by simp)
  rw [hf, hg, Nat.add_zero] at hsum
  exact hsum

/-- An identity without a row takes nothing. -/
theorem kept_cons_of_find_none {i : Identity} (h : s.find p i = none) :
    kept s p is = kept s p (i :: is) := by
  apply Table.sum_congr
  intro r hr
  by_cases hrp : r.portfolio = p
  · simp [hrp, Allocations.find_none h hr hrp]
  · simp [hrp]

/-- An upsert adds its percentage to those of the rows it does not overwrite. -/
theorem kept_upsert (h : upsert b portfolio method s target = .ok (obj, s'))
    (his : target.identity ∉ is) :
    kept s' portfolio.pk is =
      kept s portfolio.pk (target.identity :: is) + target.allocation_percent := by
  unfold upsert at h
  split at h
  · cases h
  · next capital _ =>
    dsimp only at h
    split at h
    · next old hfind =>
      cases h
      rcases Allocations.find_spec hfind with ⟨hmem, hp, hi⟩
      let new := rowOf portfolio method target capital old.pk
      let f : PortfolioAllocation → ℕ := fun r =>
        if r.portfolio = portfolio.pk ∧ r.identity ∉ is then r.allocation_percent else 0
      have hget : s.table.get? (HasPk.pk new) = some old := Table.get?_pk hmem
      have hset : (s.table.set new).sum f + f old = s.table.sum f + f new := Table.sum_set f hget
      have hkept := kept_cons_of_mem hmem hp (by rwa [hi])
      have hfold : f old = old.allocation_percent := if_pos ⟨hp, by rwa [hi]⟩
      have hfnew : f new = target.allocation_percent := if_pos ⟨rfl, his⟩
      have hsum : s.table.sum f = kept s portfolio.pk is := rfl
      rw [hfold, hfnew, hsum, hkept, hi] at hset
      change (s.table.set new).sum f = _
      omega
    · next hfind =>
      cases h
      let new := rowOf portfolio method target capital
      let f : PortfolioAllocation → ℕ := fun r =>
        if r.portfolio = portfolio.pk ∧ r.identity ∉ is then r.allocation_percent else 0
      have hcreate : (s.table.create new fun _ => rfl).sum f = _ := Table.sum_create f _
      have hfnew : f (new s.table.nextPk) = target.allocation_percent := if_pos ⟨rfl, his⟩
      have hsum : s.table.sum f = kept s portfolio.pk is := rfl
      rw [hfnew, hsum, kept_cons_of_find_none hfind, Nat.add_comm] at hcreate
      exact hcreate

/-- The upserts leave the rows of other portfolios alone. -/
theorem total_upsert_ne (h : upsert b portfolio method s target = .ok (obj, s'))
    (hp : portfolio.pk ≠ p) : total s' p = total s p := by
  unfold upsert at h
  split at h
  · cases h
  · next capital _ =>
    dsimp only at h
    split at h
    · next old hfind =>
      cases h
      rcases Allocations.find_spec hfind with ⟨hmem, hold, _⟩
      let new := rowOf portfolio method target capital old.pk
      let f : PortfolioAllocation → ℕ := fun r =>
        if r.portfolio = p then r.allocation_percent else 0
      have hget : s.table.get? (HasPk.pk new) = some old := Table.get?_pk hmem
      have hset : (s.table.set new).sum f + f old = s.table.sum f + f new := Table.sum_set f hget
      have hfold : f old = 0 := if_neg (by rwa [hold])
      have hfnew : f new = 0 := if_neg hp
      rw [hfold, hfnew] at hset
      exact hset
    · next hfind =>
      cases h
      let new := rowOf portfolio method target capital
      let f : PortfolioAllocation → ℕ := fun r =>
        if r.portfolio = p then r.allocation_percent else 0
      have hcreate : (s.table.create new fun _ => rfl).sum f = _ := Table.sum_create f _
      have hfnew : f (new s.table.nextPk) = 0 := if_neg hp
      rw [hfnew, Nat.zero_add] at hcreate
      exact hcreate

/-- After the upserts of a call its portfolio has the percentages of the call and those of the
rows the call does not name. -/
theorem total_persist {targets : List Clean} {created : List PortfolioAllocation}
    (h : persist b portfolio method s targets = .ok (created, s'))
    (hnodup : (targets.map Clean.identity).Nodup) :
    total s' portfolio.pk =
      kept s portfolio.pk (targets.map Clean.identity) + sumPercent targets := by
  induction targets generalizing s created with
  | nil =>
    cases h
    exact total_eq_kept _ portfolio.pk
  | cons target targets ih =>
    unfold persist at h
    rcases bind_ok.mp h with ⟨⟨obj, s₁⟩, hupsert, h⟩
    rcases bind_ok.mp h with ⟨⟨objs, s₂⟩, hrest, h⟩
    cases h
    rw [List.map_cons, List.nodup_cons] at hnodup
    rw [ih hrest hnodup.2, kept_upsert hupsert hnodup.1]
    simp only [sumPercent, List.map_cons, List.sum_cons]
    omega

theorem total_persist_ne {targets : List Clean} {created : List PortfolioAllocation}
    (h : persist b portfolio method s targets = .ok (created, s')) (hp : portfolio.pk ≠ p) :
    total s' p = total s p := by
  induction targets generalizing s created with
  | nil =>
    cases h
    rfl
  | cons target targets ih =>
    unfold persist at h
    rcases bind_ok.mp h with ⟨⟨obj, s₁⟩, hupsert, h⟩
    rcases bind_ok.mp h with ⟨⟨objs, s₂⟩, hrest, h⟩
    cases h
    rw [ih hrest, total_upsert_ne hupsert hp]

end Sums

/-! ## What a call asks for -/

/-- The text of a name field, without the blanks around it. -/
def nameOf : Value → String
  | .str s => strip s
  | _ => ""

/-- The identity a target names. -/
def identityOf (target : Dict) : Identity :=
  (nameOf (target.getD "strategy" (.str "")), nameOf (target.getD "symbol" (.str "")))

/-- The percentage a target names, to the nearest millionth. -/
def percentOf (h : Host) (target : Dict) : ℕ :=
  match decimalOfText h ((target.getD "allocation_percent" (.int 0)).toStr h) with
  | some (.finite _ coeff exp) => Dec.unitsAt 6 coeff exp
  | _ => 0

/-- The targets of a call, as far as they are objects. -/
def objects : Value → List Dict
  | .list xs => xs.map Value.asDict
  | _ => []

/-- What a call asks for: all of the portfolio, or the percentages of its targets. -/
def requested (h : Host) (targets method : Value) : ℕ :=
  match method with
  | .str "equal_weight" => hundred
  | _ => ((objects targets).map (percentOf h)).sum

section Plan

variable {h : Host} {index : ℕ} {seen : List Identity} {target : Dict} {clean : Clean}

/-- What passes the two number functions is the percentage read to the nearest millionth. -/
theorem quantize_decimal {value : Value} {field : String} {maximum : Option ℕ} {d : Dec} {n : ℕ}
    (hd : decimal h value field maximum = .ok d) (hq : quantize d = .ok n) :
    ∃ neg coeff exp, decimalOfText h (value.toStr h) = some (.finite neg coeff exp) ∧
      n = Dec.unitsAt 6 coeff exp := by
  unfold decimal at hd
  split at hd
  · cases hd
  · next result hresult =>
    dsimp only at hd
    split_ifs at hd
    cases hd
    unfold quantize at hq
    split at hq
    · next neg coeff exp _ =>
      dsimp only at hq
      split_ifs at hq
      cases hq
      exact ⟨neg, coeff, exp, hresult, rfl⟩
    · cases hq

theorem cleanTarget_spec (hok : cleanTarget h index seen target = .ok clean) :
    clean.identity = identityOf target ∧ clean.identity ∉ seen ∧
      clean.allocation_percent = percentOf h target := by
  unfold cleanTarget at hok
  split at hok
  · next strategy symbol hstrategy hsymbol =>
    dsimp only at hok
    split at hok
    · cases hok
    · split at hok
      · cases hok
      · next hseen =>
        rcases bind_ok.mp hok with ⟨pct, hpct, hok⟩
        rcases bind_ok.mp hok with ⟨units, hunits, hok⟩
        rcases bind_ok.mp hok with ⟨risk, _, hok⟩
        rcases bind_ok.mp hok with ⟨budget, _, hok⟩
        cases hok
        rcases quantize_decimal hpct hunits with ⟨neg, coeff, exp, hread, hn⟩
        refine ⟨?_, hseen, ?_⟩
        · simp [Clean.identity, identityOf, nameOf, hstrategy, hsymbol]
        · simp [percentOf, hread, hn]
  · cases hok

theorem cleanTargets_spec {targets : List Dict} {cleaned : List Clean}
    (hok : cleanTargets h index seen targets = .ok cleaned) :
    cleaned.map Clean.identity = targets.map identityOf ∧
      (cleaned.map Clean.identity).Nodup ∧
      (∀ i ∈ cleaned.map Clean.identity, i ∉ seen) ∧
      sumPercent cleaned = (targets.map (percentOf h)).sum := by
  induction targets generalizing index seen cleaned with
  | nil =>
    cases hok
    simp [sumPercent]
  | cons target targets ih =>
    unfold cleanTargets at hok
    rcases bind_ok.mp hok with ⟨clean, hclean, hok⟩
    rcases bind_ok.mp hok with ⟨rest, hrest, hok⟩
    cases hok
    rcases cleanTarget_spec hclean with ⟨hid, hfresh, hpct⟩
    rcases ih hrest with ⟨hids, hnodup, hseen, hsum⟩
    refine ⟨?_, ?_, ?_, ?_⟩
    · rw [List.map_cons, List.map_cons, hid, hids]
    · rw [List.map_cons, List.nodup_cons]
      refine ⟨?_, hnodup⟩
      intro hmem
      exact hseen _ hmem List.mem_cons_self
    · intro i hi
      rw [List.map_cons, List.mem_cons] at hi
      rcases hi with rfl | hi
      · exact hfresh
      · intro hiseen
        exact hseen i hi (List.mem_cons_of_mem _ hiseen)
    · rw [sumPercent, List.map_cons, List.sum_cons, List.map_cons, List.sum_cons, hpct]
      rw [sumPercent] at hsum
      rw [hsum]

/-- The equal weights name the same targets, and add up to the whole. -/
theorem equalWeight_spec {targets : List Clean} (hne : targets ≠ []) :
    (equalWeight targets).map Clean.identity = targets.map Clean.identity ∧
      sumPercent (equalWeight targets) = hundred := by
  rcases List.eq_nil_or_concat targets with rfl | ⟨front, last, rfl⟩
  · exact absurd rfl hne
  · have hle : front.length * (hundred / (front.length + 1)) ≤ hundred := by
      calc front.length * (hundred / (front.length + 1))
          ≤ (front.length + 1) * (hundred / (front.length + 1)) :=
            Nat.mul_le_mul_right _ (Nat.le_succ _)
        _ ≤ hundred := Nat.mul_div_le hundred (front.length + 1)
    constructor
    · simp [equalWeight, Function.comp_def, Clean.identity]
    · have hsum : sumPercent (equalWeight (front ++ [last])) =
          front.length * (hundred / (front.length + 1)) +
            (hundred - hundred / (front.length + 1) * front.length) := by
        simp [equalWeight, sumPercent, Function.comp_def]
      rw [List.concat_eq_append, hsum, Nat.mul_comm (hundred / (front.length + 1))]
      omega

theorem weigh_spec {targets : List Clean} (hne : targets ≠ []) (method : Value) :
    (weigh targets method).map Clean.identity = targets.map Clean.identity ∧
      (sumPercent (weigh targets method) =
        match method with
        | .str "equal_weight" => hundred
        | _ => sumPercent targets) := by
  unfold weigh
  split
  · exact equalWeight_spec hne
  · exact ⟨rfl, rfl⟩

/-- The targets a call persists are the ones it names, once each, and add up to what it asks
for. -/
theorem plan_spec {targets method : Value} {planned : List Clean}
    (hok : plan h targets method = .ok planned) :
    planned.map Clean.identity = (objects targets).map identityOf ∧
      (planned.map Clean.identity).Nodup ∧ sumPercent planned = requested h targets method := by
  unfold plan at hok
  rcases bind_ok.mp hok with ⟨known, _, hok⟩
  split at hok
  · split at hok
    · cases hok
    · next xs hxs _ =>
      split at hok
      · cases hok
      · rcases bind_ok.mp hok with ⟨cleaned, hcleaned, hok⟩
        rcases cleanTargets_spec hcleaned with ⟨hids, hnodup, _, hsum⟩
        have hne : cleaned ≠ [] := by
          rintro rfl
          have hempty : xs.map Value.asDict = [] := List.map_eq_nil_iff.mp hids.symm
          exact hxs (List.map_eq_nil_iff.mp hempty)
        rcases weigh_spec hne method with ⟨hsame, hweighed⟩
        dsimp only at hok
        split at hok
        · cases hok
        · cases hok
          refine ⟨hsame.trans hids, ?_, ?_⟩
          · rw [hsame]
            exact hnodup
          · rw [hweighed, hsum]
            rfl
    · cases hok
  · cases hok

end Plan

/-! ## Sequences of calls -/

/-- The arguments of a call. -/
structure Call where
  portfolio : Portfolio
  targets : Value
  method : Value

section Run

variable {h : Host} {b : Backend} {s : Allocations} {c : Call} {p : ℕ}

/-- The table after a call; a call that raises leaves it as it was. -/
def afterCall (h : Host) (b : Backend) (s : Allocations) (c : Call) : Allocations :=
  match allocate h b s c.portfolio c.targets c.method with
  | .ok (_, s') => s'
  | .error _ => s

/-- Calls in any order. -/
def allocator (h : Host) (b : Backend) : Machine Allocations Call :=
  ⟨fun s c => some (afterCall h b s c)⟩

/-- The call passes the checks, and the database takes the capital of each target. -/
def accepted (h : Host) (b : Backend) (c : Call) : Bool :=
  match plan h c.targets c.method with
  | .ok targets => targets.all fun t => (capitalOf b c.portfolio t).isSome
  | .error _ => false

/-- An accepted call for the portfolio leaves room for the rows it does not name. -/
def LeavesRoom (h : Host) (b : Backend) (p : ℕ) (s : Allocations) (c : Call) : Prop :=
  c.portfolio.pk = p → accepted h b c = true →
    kept s p ((objects c.targets).map identityOf) + requested h c.targets c.method ≤ hundred

/-- The transaction goes through exactly if the database takes every capital. -/
theorem persist_ok_iff {portfolio : Portfolio} {method : Value} {targets : List Clean} :
    (∃ created s', persist b portfolio method s targets = .ok (created, s')) ↔
      (targets.all fun t => (capitalOf b portfolio t).isSome) = true := by
  induction targets generalizing s with
  | nil => simp [persist]
  | cons target targets ih =>
    have hupsert : ∀ capital, capitalOf b portfolio target = some capital →
        ∃ obj s₁, upsert b portfolio method s target = .ok (obj, s₁) := by
      intro capital hcap
      cases hu : upsert b portfolio method s target with
      | ok r => exact ⟨r.1, r.2, rfl⟩
      | error e =>
        unfold upsert at hu
        rw [hcap] at hu
        dsimp only at hu
        split at hu
        · cases hu
        · cases hu
    rw [List.all_cons, Bool.and_eq_true, Option.isSome_iff_exists]
    constructor
    · rintro ⟨created, s', hok⟩
      unfold persist at hok
      rcases bind_ok.mp hok with ⟨⟨obj, s₁⟩, hu, hok⟩
      rcases bind_ok.mp hok with ⟨⟨objs, s₂⟩, hrest, _⟩
      refine ⟨?_, ih.mp ⟨objs, s₂, hrest⟩⟩
      unfold upsert at hu
      split at hu
      · cases hu
      · next capital hcap => exact ⟨capital, hcap⟩
    · rintro ⟨⟨capital, hcap⟩, hall⟩
      rcases hupsert capital hcap with ⟨obj, s₁, hu⟩
      rcases (ih (s := s₁)).mpr hall with ⟨objs, s₂, hrest⟩
      refine ⟨obj :: objs, s₂, ?_⟩
      simp [persist, hu, hrest, bind, Except.bind, pure, Except.pure]

/-- What a call leaves of a portfolio's percentages. -/
theorem total_afterCall (h : Host) (b : Backend) (s : Allocations) (c : Call) (p : ℕ) :
    total (afterCall h b s c) p =
      if c.portfolio.pk = p ∧ accepted h b c = true then
        kept s p ((objects c.targets).map identityOf) + requested h c.targets c.method
      else total s p := by
  cases hplan : plan h c.targets c.method with
  | error e => simp [afterCall, allocate, accepted, hplan, bind, Except.bind]
  | ok targets =>
    have hacc : accepted h b c =
        targets.all fun t => (capitalOf b c.portfolio t).isSome := by simp [accepted, hplan]
    have hcall : allocate h b s c.portfolio c.targets c.method =
        persist b c.portfolio c.method s targets := by simp [allocate, hplan, bind, Except.bind]
    cases hpersist : persist b c.portfolio c.method s targets with
    | error e =>
      have hnot : accepted h b c ≠ true := by
        rw [hacc]
        intro hall
        rcases (persist_ok_iff (s := s)).mpr hall with ⟨created, s', hok⟩
        rw [hpersist] at hok
        cases hok
      rw [if_neg fun hboth => hnot hboth.2]
      simp [afterCall, hcall, hpersist]
    | ok r =>
      have hyes : accepted h b c = true := by
        rw [hacc]
        exact persist_ok_iff.mp ⟨r.1, r.2, hpersist⟩
      have hafter : afterCall h b s c = r.2 := by simp [afterCall, hcall, hpersist]
      rcases plan_spec hplan with ⟨hids, hnodup, hsum⟩
      rw [hafter]
      by_cases hp : c.portfolio.pk = p
      · rw [if_pos ⟨hp, hyes⟩, ← hp, total_persist hpersist hnodup, hids, hsum]
      · rw [if_neg fun hboth => hp hboth.1, total_persist_ne hpersist hp]

/-- A call keeps the percentages of a portfolio within 100 exactly if it leaves room. -/
theorem total_afterCall_le_iff (hs : total s p ≤ hundred) :
    total (afterCall h b s c) p ≤ hundred ↔ LeavesRoom h b p s c := by
  rw [total_afterCall]
  constructor
  · intro hle hp hacc
    rwa [if_pos ⟨hp, hacc⟩] at hle
  · intro hroom
    split
    · next hboth => exact hroom hboth.1 hboth.2
    · exact hs

/-- The percentages of a portfolio stay within 100 all along a sequence of calls exactly if they
are at the start and every accepted call for it leaves room for the rows it does not name. -/
theorem total_allocate_iff (h : Host) (b : Backend) (p : ℕ) (s : Allocations) (cs : List Call) :
    Machine.RunIf.Always (allocator h b) (fun t => total t p ≤ hundred) s cs ↔
      total s p ≤ hundred ∧
        (allocator h b).RunIf (LeavesRoom h b p) s cs (cs.foldl (afterCall h b) s) := by
  have hrun : (allocator h b).Run s cs (cs.foldl (afterCall h b) s) :=
    (Machine.run_iff_foldl fun _ _ => rfl).mpr rfl
  have hstep : ∀ s c s', True → total s p ≤ hundred → (allocator h b).next s c = some s' →
      (total s' p ≤ hundred ↔ LeavesRoom h b p s c) := by
    intro s c s' _ hs hn
    cases hn
    exact total_afterCall_le_iff hs
  exact Machine.RunIf.always_iff (fun _ _ _ _ _ => trivial) hstep hrun trivial

end Run

/-- A call that gives a percentage of the first portfolio to one symbol. -/
def share (symbol percent : String) : Call where
  portfolio := ⟨1, 1000, 1000, 1000⟩
  targets := .list [.dict [("symbol", .str symbol), ("allocation_percent", .str percent)]]
  method := .str "percentage"

/-- Sixty percent for one symbol, and in the next call sixty percent for another. -/
theorem total_exceeds :
    total Allocations.empty 1 ≤ hundred ∧
    ¬ Machine.RunIf.Always (allocator Host.ascii ⟨some⟩) (fun t => total t 1 ≤ hundred)
      Allocations.empty [share "R_100" "60", share "R_75" "60"] := by
  refine ⟨by decide, ?_⟩
  intro halways
  have hlast := halways.last rfl
  revert hlast
  decide +kernel

end AlgoBot.Portfolios
