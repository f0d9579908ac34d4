import Mathlib.Tactic.Linarith
import AlgoBot.Core.Machine
import AlgoBot.Portfolios.Models

/-!
# Cash flows and the balance

`CashFlowService.record` inserts a row and then saves the balance of the portfolio
object it was given, plus the flow. Objects are read at some earlier time, and nothing
locks the portfolio, so the three are separate steps that interleave.

* `balance_conserved`: once all calls have finished, the balance has moved by what the
  recorded rows add up to, if every save finds the balance its object carries.
* `update_lost`: two calls that read the same balance, of which only one counts.
-/

namespace AlgoBot.Portfolios

open AlgoBot.Core AlgoBot.Python

/-! ## The service -/

/-- What a column of eight decimals keeps of a number; `none` where the database refuses it. -/
structure Column where
  store : ℚ → Option ℚ

/-- The arguments of `record`. -/
structure Arguments where
  amounts : Amounts
  /-- All four are `int` or `Decimal`; a `float` or a text is stored, but cannot be added. -/
  addable : Bool
  flow_type : String
  metadata : Dict

/-- A call that has inserted its flow and not yet saved the balance. -/
structure Flight where
  flow : ℕ
  object : ℕ
  portfolio : ℕ
  amounts : Amounts
  addable : Bool
deriving DecidableEq

/-- The database, the portfolio objects in memory, and the calls between their two writes. -/
structure Store where
  portfolios : Table Portfolio
  flows : Table CashFlow
  objects : ℕ → Option Portfolio
  flights : List Flight

inductive Action where
  /-- load the portfolio `p` into a new object `o` -/
  | read (o p : ℕ)
  /-- `CashFlow.objects.create` -/
  | insert (o : ℕ) (args : Arguments)
  /-- the rest of the call that inserted the flow -/
  | save (flow : ℕ)

/-- What the row of a flow keeps of its amounts. -/
def Column.amounts (col : Column) (a : Amounts) : Option Amounts := do
  let deposit ← col.store a.deposit
  let withdrawal ← col.store a.withdrawal
  let fees ← col.store a.fees
  let taxes ← col.store a.taxes
  return ⟨deposit, withdrawal, fees, taxes⟩

/-- Give an object a new value. -/
def Store.setObject (s : Store) (o : ℕ) (p : Portfolio) : Store :=
  { s with objects := Function.update s.objects o (some p) }

theorem Store.setObject_self (s : Store) (o : ℕ) (p : Portfolio) :
    (s.setObject o p).objects o = some p := by
  simp [setObject]

theorem Store.setObject_ne (s : Store) {o o' : ℕ} (p : Portfolio) (h : o' ≠ o) :
    (s.setObject o p).objects o' = s.objects o' := by
  simp [setObject, h]

/-- The call is over. -/
def Store.land (s : Store) (f : Flight) : Store := { s with flights := s.flights.erase f }

/-- The object after the flow has been added to it. -/
def Portfolio.addFlow (p : Portfolio) (a : Amounts) : Portfolio :=
  { p with
    current_balance := p.current_balance + a.net
    equity := p.current_balance + a.net
    net_asset_value := p.current_balance + a.net }

/-- `portfolio.save(update_fields=[...])`. -/
def Store.saveObject (s : Store) (col : Column) (p : Portfolio) : Store :=
  match col.store p.current_balance, s.portfolios.get? p.pk with
  | some stored, some row =>
    { s with
      portfolios := s.portfolios.set
        { row with current_balance := stored, equity := stored, net_asset_value := stored } }
  | _, _ => s

/-- `CashFlowService.record`, step by step. -/
def recorder (col : Column) : Machine Store Action where
  next s a :=
    match a with
    | .read o p =>
      match s.objects o, s.portfolios.get? p with
      | none, some row => some (s.setObject o row)
      | _, _ => none
    | .insert o args =>
      match s.objects o with
      | none => none
      | some object =>
        match col.amounts args.amounts with
        -- the insert raises
        | none => some s
        | some stored =>
          some { s with
            flows := s.flows.create
              (fun pk => ⟨pk, object.pk, stored, args.flow_type, args.metadata⟩) fun _ => rfl
            flights :=
              ⟨s.flows.nextPk, o, object.pk, args.amounts, args.addable⟩ :: s.flights }
    | .save flow =>
      match s.flights.find? fun f => f.flow == flow with
      | none => none
      | some f =>
        match s.objects f.object with
        | none => none
        | some object =>
          if f.addable then
            some (((s.setObject f.object (object.addFlow f.amounts)).saveObject col
              (object.addFlow f.amounts)).land f)
          else some (s.land f)

/-! ## The conservation law -/

/-- The stored balance of a portfolio. -/
def balance (s : Store) (p : ℕ) : ℚ :=
  ((s.portfolios.get? p).map Portfolio.current_balance).getD 0

/-- What the recorded rows of a portfolio add up to. -/
def recorded (s : Store) (p : ℕ) : ℚ :=
  s.flows.sum fun f => if f.portfolio = p then f.amounts.net else 0

/-- What the calls in flight are about to add to the balance of a portfolio. -/
def pending (s : Store) (p : ℕ) : ℚ :=
  (s.flights.map fun f => if f.portfolio = p then f.amounts.net else 0).sum

/-- A column keeps the number as it is. -/
def Column.Keeps (col : Column) (q : ℚ) : Prop := col.store q = some q

/-- The row of the flow keeps its amounts, or the insert is refused. -/
def Column.KeepsAmounts (col : Column) (a : Amounts) : Prop :=
  col.amounts a = some a ∨ col.amounts a = none

/-- The object carries the balance that is stored, and the flow can be added to it. -/
def Fresh (col : Column) (s : Store) (flow : ℕ) : Prop :=
  ∀ f ∈ s.flights, f.flow = flow → f.addable = true ∧
    ∃ row, s.portfolios.get? f.portfolio = some row ∧
      ((s.objects f.object).map Portfolio.current_balance = some row.current_balance) ∧
      col.Keeps (row.current_balance + f.amounts.net)

/-- Flows are recorded as they are, and balances are saved over the balance they were read at. -/
def Sound (col : Column) (s : Store) : Action → Prop
  | .read _ _ => True
  | .insert _ args => col.KeepsAmounts args.amounts
  | .save flow => Fresh col s flow

/-- What a run keeps: the objects of the calls in flight are loaded, and balances and flows
agree up to those calls. -/
structure Conserved (base : ℕ → ℚ) (s : Store) : Prop where
  loaded : ∀ f ∈ s.flights, ∃ object, s.objects f.object = some object ∧ object.pk = f.portfolio
  total : ∀ p, balance s p + pending s p = base p + recorded s p

section Steps

variable {col : Column} {base : ℕ → ℚ} {s s' t : Store} {a : Action} {as : List Action}

theorem conserved_read {o : ℕ} {row : Portfolio} (hs : Conserved base s)
    (ho : s.objects o = none) : Conserved base (s.setObject o row) where
  loaded := by
    intro f hf
    rcases hs.loaded f hf with ⟨object, hobject, hpk⟩
    refine ⟨object, ?_, hpk⟩
    have hne : f.object ≠ o := by
      intro he
      rw [he, ho] at hobject
      cases hobject
    rw [Store.setObject_ne s row hne]
    exact hobject
  total := hs.total

theorem conserved_insert {o : ℕ} {args : Arguments} {object : Portfolio} (hs : Conserved base s)
    (ho : s.objects o = some object) :
    Conserved base { s with
      flows := s.flows.create
        (fun pk => ⟨pk, object.pk, args.amounts, args.flow_type, args.metadata⟩) fun _ => rfl
      flights := ⟨s.flows.nextPk, o, object.pk, args.amounts, args.addable⟩ :: s.flights } where
  loaded := by
    intro f hf
    rcases List.mem_cons.mp hf with rfl | hf
    · exact ⟨object, ho, rfl⟩
    · exact hs.loaded f hf
  total := by
    intro p
    have hbefore := hs.total p
    rw [recorded, Table.sum_create, pending, List.map_cons, List.sum_cons]
    simp only [balance, pending, recorded] at hbefore ⊢
    linarith

theorem pending_land {f : Flight} (hf : f ∈ s.flights) (p : ℕ) :
    (if f.portfolio = p then f.amounts.net else 0) + pending (s.land f) p = pending s p :=
  List.sum_map_erase (fun f : Flight => if f.portfolio = p then f.amounts.net else 0) hf

/-- The balances after a save that finds the balance its object carries. -/
theorem balance_saveObject {object row : Portfolio} {net : ℚ}
    (hrow : s.portfolios.get? object.pk = some row)
    (hkeep : col.store object.current_balance = some (row.current_balance + net)) (p : ℕ) :
    balance (s.saveObject col object) p =
      balance s p + if object.pk = p then net else 0 := by
  have hpk : row.pk = object.pk := Table.pk_of_get? hrow
  have hget : s.portfolios.get? row.pk = some row := by rwa [hpk]
  have hset := Table.get?_set_of_some
    (r := { row with
      current_balance := row.current_balance + net
      equity := row.current_balance + net
      net_asset_value := row.current_balance + net }) hget p
  rw [Store.saveObject, hkeep, hrow]
  unfold balance
  dsimp only
  rw [hset, pk_portfolio]
  by_cases hp : object.pk = p
  · subst hp
    rw [if_pos hpk.symm, if_pos rfl, hrow]
    rfl
  · rw [if_neg, if_neg hp, add_zero]
    intro hother
    exact hp (hpk.symm.trans hother.symm)

theorem saveObject_frame (s : Store) (col : Column) (object : Portfolio) :
    (s.saveObject col object).flows = s.flows ∧ (s.saveObject col object).objects = s.objects ∧
      (s.saveObject col object).flights = s.flights := by
  unfold Store.saveObject
  split
  · exact ⟨rfl, rfl, rfl⟩
  · exact ⟨rfl, rfl, rfl⟩

theorem conserved_save {f : Flight} {object : Portfolio} (hs : Conserved base s)
    (hf : f ∈ s.flights) (hobject : s.objects f.object = some object)
    (hfresh : Fresh col s f.flow) :
    Conserved base (((s.setObject f.object (object.addFlow f.amounts)).saveObject col
      (object.addFlow f.amounts)).land f) := by
  rcases hfresh f hf rfl with ⟨_, row, hrow, hcarried, hkeep⟩
  have hpk : object.pk = f.portfolio := by
    rcases hs.loaded f hf with ⟨loaded, hloaded, hpk⟩
    rw [hobject] at hloaded
    cases hloaded
    exact hpk
  have hcb : object.current_balance = row.current_balance := by
    rw [hobject] at hcarried
    exact Option.some.inj hcarried
  have hframe := saveObject_frame (s.setObject f.object (object.addFlow f.amounts)) col
    (object.addFlow f.amounts)
  constructor
  · intro g hg
    rw [Store.land, hframe.2.2] at hg
    rcases hs.loaded g (List.mem_of_mem_erase hg) with ⟨loaded, hloaded, hgpk⟩
    rw [Store.land, hframe.2.1]
    by_cases hsame : g.object = f.object
    · -- the same object, which still belongs to the same portfolio
      rw [hsame, hobject] at hloaded
      cases hloaded
      refine ⟨object.addFlow f.amounts, ?_, hgpk⟩
      rw [hsame]
      exact Store.setObject_self s f.object _
    · refine ⟨loaded, ?_, hgpk⟩
      rw [Store.setObject_ne s _ hsame]
      exact hloaded
  · intro p
    have hstored : col.store (object.addFlow f.amounts).current_balance =
        some (row.current_balance + f.amounts.net) := by
      rw [Portfolio.addFlow, hcb]
      exact hkeep
    have hfound : (s.setObject f.object (object.addFlow f.amounts)).portfolios.get?
        (object.addFlow f.amounts).pk = some row := hpk ▸ hrow
    have hsaved := balance_saveObject hfound hstored p
    have hpk' : (object.addFlow f.amounts).pk = f.portfolio := hpk
    have hbalance : balance (s.setObject f.object (object.addFlow f.amounts)) p = balance s p :=
      rfl
    have hflights : pending (((s.setObject f.object (object.addFlow f.amounts)).saveObject col
        (object.addFlow f.amounts)).land f) p = pending (s.land f) p := by
      rw [pending, pending, Store.land, Store.land, hframe.2.2]
      rfl
    have hrecorded : recorded (((s.setObject f.object (object.addFlow f.amounts)).saveObject col
        (object.addFlow f.amounts)).land f) p = recorded s p := by
      rw [recorded, recorded, Store.land, hframe.1]
      rfl
    have hbefore := hs.total p
    have hpending := pending_land hf p
    rw [hpk', hbalance] at hsaved
    rw [hflights, hrecorded]
    change balance ((s.setObject f.object _).saveObject col _) p + _ = _
    rw [hsaved]
    linarith

/-- A sound step keeps balances and flows in agreement. -/
theorem step_conserved (hsound : Sound col s a) (hs : Conserved base s)
    (hnext : (recorder col).next s a = some s') : Conserved base s' := by
  unfold recorder at hnext
  cases a with
  | read o p =>
    dsimp only at hnext
    split at hnext
    · next row ho _ =>
      cases hnext
      exact conserved_read hs ho
    · cases hnext
  | insert o args =>
    dsimp only at hnext
    split at hnext
    · cases hnext
    · next object ho =>
      split at hnext
      · cases hnext
        exact hs
      · next stored hstored =>
        cases hnext
        rcases hsound with hkept | hrefused
        · rw [hkept] at hstored
          cases hstored
          exact conserved_insert hs ho
        · rw [hrefused] at hstored
          cases hstored
  | save flow =>
    dsimp only at hnext
    split at hnext
    · cases hnext
    · next f hfind =>
      have hf : f ∈ s.flights := List.mem_of_find?_eq_some hfind
      have hflow : f.flow = flow := by simpa using List.find?_some hfind
      split at hnext
      · cases hnext
      · next object ho =>
        have haddable := (hsound f hf hflow).1
        rw [if_pos haddable] at hnext
        cases hnext
        rw [← hflow] at hsound
        exact conserved_save hs hf ho hsound

end Steps

/-- Once all calls have finished, the balance of every portfolio has moved by what the rows
recorded in between add up to, if every step was sound. -/
theorem balance_conserved (col : Column) {s t : Store} {as : List Action}
    (hrun : (recorder col).RunIf (Sound col) s as t) (hstart : s.flights = [])
    (hdone : t.flights = []) (p : ℕ) :
    balance t p = balance s p + (recorded t p - recorded s p) := by
  let base : ℕ → ℚ := fun p => balance s p - recorded s p
  have hs : Conserved base s := by
    constructor
    · intro f hf
      rw [hstart] at hf
      cases hf
    · intro p
      simp [pending, hstart, base]
  have ht : Conserved base t :=
    hrun.invariant (fun s a s' hg hs hn => step_conserved hg hs hn) hs
  have htotal := ht.total p
  have hpending : pending t p = 0 := by simp [pending, hdone]
  rw [hpending] at htotal
  simp only [base] at htotal
  linarith

/-! ## A lost update -/

/-- A portfolio with a balance of 100. -/
def opened : Store where
  portfolios := ⟨[⟨1, 100, 100, 100⟩], by decide⟩
  flows := Table.empty
  objects := fun _ => none
  flights := []

/-- The arguments of a deposit of 10. -/
def depositTen : Arguments where
  amounts := ⟨10, 0, 0, 0⟩
  addable := true
  flow_type := "adjustment"
  metadata := []

/-- A deposit of 10 on its own. -/
theorem balance_conserved_once :
    ∃ t, (recorder ⟨some⟩).Run opened [.read 1 1, .insert 1 depositTen, .save 1] t ∧
      balance t 1 = balance opened 1 + (recorded t 1 - recorded opened 1) := by
  have hrun : ∃ t, (recorder ⟨some⟩).RunIf (Sound ⟨some⟩) opened
      [.read 1 1, .insert 1 depositTen, .save 1] t ∧ t.flights = [] := by
    refine ⟨_, .cons trivial rfl (.cons (Or.inl rfl) rfl (.cons ?_ rfl (.nil _))), rfl⟩
    intro f hf _
    cases hf with
    | head => exact ⟨rfl, _, rfl, rfl, rfl⟩
    | tail _ hf => cases hf
  rcases hrun with ⟨t, ht, hdone⟩
  exact ⟨t, ht.mono fun _ _ _ => trivial, balance_conserved ⟨some⟩ ht rfl hdone 1⟩

/-- Two calls read the balance before either has saved it: 20 are deposited, and the balance
grows by 10. -/
theorem update_lost :
    ∃ t, (recorder ⟨some⟩).Run opened
        [.read 1 1, .read 2 1, .insert 1 depositTen, .insert 2 depositTen, .save 1, .save 2] t ∧
      t.flights = [] ∧ balance t 1 ≠ balance opened 1 + (recorded t 1 - recorded opened 1) := by
  refine ⟨_, Machine.exec_eq_some_iff.mp rfl, ?_, ?_⟩
  · decide +kernel
  · decide +kernel

end AlgoBot.Portfolios
