import AlgoBot.CopyTrading.Limits
import AlgoBot.Core.Rounding

/-!
# The record of a copied signal

`execute_copy` asks `authorize` about a signal, which refuses a stake that is not a
number, and then reads the stake again for the row it creates, without a handler.

* `executeCopy_ok_iff`: what the stake must be for the row to be made.
* `accounted_iff`: a signal leaves its row exactly if its stake is a finite number
  that fits the column, and the database takes its texts.
* `malformed_lost`: a stake that is not a number raises.
-/

namespace AlgoBot.CopyTrading

open AlgoBot.Core AlgoBot.Python

/-- The limits as the columns of a follower hold them. -/
structure StoredLimits extends Limits where
  max_trade_stake_lt : max_trade_stake < 10 ^ 12
  copy_multiplier_lt : copy_multiplier < 10 ^ 8

/-- What `execute_copy` raises. -/
inductive CopyError where
  | signal (s : Dec.Signal)
  /-- the database does not take a text -/
  | dataError
deriving DecidableEq

/-- The texts of a signal, cut to their columns. -/
def Signal.texts (h : Host) (c : Signal) : List String :=
  [take 120 (c.provider_trade.toStr h), take 80 (c.symbol.toStr h), take 20 (c.direction.toStr h)]

/-- `execute_copy` on the trades; `takes` says which texts the database takes. -/
def recordCopy (h : Host) (takes : String → Bool) (limits : ℕ → Limits) (trades : Trades)
    (c : Signal) : Except CopyError Trades :=
  match hok : executeCopy h limits c with
  | .error s => .error (.signal s)
  | .ok row =>
    if (c.texts h).all takes = true then .ok (trades.create row (executeCopy_pk hok))
    else .error .dataError

/-- One row more, of the signal and the follower: pending if it is authorized, else rejected with a
reason. -/
def Accounted (h : Host) (takes : String → Bool) (limits : ℕ → Limits) (trades : Trades)
    (c : Signal) : Prop :=
  ∃ after trade, recordCopy h takes limits trades c = .ok after ∧
    after.rows = trade :: trades.rows ∧ trade.follower = c.follower ∧
    [trade.provider_trade, trade.symbol, trade.direction] = c.texts h ∧
    if authorized h limits c = true then trade.status = .pending
    else trade.status = .rejected ∧ trade.rejection_reason ≠ ""

section Row

variable {h : Host} {limits : ℕ → Limits} {c : Signal}

/-! ## What is refused has a reason -/

theorem reason_of_authorize {follower : CopyFollower} {v : Value} {n : ℕ} {reason : String}
    (hok : authorize h follower v n = .ok (false, reason)) : reason ≠ "" := by
  unfold authorize at hok
  split at hok
  · cases hok
    decide
  · split at hok
    · cases hok
      decide
    · rcases bind_ok.mp hok with ⟨positive, _, hok⟩
      split at hok
      · rcases bind_ok.mp hok with ⟨stake, _, hok⟩
        rcases bind_ok.mp hok with ⟨above, _, hok⟩
        split at hok
        · cases hok
          decide
        · split at hok <;> cases hok
          decide
      · cases hok
        decide

/-! ## What fits the column is copied -/

/-- A stake that fits its column is finite. -/
theorem finite_of_column {source : Dec} {q : ℚ} (hq : column source = .ok q) :
    ∃ neg coeff exp, source = .finite neg coeff exp ∧ (coeff : ℚ) * 10 ^ exp < 10 ^ 14 := by
  unfold column at hq
  split at hq
  · next r hr =>
    cases source with
    | finite neg coeff exp => exact ⟨neg, coeff, exp, rfl, Dec.lt_of_toColumn (by norm_num) hr⟩
    | _ => cases hr
  · cases hq

theorem finite_of_mulFinite {neg : Bool} {coeff : ℕ} {exp : ℤ} {d : Dec}
    (h : Dec.mulFinite neg coeff exp = .ok d) : ∃ c e, d = .finite neg c e := by
  unfold Dec.mulFinite at h
  split at h
  · cases h
    exact ⟨_, _, rfl⟩
  · dsimp only at h
    split at h <;> cases h
    exact ⟨_, _, rfl⟩

/-- The product with a multiplier is a number with the sign of the stake. -/
theorem mul_multiplier (l : StoredLimits) {neg : Bool} {coeff : ℕ} {exp : ℤ}
    (hlt : (coeff : ℚ) * 10 ^ exp < 10 ^ 14) :
    ∃ c e, (Dec.finite neg coeff exp).mul l.multiplier = .ok (.finite neg c e) := by
  have hmultiplier : (l.copy_multiplier : ℚ) < 10 ^ 8 := by exact_mod_cast l.copy_multiplier_lt
  have hproduct : ((coeff * l.copy_multiplier : ℕ) : ℚ) * 10 ^ (exp + -4) < 10 ^ (22 : ℤ) := by
    have hpos : (0 : ℚ) ≤ coeff * 10 ^ exp := by positivity
    have hnonneg : (0 : ℚ) ≤ l.copy_multiplier := Nat.cast_nonneg _
    calc ((coeff * l.copy_multiplier : ℕ) : ℚ) * 10 ^ (exp + -4)
        = coeff * 10 ^ exp * l.copy_multiplier * 10 ^ (-4 : ℤ) := by
          rw [zpow_add₀ (by norm_num)]
          push_cast
          ring
      _ ≤ coeff * 10 ^ exp * l.copy_multiplier := by
          refine mul_le_of_le_one_right (by positivity) ?_
          norm_num
      _ ≤ coeff * 10 ^ exp * 10 ^ 8 := by gcongr
      _ < 10 ^ 14 * 10 ^ 8 := by gcongr
      _ = 10 ^ (22 : ℤ) := by norm_num
  obtain ⟨d, hd⟩ : ∃ d, Dec.mulFinite neg (coeff * l.copy_multiplier) (exp + -4) = .ok d :=
    Dec.mulFinite_of_lt_pow hproduct (by decide)
  obtain ⟨c, e, rfl⟩ := finite_of_mulFinite hd
  refine ⟨c, e, ?_⟩
  simpa [Dec.mul, Limits.multiplier] using hd

/-- A finite stake is authorized or refused. -/
theorem authorize_finite (l : StoredLimits) {follower : CopyFollower}
    (hl : follower.toLimits = l.toLimits) {v : Value} {n : ℕ} {neg : Bool} {coeff : ℕ} {exp : ℤ}
    (hsource : decimalOfText h (v.toStr h) = some (.finite neg coeff exp))
    (hlt : (coeff : ℚ) * 10 ^ exp < 10 ^ 14) :
    ∃ verdict, authorize h follower v n = .ok verdict := by
  obtain ⟨c, e, hmul⟩ : ∃ c e, (Dec.finite neg coeff exp).mul l.multiplier = .ok (.finite neg c e) :=
    mul_multiplier l hlt
  rw [← hl] at hmul
  obtain ⟨positive, hpositive⟩ : ∃ b, (Dec.finite neg coeff exp).exceeds 0 = .ok b := ⟨_, rfl⟩
  obtain ⟨above, habove⟩ : ∃ b, (Dec.finite neg c e).exceeds follower.maxStake = .ok b := ⟨_, rfl⟩
  unfold authorize
  split
  · exact ⟨_, rfl⟩
  · simp only [hsource, hpositive, hmul, habove, bind, Except.bind]
    split
    · split
      · exact ⟨_, rfl⟩
      · split <;> exact ⟨_, rfl⟩
    · exact ⟨_, rfl⟩

/-- An authorized stake fits the column of the trade. -/
theorem column_of_authorized (l : StoredLimits) {follower : CopyFollower}
    (hl : follower.toLimits = l.toLimits) {v : Value} {n : ℕ} {reason : String} {neg : Bool}
    {coeff c : ℕ} {exp e : ℤ} (hok : authorize h follower v n = .ok (true, reason))
    (hsource : decimalOfText h (v.toStr h) = some (.finite neg coeff exp))
    (hmul : (Dec.finite neg coeff exp).mul l.multiplier = .ok (.finite neg c e)) :
    ∃ q, column (.finite neg c e) = .ok q := by
  obtain ⟨source, stake, hread, hpositive, hproduct, hbelow⟩ := of_authorized hok
  rw [hsource] at hread
  obtain rfl := Option.some.inj hread
  rw [hl] at hproduct hbelow
  obtain rfl := Except.ok.inj (hmul.symm.trans hproduct)
  have hmax := maxStake_nonneg hpositive hproduct hbelow
  -- a stake that is greater than zero has no sign
  obtain rfl : neg = false := by
    cases neg with
    | false => rfl
    | true =>
      have hnonneg : (0 : ℚ) ≤ coeff * 10 ^ exp := by positivity
      simp only [Dec.exceeds, if_true, Except.ok.injEq, decide_eq_true_eq] at hpositive
      linarith
  have hunits : 100 * l.max_trade_stake.toNat < 10 ^ 14 := by
    have hlt := l.max_trade_stake_lt
    omega
  have hle : (c : ℚ) * 10 ^ e ≤ ((100 * l.max_trade_stake.toNat : ℕ) : ℚ) / 10 ^ 4 := by
    rw [← maxStake_units hmax]
    simpa [Dec.exceeds] using hbelow
  obtain ⟨q, hq⟩ := Option.isSome_iff_exists.mp
    (Dec.toColumn_isSome (by norm_num) hunits hle)
  exact ⟨q, by rw [column, hq]⟩

/-- The row is made exactly if the stake is a number that fits its column. -/
theorem executeCopy_ok_iff (limits : ℕ → StoredLimits) :
    (∃ row, executeCopy h (fun k => (limits k).toLimits) c = .ok row) ↔
      ∃ source q, decimalOfText h (c.source_stake.toStr h) = some source ∧
        column source = .ok q := by
  constructor
  -- the row is only made after the second reading of the stake
  · rintro ⟨row, hok⟩
    unfold executeCopy at hok
    rcases bind_ok.mp hok with ⟨verdict, _, hok⟩
    dsimp only at hok
    split at hok
    · cases hok
    · next source hsource =>
      rcases bind_ok.mp hok with ⟨stake, _, hok⟩
      rcases bind_ok.mp hok with ⟨stored, _, hok⟩
      rcases bind_ok.mp hok with ⟨q, hq, _⟩
      exact ⟨source, q, hsource, hq⟩
  · rintro ⟨source, q, hsource, hq⟩
    obtain ⟨neg, coeff, exp, rfl, hlt⟩ := finite_of_column hq
    let l := limits c.follower
    let follower : CopyFollower := { l.toLimits with pk := c.follower, status := c.status }
    obtain ⟨⟨allowed, reason⟩, hauth⟩ :
        ∃ verdict, authorize h follower c.source_stake 0 = .ok verdict :=
      authorize_finite l rfl hsource hlt
    obtain ⟨c', e', hmul⟩ :
        ∃ c' e', (Dec.finite neg coeff exp).mul l.multiplier = .ok (.finite neg c' e') :=
      mul_multiplier l hlt
    -- what is refused is stored with a stake of zero
    have hstake : ∃ q, column (if allowed then .finite neg c' e' else .finite false 0 0) = .ok q := by
      cases allowed with
      | true => exact column_of_authorized l rfl hauth hsource hmul
      | false =>
        have hzero : column (.finite false 0 0) = .ok 0 := by decide +kernel
        exact ⟨0, hzero⟩
    obtain ⟨stake, hstake⟩ := hstake
    refine ⟨fun pk => ⟨pk, c.follower, take 120 (c.provider_trade.toStr h),
      take 80 (c.symbol.toStr h), take 20 (c.direction.toStr h), stake, q,
      if allowed then .pending else .rejected, if allowed then "" else reason⟩, ?_⟩
    unfold executeCopy
    refine bind_ok.mpr ⟨(allowed, reason), hauth, ?_⟩
    dsimp only
    rw [hsource]
    exact bind_ok.mpr ⟨_, hmul, bind_ok.mpr ⟨stake, hstake, bind_ok.mpr ⟨q, hq, rfl⟩⟩⟩

/-- The texts of the row, and its reason. -/
theorem executeCopy_texts {limits : ℕ → Limits} {row : ℕ → CopyTrade}
    (hok : executeCopy h limits c = .ok row) (k : ℕ) :
    [(row k).provider_trade, (row k).symbol, (row k).direction] = c.texts h ∧
      (authorized h limits c = false → (row k).rejection_reason ≠ "") := by
  unfold executeCopy at hok
  rcases bind_ok.mp hok with ⟨⟨allowed, reason⟩, hauth, hok⟩
  have hallowed : authorized h limits c = allowed := by rw [authorized, hauth]
  dsimp only at hok
  split at hok
  · cases hok
  · rcases bind_ok.mp hok with ⟨stake, _, hok⟩
    rcases bind_ok.mp hok with ⟨stored, _, hok⟩
    rcases bind_ok.mp hok with ⟨source, _, hok⟩
    cases hok
    refine ⟨rfl, ?_⟩
    intro hfalse
    obtain rfl : allowed = false := hallowed.symm.trans hfalse
    exact reason_of_authorize hauth

end Row

section Record

variable (h : Host) (takes : String → Bool) (limits : ℕ → StoredLimits)

/-- A signal leaves its row exactly if its stake reads as a finite number that fits the column, and
the database takes its texts. -/
theorem accounted_iff (trades : Trades) (c : Signal) :
    Accounted h takes (fun k => (limits k).toLimits) trades c ↔
      (∃ source q, decimalOfText h (c.source_stake.toStr h) = some source ∧
        column source = .ok q) ∧ (c.texts h).all takes = true := by
  rw [← executeCopy_ok_iff limits]
  unfold Accounted recordCopy
  constructor
  · rintro ⟨after, trade, hok, _⟩
    split at hok
    · cases hok
    · next row hrow =>
      split at hok
      · next htexts => exact ⟨⟨row, hrow⟩, htexts⟩
      · cases hok
  · rintro ⟨⟨row, hrow⟩, htexts⟩
    have hspec := executeCopy_spec hrow trades.nextPk
    have htext := executeCopy_texts hrow trades.nextPk
    -- the row has the follower of the signal, its texts, and the status of the verdict
    refine ⟨trades.create row (executeCopy_pk hrow), row trades.nextPk, ?_, rfl, hspec.follower,
      htext.1, ?_⟩
    · split
      · next herror =>
        rw [hrow] at herror
        cases herror
      · next row' hrow' =>
        obtain rfl := Except.ok.inj (hrow.symm.trans hrow')
        rw [if_pos htexts]
    · split
      · next hauth => rw [hspec.status, if_pos hauth]
      · next hauth =>
        rw [hspec.status, if_neg hauth]
        exact ⟨rfl, htext.2 (Bool.eq_false_iff.mpr hauth)⟩

end Record

/-- Every follower takes stakes up to 10.00, one trade at a time, without a multiplier. -/
def storedOne : ℕ → StoredLimits := fun k =>
  { oneAtATime k with
    max_trade_stake_lt := by norm_num [oneAtATime]
    copy_multiplier_lt := by norm_num [oneAtATime] }

/-- `authorize` refuses the stake, and reading it again raises. -/
theorem malformed_lost :
    (∃ reason, authorize .ascii { oneAtATime 1 with pk := 1, status := .active } (.str "x") 0 =
      .ok (false, reason)) ∧
      ∀ trades, ¬ Accounted .ascii (fun _ => true) (fun k => (storedOne k).toLimits) trades
        { signalOne with source_stake := .str "x" } := by
  refine ⟨⟨"Invalid source stake.", by decide +kernel⟩, ?_⟩
  rintro trades ⟨after, trade, hok, _⟩
  have hraises : executeCopy .ascii (fun k => (storedOne k).toLimits)
      { signalOne with source_stake := .str "x" } = .error .invalidOperation := by
    rfl
  unfold recordCopy at hok
  split at hok
  · cases hok
  · next row hrow =>
    rw [hraises] at hrow
    cases hrow

end AlgoBot.CopyTrading
