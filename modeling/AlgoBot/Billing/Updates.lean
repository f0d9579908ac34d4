import AlgoBot.Billing.Redelivery

/-!
# Status updates through webhooks

A provider moves a payment through a list of statuses. After each move it
delivers any number of webhooks, at least one of which the handler processes
without an error. `updates_arrive`: the payment then has the fold of the
statuses through the merge, provided that in every round a delivery that is
processed finds no processed event row under its key.

The proof needs only that a report merged twice counts once: within a round
every delivery leaves the status or merges the round's status into it, and the
one that finds no processed row does merge it.
-/

namespace AlgoBot.Billing

open AlgoBot.Core AlgoBot.Python

variable {env : Env} {s s' t u : Store} {c : Call} {d : Delivery} {o : Outcome} {q : Receipt}
  {event : PaymentWebhookEvent} {w dup : WebhookReply} {now : Time} {e : String}
  {st : PaymentStatus}

/-! ## Rounds -/

/-- Unless it is a repeat, the delivery says `st` of the payment `e`, or nothing. -/
def Truthful (env : Env) (e : String) (st : PaymentStatus) (s : Store) (d : Delivery) : Prop :=
  seen env s d = false → ∀ c ∈ callsOf env s d, Says env e st c

instance : Decidable (Truthful env e st s d) := by
  unfold Truthful
  infer_instance

theorem not_records_of_duplicate (h : w.isDuplicate = true) (e : String) : w.records e = false := by
  unfold WebhookReply.isDuplicate at h
  unfold WebhookReply.records
  split at h
  · next hout => rw [hout]
  · cases h

/-- A truthful delivery moves the payment, and merges the status if its answer says so. -/
theorem handle_moves (htrue : Truthful env e st s d) :
    Moves e st s (handle env s d).store ∧
      ∀ w, (handle env s d).reply = .ok (some w) → w.records e = true →
        Merges e st s (handle env s d).store := by
  rcases handle_shape env s d with hearly | ⟨s₁, q, dup, work, hrec⟩
  · refine ⟨moves_of_payments hearly.payments, ?_⟩
    intro w hw hrecords
    rw [hearly.silent w e hw] at hrecords
    cases hrecords
  · have hproc : s₁.processed q.provider q.event_key = seen env s d := by
      unfold seen Store.processed Store.eventOf
      rw [hrec.events, hrec.provider, hrec.event_key]
    rcases receive_cases env s₁ q dup work with ⟨_, heq⟩ | ⟨s', event, hopen, heq⟩ | ⟨_, heq⟩
    · -- a duplicate changes nothing
      rw [hrec.handled, heq]
      refine ⟨moves_of_payments hrec.payments, ?_⟩
      intro w hw hrecords
      cases hw
      rw [not_records_of_duplicate hrec.duplicate] at hrecords
      cases hrecords
    · have hsays : ∀ c ∈ callsOf env s d, Says env e st c := by
        apply htrue
        rw [← hproc]
        exact hopen.fresh
      have hpayments : s'.payments = s.payments := by
        rw [hopen.rest]
        exact hrec.payments
      have hstart : Moves e st s s' := moves_of_payments hpayments
      rcases hrec.moves e st s' event hopen.rest hsays with ⟨hmoves, hmerges⟩
      rw [hrec.handled, heq]
      refine ⟨hstart.trans hmoves, ?_⟩
      intro w hw hrecords
      exact hstart.merges_trans (hmerges w hw hrecords)
    · rw [hrec.handled, heq]
      exact ⟨moves_of_payments hrec.payments, by simp⟩

/-- The webhook endpoints: any delivery may come next. -/
def webhooks (env : Env) : Machine Store Delivery := ⟨fun s d => some (handle env s d).store⟩

/-- The handler processes the delivery of a payment without an error: its answer records a report
of the payment, or calls the delivery a repeat of one. -/
def HandledFor (env : Env) (e : String) (s : Store) (d : Delivery) : Prop :=
  ∃ w, (handle env s d).reply = .ok (some w) ∧
    (w.records e = true ∨ (w.isDuplicate = true ∧ ∃ c ∈ callsOf env s d, callId env c = e))

/-- One round: deliveries that tell the provider's status, and among them one that is processed
without an error and meets the condition `C`. -/
def Round (env : Env) (C : Store → Delivery → Prop) (e : String) (st : PaymentStatus)
    (s t : Store) : Prop :=
  ∃ ds u d ds', (webhooks env).RunIf (Truthful env e st) s ds u ∧ HandledFor env e u d ∧ C u d ∧
    Truthful env e st u d ∧ (webhooks env).RunIf (Truthful env e st) (handle env u d).store ds' t

/-- The provider moves the payment through a list of statuses, each followed by a round. -/
inductive Rounds (env : Env) (C : Store → Delivery → Prop) (e : String) :
    Store → List PaymentStatus → Store → Prop
  | nil (s : Store) : Rounds env C e s [] s
  | cons {s t u : Store} {st : PaymentStatus} {sts : List PaymentStatus} :
      Round env C e st s t → Rounds env C e t sts u → Rounds env C e s (st :: sts) u

/-- Truthful deliveries keep the status or merge the provider's into it. -/
theorem run_moves {ds : List Delivery} (h : (webhooks env).RunIf (Truthful env e st) s ds t) :
    Moves e st s t := by
  induction h with
  | nil s => exact moves_of_payments rfl
  | cons htrue hnext _ ih =>
    cases hnext
    exact (handle_moves htrue).1.trans ih

/-- A round with a delivery that finds no processed row merges the provider's status. -/
theorem round_merges (h : Round env (fun s d => seen env s d = false) e st s t) :
    Merges e st s t := by
  rcases h with ⟨ds, u, d, ds', hbefore, ⟨w, hw, hans⟩, hfresh, htrue, hafter⟩
  have hrecords : w.records e = true := by
    rcases hans with hrec | ⟨hdup, _⟩
    · exact hrec
    · -- a duplicate answer needs a processed row
      rw [seen_of_duplicate hw hdup] at hfresh
      cases hfresh
  have hmerge : Merges e st u (handle env u d).store := (handle_moves htrue).2 w hw hrecords
  exact ((run_moves hbefore).merges_trans hmerge).trans_moves (run_moves hafter)

/-- No update is lost: after rounds whose processed delivery finds no processed event row under
its key, the payment has the fold of the provider's statuses through the merge. -/
theorem updates_arrive {sts : List PaymentStatus}
    (h : Rounds env (fun s d => seen env s d = false) e s sts t) (hne : sts ≠ []) :
    t.statusOf e = some (sts.foldl merge ((s.statusOf e).getD .pending)) := by
  induction h with
  | nil => exact absurd rfl hne
  | @cons s t u st sts hround hrest ih =>
    have hmerge := round_merges hround
    unfold Merges noted at hmerge
    cases hrest with
    | nil => exact hmerge
    | cons hround' hrest' =>
      rw [ih (by simp), hmerge]
      rfl

/-! ## A lost update -/

/-- Pesapal's notification of the first invoice's transaction, while the status is `status`. -/
def checkoutNotice (status : String) : Delivery :=
  pesapalNotice "CHK1" "IS-7-PRO-1" (pesapalStatus status)

theorem handledFor_of_answer
    (h : ((handle env s d).answer.any fun w => w.records e ||
      (w.isDuplicate && (callsOf env s d).any fun c => callId env c == e)) = true) :
    HandledFor env e s d := by
  rcases (Option.any_eq_true _ _).mp h with ⟨w, hw, hans⟩
  have hsome : (handle env s d).answer.isSome = true := by simp [hw]
  rcases reply_of_answer hsome with ⟨w', hw'⟩
  have hwe : w' = w := by
    simpa [Handled.answer, hw'] using hw
  subst hwe
  refine ⟨w', hw', ?_⟩
  rw [Bool.or_eq_true, Bool.and_eq_true, List.any_eq_true] at hans
  rcases hans with hrec | ⟨hdup, c, hc, hid⟩
  · exact Or.inl hrec
  · exact Or.inr ⟨hdup, c, hc, by simpa using hid⟩

/-- A round of one delivery. -/
theorem round_single {C : Store → Delivery → Prop} (hhandled : HandledFor env e s d) (hC : C s d)
    (htrue : Truthful env e st s d) : Round env C e st s (handle env s d).store :=
  ⟨[], s, d, [], .nil s, hhandled, hC, htrue, .nil _⟩

/-- The first notification arrives. -/
theorem updates_arrive_first :
    (handle .default twoInvoices (checkoutNotice "PENDING")).store.statusOf "CHK1" =
      some ([PaymentStatus.pending].foldl merge ((twoInvoices.statusOf "CHK1").getD .pending)) :=
  updates_arrive
    (.cons
      (round_single (handledFor_of_answer (by decide +kernel)) (by decide +kernel)
        (by decide +kernel))
      (.nil _))
    (by decide)

/-- The transaction is pending and then completed. Both notifications are the same bytes, so the
second is answered as a duplicate and the payment stays pending. -/
theorem completion_lost :
    ∃ t, Rounds .default (fun _ _ => True) "CHK1" twoInvoices [.pending, .completed] t ∧
      t.statusOf "CHK1" ≠ some ([PaymentStatus.pending, .completed].foldl merge
        ((twoInvoices.statusOf "CHK1").getD .pending)) := by
  have hfirst : HandledFor .default "CHK1" twoInvoices (checkoutNotice "PENDING") :=
    handledFor_of_answer (by decide +kernel)
  have hsecond : HandledFor .default "CHK1"
      (handle .default twoInvoices (checkoutNotice "PENDING")).store (checkoutNotice "COMPLETED") :=
    handledFor_of_answer (by decide +kernel)
  refine ⟨_, .cons (round_single hfirst trivial (by decide +kernel))
    (.cons (round_single hsecond trivial (by decide +kernel)) (.nil _)), by decide +kernel⟩

end AlgoBot.Billing
