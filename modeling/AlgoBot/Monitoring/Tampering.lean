import AlgoBot.Monitoring.Audit

/-!
# Checking the audit log

The log is checked by hashing the stored fields of every row again, and by
comparing the hash each row names with the row before it.

* `tamper_evident_iff`: of every chain the application wrote, its rows hash to
  what they store at every time, and a change behind the application is found,
  exactly if the columns gave back every object as it was hashed, no user was
  deleted who has rows, and the change is not of times alone.
* `silent_time`: a changed time, and a deleted user.
-/

namespace AlgoBot.Monitoring

open AlgoBot.Core AlgoBot.Python

/-- Every row hashes to what it stores. -/
def Recomputes (h : Host) (rows : List AuditLog) : Prop := ∀ r ∈ rows, r.digest h = r.hash

/-- The check finds nothing. -/
structure Verifies (h : Host) (rows : List AuditLog) : Prop where
  recomputes : Recomputes h rows
  linked : links.Linked rows

/-! ## Changes behind the application -/

inductive Tamper
  /-- Row `n`, counted from the newest, gets other fields; its hashes stay. -/
  | edit (n : ℕ) (fields : AuditLog)
  /-- Row `n` before the newest one is removed. -/
  | remove (n : ℕ)
  /-- Two rows before the newest one are exchanged. -/
  | exchange (m n : ℕ)

/-- The row with other fields and its own hashes. -/
def AuditLog.edited (fields row : AuditLog) : AuditLog :=
  { fields with pk := row.pk, previous_hash := row.previous_hash, hash := row.hash }

/-- The list with two of its elements exchanged. -/
def exchanged (rows : List AuditLog) (m n : ℕ) : List AuditLog :=
  match rows[m]?, rows[n]? with
  | some a, some b => (rows.set m b).set n a
  | _, _ => rows

def Tamper.apply : List AuditLog → Tamper → List AuditLog
  | [], _ => []
  | newest :: rows, .edit 0 fields => fields.edited newest :: rows
  | newest :: rows, .edit (n + 1) fields => newest :: rows.modify n fields.edited
  | newest :: rows, .remove n => newest :: rows.eraseIdx n
  | newest :: rows, .exchange m n => newest :: exchanged rows m n

/-- The rows after all of the changes. -/
def tampered (ts : List Tamper) (rows : List AuditLog) : List AuditLog := ts.foldl Tamper.apply rows

/-- The rows agree in their hashes and in all that is hashed, which leaves their times. -/
def OnlyTimes (h : Host) (rows rows' : List AuditLog) : Prop :=
  List.Forall₂ (fun r r' => r.hash = r'.hash ∧ r.Agree h r') rows rows'

variable {h : Host} {columns : Columns} {s s' t : Log} {a : Action} {as : List Action} {i : ℕ}
  {draft : Draft} {r q : AuditLog} {rows rows' W : List AuditLog}

theorem tip_apply (t : Tamper) : links.tip (Tamper.apply rows t) = links.tip rows := by
  cases rows with
  | nil => rfl
  | cons newest rows =>
    cases t with
    | edit n fields =>
      cases n with
      | zero => rfl
      | succ n => rfl
    | remove n => rfl
    | exchange m n => rfl

/-- The changes leave the hash of the newest row. -/
theorem tip_tampered (ts : List Tamper) : links.tip (tampered ts rows) = links.tip rows := by
  unfold tampered
  induction ts generalizing rows with
  | nil => rfl
  | cons t ts ih => exact ih.trans (tip_apply t)

/-! ## What the check finds -/

/-- Rows that differ in their times alone both pass the check. -/
theorem OnlyTimes.verifies (honly : OnlyTimes h rows rows') (hverify : Verifies h rows)
    (hdigest : ∀ r ∈ rows, ∀ r' ∈ rows', r.Agree h r' → r.digest h = r'.digest h) :
    Verifies h rows' := by
  unfold OnlyTimes at honly
  induction honly with
  | nil => exact ⟨nofun, trivial⟩
  | @cons r r' rows rows' hsame hrest ih =>
    have htail := ih ⟨fun q hq => hverify.recomputes q (List.mem_cons_of_mem r hq),
      hverify.linked.2⟩ fun q hq q' hq' =>
        hdigest q (List.mem_cons_of_mem r hq) q' (List.mem_cons_of_mem r' hq')
    refine ⟨?_, ?_, htail.linked⟩
    · intro q hq
      rcases List.mem_cons.mp hq with rfl | hq
      · have heq := hdigest r List.mem_cons_self q List.mem_cons_self hsame.2
        rw [← heq, ← hsame.1]
        exact hverify.recomputes r List.mem_cons_self
      · exact htail.recomputes q hq
    · have hprev : r.previous_hash = r'.previous_hash := hsame.2.2.2.2.2.2.2.2
      have htip : links.tip rows = links.tip rows' := by
        cases hrest with
        | nil => rfl
        | cons hq _ => exact hq.1
      calc r'.previous_hash = r.previous_hash := hprev.symm
        _ = links.tip rows := hverify.linked.1
        _ = links.tip rows' := htip

/-- Of two logs that end in one hash and of which one passes the check, the other one passes
exactly if they differ in their times alone. -/
theorem verifies_iff (hverify : Verifies h rows) (htip : links.tip rows = links.tip rows')
    (hcollision : NoCollision h (rows ++ rows')) : Verifies h rows' ↔ OnlyTimes h rows rows' := by
  have hagree : ∀ r ∈ rows, ∀ r' ∈ rows', r.digest h = r'.digest h ↔ r.Agree h r' :=
    fun r hr r' hr' =>
      hcollision.agree r (List.mem_append_left _ hr) r' (List.mem_append_right _ hr')
  constructor
  · intro hverify'
    have hboth : ∀ r ∈ rows, ∀ r' ∈ rows', links.hash r = links.hash r' → r.Agree h r' := by
      intro r hr r' hr' hsame
      refine (hagree r hr r' hr').mp ?_
      rw [hverify.recomputes r hr, hverify'.recomputes r' hr']
      exact hsame
    have hgenesis : ∀ r ∈ rows ++ rows', links.hash r ≠ links.genesis := by
      intro r hr
      have hdigest : r.digest h = r.hash := by
        rcases List.mem_append.mp hr with hr | hr
        · exact hverify.recomputes r hr
        · exact hverify'.recomputes r hr
      rw [show links.hash r = r.digest h from hdigest.symm]
      exact hcollision.genesis r hr
    have hhashes := hverify.linked.same_hashes hverify'.linked hgenesis
      (fun r hr r' hr' hsame => (hboth r hr r' hr' hsame).2.2.2.2.2.2.2) htip
    unfold OnlyTimes
    rw [List.forall₂_iff_get] at hhashes ⊢
    refine ⟨hhashes.1, fun n hn hn' => ?_⟩
    have hsame := hhashes.2 n hn hn'
    exact ⟨hsame, hboth _ (List.get_mem _ _) _ (List.get_mem _ _) hsame⟩
  · intro honly
    exact honly.verifies hverify fun r hr r' hr' => (hagree r hr r' hr').mpr

/-! ## What the application does -/

/-- The columns give an object back as it was hashed, and no user is deleted who has rows. -/
def Faithful (h : Host) (columns : Columns) (s : Log) : Action → Prop
  | .insert i => ∀ draft, s.drafts.lookup i = some draft →
      (columns.store s.nextPk draft.object).Agree h draft.object
  | .deleteUser u => ∀ r ∈ s.rows, r.user_id ≠ some u
  | _ => True

theorem forget_of_ne {u : ℕ} (hne : r.user_id ≠ some u) : r.forget u = r := if_neg hne

/-- A row without its user is another one. -/
theorem not_agree_forget {u : ℕ} (huser : r.user_id = some u) : ¬ (r.forget u).Agree h r := by
  intro hagree
  have hnone : (r.forget u).user_id = none := by
    unfold AuditLog.forget
    rw [if_pos huser]
  have hsame := hagree.1
  rw [hnone, huser] at hsame
  cases hsame

theorem recomputes_step (hstep : Step h columns s a s') (hinv : s.Inv h W) (hW : NoCollision h W)
    (hs : s.objects ⊆ W) (hs' : s'.objects ⊆ W) (hrows : Recomputes h s.rows) :
    Recomputes h s'.rows ↔ Faithful h columns s a := by
  cases hstep with
  | read i object choice previous hnew hfree hfound hnone => exact iff_of_true hrows trivial
  | insert i draft hdraft huser =>
    have hobject := hinv.drafts (i, draft) (mem_of_lookup hdraft)
    have hagree := hW.agree (columns.store s.nextPk draft.object)
      (hs' (row_mem_objects List.mem_cons_self)) draft.object (hs (draft_mem_objects hdraft))
    constructor
    · rintro hrecomputes draft' hdraft'
      obtain rfl := Option.some.inj (hdraft'.symm.trans hdraft)
      refine hagree.mp ?_
      calc (columns.store s.nextPk draft'.object).digest h
          = (columns.store s.nextPk draft'.object).hash := hrecomputes _ List.mem_cons_self
        _ = draft'.object.hash := hash_store _ _
        _ = draft'.object.digest h := hobject.signed
    · intro hfaithful r hr
      rcases List.mem_cons.mp hr with rfl | hr
      · rw [hagree.mpr (hfaithful draft hdraft), hash_store]
        exact hobject.signed.symm
      · exact hrows r hr
  | fail i => exact iff_of_true hrows trivial
  | deleteUser u hu =>
    constructor
    · intro hrecomputes r hr huser
      have hr' : r.forget u ∈ s.rows.map (AuditLog.forget u) := List.mem_map_of_mem hr
      refine not_agree_forget huser ((hW.agree _ (hs' (row_mem_objects hr')) r
        (hs (row_mem_objects hr))).mp ?_)
      calc (r.forget u).digest h = (r.forget u).hash := hrecomputes _ hr'
        _ = r.hash := hash_forget u r
        _ = r.digest h := (hrows r hr).symm
    · intro hfaithful r hr
      obtain ⟨q, hq, rfl⟩ := List.mem_map.mp hr
      rw [forget_of_ne (hfaithful q hq)]
      exact hrows q hq

/-- In every run the rows hash to what they store exactly if every step is faithful. -/
theorem always_recomputes_iff (hrun : (auditLog h columns).Run Log.empty as t)
    (hcollision : NoCollision h (hashedObjects h columns as)) :
    Machine.RunIf.Always (auditLog h columns) (fun s => Recomputes h s.rows) Log.empty as ↔
      (auditLog h columns).RunIf (Faithful h columns) Log.empty as t := by
  have hstep : ∀ s a s', Within h columns as s a → s.Inv h (hashedObjects h columns as) →
      Recomputes h s.rows → (auditLog h columns).next s a = some s' →
      (Recomputes h s'.rows ↔ Faithful h columns s a) := by
    intro s a s' hwithin hs hrows hnext
    exact recomputes_step (step_cases hnext) hs hcollision hwithin.1 (hwithin.2 s' hnext) hrows
  rw [Machine.RunIf.always_iff_within inv_within hstep (run_within hrun) inv_empty]
  exact and_iff_right nofun

theorem NoCollision.mono {objects objects' : List AuditLog} (hcollision : NoCollision h objects')
    (hsub : objects ⊆ objects') : NoCollision h objects where
  genesis a ha := hcollision.genesis a (hsub ha)
  agree a ha b hb := hcollision.agree a (hsub ha) b (hsub hb)

theorem rows_subset_hashed (hrun : (auditLog h columns).Run Log.empty as t) :
    t.rows ⊆ hashedObjects h columns as := by
  intro r hr
  exact List.mem_flatMap.mpr ⟨t, Machine.RunIf.last_visited hrun, row_mem_objects hr⟩

/-- The log of a run shows every change behind the application exactly if its steps are faithful
and the change is not of times alone. -/
theorem tamper_evident_iff (hrun : (auditLog h columns).Run Log.empty as t)
    (hchain : links.Linked t.rows) (ts : List Tamper)
    (hcollision : NoCollision h (hashedObjects h columns as ++ tampered ts t.rows)) :
    Machine.RunIf.Always (auditLog h columns) (fun s => Recomputes h s.rows) Log.empty as ∧
        (tampered ts t.rows ≠ t.rows → ¬ Verifies h (tampered ts t.rows)) ↔
      (auditLog h columns).RunIf (Faithful h columns) Log.empty as t ∧
        (tampered ts t.rows ≠ t.rows → ¬ OnlyTimes h t.rows (tampered ts t.rows)) := by
  rw [always_recomputes_iff hrun (hcollision.mono (List.subset_append_left _ _))]
  refine and_congr_right fun hfaithful => imp_congr_right fun _ => not_congr ?_
  have halways := (always_recomputes_iff hrun
    (hcollision.mono (List.subset_append_left _ _))).mpr hfaithful
  have hverify : Verifies h t.rows := ⟨halways.last hrun.exec_eq, hchain⟩
  refine verifies_iff hverify (tip_tampered ts).symm (hcollision.mono ?_)
  intro r hr
  rcases List.mem_append.mp hr with hr | hr
  · exact List.mem_append_left _ (rows_subset_hashed hrun hr)
  · exact List.mem_append_right _ hr

/-! ### Two requests -/

instance (h : Host) (rows : List AuditLog) : Decidable (Verifies h rows) :=
  decidable_of_iff ((∀ r ∈ rows, r.digest h = r.hash) ∧ links.Linked rows)
    ⟨fun hall => ⟨hall.1, hall.2⟩, fun hall => ⟨hall.1, hall.2⟩⟩

instance (h : Host) (rows rows' : List AuditLog) : Decidable (OnlyTimes h rows rows') := by
  unfold OnlyTimes
  infer_instance

instance (h : Host) (columns : Columns) (s : Log) :
    (a : Action) → Decidable (Faithful h columns s a)
  | .insert i =>
      decidable_of_iff ((s.drafts.lookup i).all fun draft =>
          decide ((columns.store s.nextPk draft.object).Agree h draft.object)) (by
        cases hdraft : s.drafts.lookup i with
        | none => simp [Faithful, hdraft]
        | some draft => simp [Faithful, hdraft])
  | .deleteUser u => inferInstanceAs (Decidable (∀ r ∈ s.rows, r.user_id ≠ some u))
  | .read _ _ _ => isTrue trivial
  | .fail _ => isTrue trivial

/-- The older row gets another resource. -/
def relabelled : List Tamper := [.edit 1 (completed 7 "/api/settings/" 100)]

/-- The older row gets another time. -/
def postponed : List Tamper := [.edit 1 (completed 7 "/api/orders/" 900)]

/-- A changed resource is found. -/
theorem relabelled_found :
    ∃ t, (auditLog jsonHost plainColumns).Run Log.empty inTurn t ∧
      Machine.RunIf.Always (auditLog jsonHost plainColumns) (fun s => Recomputes jsonHost s.rows)
          Log.empty inTurn ∧
        (tampered relabelled t.rows ≠ t.rows →
          ¬ Verifies jsonHost (tampered relabelled t.rows)) := by
  have hexec : ((auditLog jsonHost plainColumns).execIf (Faithful jsonHost plainColumns) Log.empty
      inTurn).any (fun t => decide (links.Linked t.rows) &&
        (decide (NoCollision jsonHost
          (hashedObjects jsonHost plainColumns inTurn ++ tampered relabelled t.rows)) &&
        !decide (OnlyTimes jsonHost t.rows (tampered relabelled t.rows)))) = true := by
    decide +kernel
  obtain ⟨t, ht, hfacts⟩ := (Option.any_eq_true _ _).mp hexec
  obtain ⟨hchain, hfacts⟩ := Bool.and_eq_true_iff.mp hfacts
  obtain ⟨hcollision, honly⟩ := Bool.and_eq_true_iff.mp hfacts
  have hfaithful := Machine.runIf_of_execIf ht
  have hrun : (auditLog jsonHost plainColumns).Run Log.empty inTurn t :=
    hfaithful.mono fun _ _ _ => trivial
  refine ⟨t, hrun, (tamper_evident_iff hrun (of_decide_eq_true hchain) relabelled
    (of_decide_eq_true hcollision)).mpr ⟨hfaithful, fun _ => ?_⟩⟩
  simpa using honly

/-- Nothing shows that a time was changed, and the rows of a deleted user do not hash to what they
store. -/
theorem silent_time :
    (¬ ∀ (h : Host) (columns : Columns) (as : List Action) (t : Log) (ts : List Tamper),
      (auditLog h columns).Run Log.empty as t → links.Linked t.rows →
      NoCollision h (hashedObjects h columns as ++ tampered ts t.rows) →
      tampered ts t.rows ≠ t.rows → ¬ Verifies h (tampered ts t.rows)) ∧
    ¬ ∀ (h : Host) (columns : Columns) (as : List Action) (t : Log),
      (auditLog h columns).Run Log.empty as t → links.Linked t.rows →
      NoCollision h (hashedObjects h columns as) →
      Machine.RunIf.Always (auditLog h columns) (fun s => Recomputes h s.rows) Log.empty as := by
  constructor
  · intro hall
    have hexec : ((auditLog jsonHost plainColumns).exec Log.empty inTurn).any (fun t =>
        decide (links.Linked t.rows) &&
          (decide (NoCollision jsonHost
            (hashedObjects jsonHost plainColumns inTurn ++ tampered postponed t.rows)) &&
          ((tampered postponed t.rows).map AuditLog.timestamp != t.rows.map AuditLog.timestamp &&
            decide (Verifies jsonHost (tampered postponed t.rows))))) = true := by
      decide +kernel
    obtain ⟨t, ht, hfacts⟩ := (Option.any_eq_true _ _).mp hexec
    obtain ⟨hchain, hfacts⟩ := Bool.and_eq_true_iff.mp hfacts
    obtain ⟨hcollision, hfacts⟩ := Bool.and_eq_true_iff.mp hfacts
    obtain ⟨hchanged, hverifies⟩ := Bool.and_eq_true_iff.mp hfacts
    refine hall jsonHost plainColumns inTurn t postponed (Machine.exec_eq_some_iff.mp ht)
      (of_decide_eq_true hchain) (of_decide_eq_true hcollision) ?_ (of_decide_eq_true hverifies)
    intro hsame
    simp [hsame] at hchanged
  · intro hall
    have hexec : ((auditLog jsonHost plainColumns).exec Log.empty
        (inTurn ++ [.deleteUser 7])).any (fun t =>
          decide (links.Linked t.rows) && !decide (Verifies jsonHost t.rows)) = true := by
      decide +kernel
    obtain ⟨t, ht, hfacts⟩ := (Option.any_eq_true _ _).mp hexec
    obtain ⟨hchain, hverifies⟩ := Bool.and_eq_true_iff.mp hfacts
    have hlinked : links.Linked t.rows := of_decide_eq_true hchain
    have hcollision : NoCollision jsonHost
        (hashedObjects jsonHost plainColumns (inTurn ++ [.deleteUser 7])) := by
      decide +kernel
    have halways := hall jsonHost plainColumns (inTurn ++ [.deleteUser 7]) t
      (Machine.exec_eq_some_iff.mp ht) hlinked hcollision
    have hverify : Verifies jsonHost t.rows := ⟨halways.last ht, hlinked⟩
    simp [hverify] at hverifies

end AlgoBot.Monitoring
