import AlgoBot.Core.HashChain
import AlgoBot.Core.Machine
import AlgoBot.Python.Json

/-!
# The audit log

`AuditLog.save` looks up the newest row by its time, names the hash of that row,
hashes the fields of the new one and inserts it. Saves overlap: the lookup and
the insertion are steps of their own, and the times come from the clocks of
several workers. Deleting a user keeps his rows and empties their user.

* `one_chain_iff`: in every run the rows are one chain exactly if every insertion
  is of an object whose lookup found the row that was inserted last.
* `forked_log`: two overlapping saves.
-/

namespace AlgoBot.Monitoring

open AlgoBot.Core AlgoBot.Python

/-! ## Rows -/

structure AuditLog where
  pk : ℕ
  user_id : Option ℕ
  action : String
  module : String
  resource : String
  old_value : Value
  new_value : Value
  ip_address : Option String
  timestamp : ℕ
  previous_hash : String
  hash : String

namespace AuditLog

/-- What `save` hashes. -/
def payload (a : AuditLog) : Value :=
  .dict [("user", (a.user_id.map fun u => Value.int u).getD .none), ("action", .str a.action),
    ("module", .str a.module), ("resource", .str a.resource), ("old", a.old_value),
    ("new", a.new_value), ("ip", (a.ip_address.map Value.str).getD .none),
    ("previous", .str a.previous_hash)]

/-- `hashlib.sha256(json.dumps(payload).encode()).hexdigest()`. -/
def digest (h : Host) (a : AuditLog) : String := h.sha256 (h.dumps a.payload)

/-- The hashed fields of the two agree; a JSON value is what `json.dumps` writes. -/
def Agree (h : Host) (a b : AuditLog) : Prop :=
  a.user_id = b.user_id ∧ a.action = b.action ∧ a.module = b.module ∧ a.resource = b.resource ∧
    h.dumps a.old_value = h.dumps b.old_value ∧ h.dumps a.new_value = h.dumps b.new_value ∧
    a.ip_address = b.ip_address ∧ a.previous_hash = b.previous_hash

instance (h : Host) (a b : AuditLog) : Decidable (a.Agree h b) := by
  unfold Agree
  infer_instance

end AuditLog

/-- Among these objects only those that agree have one digest, and none has the text `save` writes
where there is no row. -/
structure NoCollision (h : Host) (objects : List AuditLog) : Prop where
  genesis : ∀ a ∈ objects, a.digest h ≠ "genesis"
  agree : ∀ a ∈ objects, ∀ b ∈ objects, a.digest h = b.digest h ↔ a.Agree h b

/-- What the columns give back for a value: the database keeps JSON and addresses in a form of its
own. -/
structure Columns where
  json : Value → Value
  address : String → String

/-- The columns of an address: an empty one is `NULL`. -/
def Columns.ip (columns : Columns) : Option String → Option String
  | none => none
  | some "" => none
  | some address => some (columns.address address)

/-- The row an object is stored as. -/
def Columns.store (columns : Columns) (pk : ℕ) (a : AuditLog) : AuditLog :=
  { a with
    pk := pk
    old_value := columns.json a.old_value
    new_value := columns.json a.new_value
    ip_address := columns.ip a.ip_address }

/-! ## The log -/

/-- What a save has in its hands between the lookup and the insertion. -/
structure Draft where
  previous : Option AuditLog
  object : AuditLog

structure Log where
  /-- The newest row first. -/
  rows : List AuditLog
  nextPk : ℕ
  drafts : List (ℕ × Draft)
  /-- The users that are no more. -/
  deleted : List ℕ

def Log.empty : Log := ⟨[], 1, [], []⟩

inductive Action
  /-- Process `i` saves an object, and its lookup returns one of the rows with the latest time. -/
  | read (i : ℕ) (object : AuditLog) (choice : ℕ)
  | insert (i : ℕ)
  /-- Process `i` fails before it has inserted. -/
  | fail (i : ℕ)
  | deleteUser (user_id : ℕ)

/-- The rows `order_by("-timestamp").first()` may return. -/
def latest (rows : List AuditLog) : List AuditLog :=
  rows.filter fun r => rows.all fun q => q.timestamp ≤ r.timestamp

/-- `previous.hash if previous else "genesis"`. -/
def hashOr : Option AuditLog → String
  | some previous => previous.hash
  | none => "genesis"

/-- The object as `save` inserts it. -/
def AuditLog.signed (h : Host) (a : AuditLog) (previous : Option AuditLog) : AuditLog :=
  let a := { a with
    previous_hash := if a.previous_hash = "" then hashOr previous else a.previous_hash }
  { a with hash := a.digest h }

/-- `on_delete=models.SET_NULL`. -/
def AuditLog.forget (user_id : ℕ) (a : AuditLog) : AuditLog :=
  if a.user_id = some user_id then { a with user_id := none } else a

namespace Log

def take (s : Log) (i : ℕ) : Log := { s with drafts := s.drafts.filter fun d => d.1 ≠ i }

def next (h : Host) (columns : Columns) (s : Log) : Action → Option Log
  | .read i object choice =>
      -- `objects.create` passes neither hash
      if object.previous_hash ≠ "" ∨ (s.drafts.lookup i).isSome then none
      else
        match (latest s.rows)[choice]?, s.rows with
        | some previous, _ =>
            some { s with
              drafts := (i, ⟨some previous, object.signed h (some previous)⟩) :: s.drafts }
        | none, [] => some { s with drafts := (i, ⟨none, object.signed h none⟩) :: s.drafts }
        | none, _ :: _ => none
  | .insert i =>
      match s.drafts.lookup i with
      | none => none
      | some draft =>
          -- the foreign key is checked
          if draft.object.user_id.any fun u => s.deleted.contains u then none
          else
            some { s.take i with
              rows := columns.store s.nextPk draft.object :: s.rows, nextPk := s.nextPk + 1 }
  | .fail i => if (s.drafts.lookup i).isSome then some (s.take i) else none
  | .deleteUser u =>
      if s.deleted.contains u then none
      else some { s with rows := s.rows.map (AuditLog.forget u), deleted := u :: s.deleted }

/-- The objects the state knows of. -/
def objects (s : Log) : List AuditLog := s.drafts.map (·.2.object) ++ s.rows

end Log

def auditLog (h : Host) (columns : Columns) : Machine Log Action where
  next := Log.next h columns

/-- What links the rows. -/
def links : Links AuditLog String where
  prev := AuditLog.previous_hash
  hash := AuditLog.hash
  genesis := "genesis"

/-- An insertion is of an object whose lookup found the row that was inserted last. -/
def Latest (s : Log) : Action → Prop
  | .insert i => ∀ draft, s.drafts.lookup i = some draft →
      draft.previous.map AuditLog.pk = s.rows.head?.map AuditLog.pk
  | _ => True

/-! ## Steps -/

variable {h : Host} {columns : Columns} {s s' t : Log} {a : Action} {as : List Action} {i : ℕ}
  {draft : Draft} {r q : AuditLog} {W : List AuditLog}

@[simp] theorem hash_store (pk : ℕ) (o : AuditLog) : (columns.store pk o).hash = o.hash := rfl

@[simp] theorem previous_hash_store (pk : ℕ) (o : AuditLog) :
    (columns.store pk o).previous_hash = o.previous_hash := rfl

@[simp] theorem pk_forget (u : ℕ) (r : AuditLog) : (r.forget u).pk = r.pk := by
  unfold AuditLog.forget
  split <;> rfl

@[simp] theorem hash_forget (u : ℕ) (r : AuditLog) : (r.forget u).hash = r.hash := by
  unfold AuditLog.forget
  split <;> rfl

@[simp] theorem previous_hash_forget (u : ℕ) (r : AuditLog) :
    (r.forget u).previous_hash = r.previous_hash := by
  unfold AuditLog.forget
  split <;> rfl

/-- What a step does. -/
inductive Step (h : Host) (columns : Columns) (s : Log) : Action → Log → Prop
  | read (i : ℕ) (object : AuditLog) (choice : ℕ) (previous : Option AuditLog)
      (hnew : object.previous_hash = "") (hfree : s.drafts.lookup i = none)
      (hfound : ∀ q, previous = some q → q ∈ s.rows) (hnone : previous = none → s.rows = []) :
      Step h columns s (.read i object choice)
        { s with drafts := (i, ⟨previous, object.signed h previous⟩) :: s.drafts }
  | insert (i : ℕ) (draft : Draft) (hdraft : s.drafts.lookup i = some draft)
      (huser : ∀ u, draft.object.user_id = some u → u ∉ s.deleted) :
      Step h columns s (.insert i)
        { s.take i with
          rows := columns.store s.nextPk draft.object :: s.rows, nextPk := s.nextPk + 1 }
  | fail (i : ℕ) : Step h columns s (.fail i) (s.take i)
  | deleteUser (u : ℕ) (hu : u ∉ s.deleted) :
      Step h columns s (.deleteUser u)
        { s with rows := s.rows.map (AuditLog.forget u), deleted := u :: s.deleted }

theorem step_cases (hnext : (auditLog h columns).next s a = some s') : Step h columns s a s' := by
  cases a with
  | read i object choice =>
    simp only [auditLog, Log.next] at hnext
    split at hnext
    · cases hnext
    · next hready =>
      obtain ⟨hnew, hfree⟩ := not_or.mp hready
      rw [not_not] at hnew
      rw [Bool.not_eq_true, Option.isSome_eq_false_iff, Option.isNone_iff_eq_none] at hfree
      split at hnext
      · next previous hchoice =>
        cases hnext
        refine Step.read i object choice (some previous) hnew hfree ?_ nofun
        rintro q hq
        cases hq
        exact List.mem_of_mem_filter (List.mem_of_getElem? hchoice)
      · next _ hrows =>
        cases hnext
        exact Step.read i object choice none hnew hfree nofun fun _ => hrows
      · cases hnext
  | insert i =>
    simp only [auditLog, Log.next] at hnext
    split at hnext
    · cases hnext
    · next draft hdraft =>
      split at hnext
      · cases hnext
      · next huser =>
        cases hnext
        refine Step.insert i draft hdraft ?_
        intro u hu hdeleted
        apply huser
        rw [hu]
        simpa using hdeleted
  | fail i =>
    simp only [auditLog, Log.next] at hnext
    split at hnext
    · cases hnext
      exact Step.fail i
    · cases hnext
  | deleteUser u =>
    simp only [auditLog, Log.next] at hnext
    split at hnext
    · cases hnext
    · next hu =>
      cases hnext
      exact Step.deleteUser u (by simpa using hu)

/-- Where the newest row has the latest time, the lookup finds it. -/
theorem latest_newest {rows : List AuditLog} (hlast : ∀ q ∈ rows, q.timestamp < r.timestamp) :
    latest (r :: rows) = [r] := by
  unfold latest
  rw [List.filter_cons_of_pos, List.filter_eq_nil_iff.mpr]
  · intro q hq hall
    have hle : r.timestamp ≤ q.timestamp := by
      simpa using List.all_eq_true.mp hall r List.mem_cons_self
    have hlt := hlast q hq
    omega
  · simpa using fun q hq => (hlast q hq).le

/-! ## What holds of every log -/

theorem draft_mem_objects (hdraft : s.drafts.lookup i = some draft) : draft.object ∈ s.objects :=
  List.mem_append_left _ (List.mem_map.mpr ⟨(i, draft), mem_of_lookup hdraft, rfl⟩)

theorem row_mem_objects (hr : r ∈ s.rows) : r ∈ s.objects := List.mem_append_right _ hr

/-- The row was hashed as one of the objects. -/
def Hashed (h : Host) (W : List AuditLog) (r : AuditLog) : Prop :=
  ∃ o ∈ W, r.hash = o.digest h ∧ r.previous_hash = o.previous_hash

/-- A draft holds its hash, and names the row it found. -/
structure Draft.Inv (h : Host) (s : Log) (draft : Draft) : Prop where
  signed : draft.object.hash = draft.object.digest h
  names : draft.object.previous_hash = hashOr draft.previous
  found : ∀ q, draft.previous = some q → ∃ r ∈ s.rows, r.pk = q.pk ∧ r.hash = q.hash

structure Log.Inv (h : Host) (W : List AuditLog) (s : Log) : Prop where
  hashed : ∀ r ∈ s.rows, Hashed h W r
  pk : ∀ r ∈ s.rows, r.pk < s.nextPk
  nodup : (s.rows.map AuditLog.pk).Nodup
  drafts : ∀ d ∈ s.drafts, d.2.Inv h s

theorem inv_empty : Log.empty.Inv h W where
  hashed := nofun
  pk := nofun
  nodup := List.nodup_nil
  drafts := nofun

theorem names_signed (o : AuditLog) (previous : Option AuditLog) (hnew : o.previous_hash = "") :
    (o.signed h previous).previous_hash = hashOr previous := if_pos hnew

theorem inv_step (hstep : Step h columns s a s') (hinv : s.Inv h W) (hW : s.objects ⊆ W) :
    s'.Inv h W := by
  cases hstep with
  | read i object choice previous hnew hfree hfound hnone =>
    refine ⟨hinv.hashed, hinv.pk, hinv.nodup, ?_⟩
    intro d hd
    rcases List.mem_cons.mp hd with rfl | hd
    · exact ⟨rfl, names_signed object previous hnew, fun q hq => ⟨q, hfound q hq, rfl, rfl⟩⟩
    · have hdraft := hinv.drafts d hd
      exact ⟨hdraft.signed, hdraft.names, hdraft.found⟩
  | insert i draft hdraft huser =>
    have hobject := hinv.drafts (i, draft) (mem_of_lookup hdraft)
    refine ⟨?_, ?_, ?_, ?_⟩
    · intro r hr
      rcases List.mem_cons.mp hr with rfl | hr
      · exact ⟨draft.object, hW (draft_mem_objects hdraft), hobject.signed, rfl⟩
      · exact hinv.hashed r hr
    · intro r hr
      rcases List.mem_cons.mp hr with rfl | hr
      · exact Nat.lt_succ_self _
      · exact Nat.lt_succ_of_lt (hinv.pk r hr)
    · refine List.nodup_cons.mpr ⟨?_, hinv.nodup⟩
      intro hmem
      obtain ⟨r, hr, hpk⟩ := List.mem_map.mp hmem
      have hlt := hinv.pk r hr
      rw [hpk] at hlt
      exact lt_irrefl _ hlt
    · intro d hd
      have hold := hinv.drafts d (List.mem_of_mem_filter hd)
      refine ⟨hold.signed, hold.names, ?_⟩
      intro q hq
      obtain ⟨r, hr, hsame⟩ := hold.found q hq
      exact ⟨r, List.mem_cons_of_mem _ hr, hsame⟩
  | fail i =>
    refine ⟨hinv.hashed, hinv.pk, hinv.nodup, ?_⟩
    intro d hd
    have hold := hinv.drafts d (List.mem_of_mem_filter hd)
    exact ⟨hold.signed, hold.names, hold.found⟩
  | deleteUser u hu =>
    refine ⟨?_, ?_, ?_, ?_⟩
    · intro r hr
      obtain ⟨q, hq, rfl⟩ := List.mem_map.mp hr
      obtain ⟨o, ho, hhash, hprev⟩ := hinv.hashed q hq
      exact ⟨o, ho, by rw [hash_forget, hhash], by rw [previous_hash_forget, hprev]⟩
    · intro r hr
      obtain ⟨q, hq, rfl⟩ := List.mem_map.mp hr
      rw [pk_forget]
      exact hinv.pk q hq
    · have hpks : (s.rows.map (AuditLog.forget u)).map AuditLog.pk = s.rows.map AuditLog.pk := by
        simp [Function.comp_def]
      rw [hpks]
      exact hinv.nodup
    · intro d hd
      have hold := hinv.drafts d hd
      refine ⟨hold.signed, hold.names, ?_⟩
      intro q hq
      obtain ⟨r, hr, hpk, hhash⟩ := hold.found q hq
      exact ⟨r.forget u, List.mem_map_of_mem hr, by rw [pk_forget, hpk], by rw [hash_forget, hhash]⟩

namespace Log.Inv

theorem sealed (hinv : s.Inv h W) (hW : NoCollision h W) : links.Sealed s.rows where
  genesis r hr := by
    obtain ⟨o, ho, hhash, _⟩ := hinv.hashed r hr
    intro hgenesis
    exact hW.genesis o ho (hhash.symm.trans hgenesis)
  prev r hr q hq hsame := by
    obtain ⟨o, ho, hhash, hprev⟩ := hinv.hashed r hr
    obtain ⟨o', ho', hhash', hprev'⟩ := hinv.hashed q hq
    have hdigest : o.digest h = o'.digest h := hhash.symm.trans (hsame.trans hhash')
    have hagree := (hW.agree o ho o' ho').mp hdigest
    calc r.previous_hash = o.previous_hash := hprev
      _ = o'.previous_hash := hagree.2.2.2.2.2.2.2
      _ = q.previous_hash := hprev'.symm

theorem distinct (hinv : s.Inv h W) : s.rows.Nodup := hinv.nodup.of_map

/-- Rows with one primary key are one row. -/
theorem eq_of_pk (hinv : s.Inv h W) (hr : r ∈ s.rows) (hq : q ∈ s.rows) (hpk : r.pk = q.pk) :
    r = q :=
  List.inj_on_of_nodup_map hinv.nodup hr hq hpk

/-- A draft names the newest row exactly if that is the row it found. -/
theorem names_tip_iff (hinv : s.Inv h W) (hW : NoCollision h W) (hlinked : links.Linked s.rows)
    (hdraft : s.drafts.lookup i = some draft) :
    draft.object.previous_hash = links.tip s.rows ↔
      draft.previous.map AuditLog.pk = s.rows.head?.map AuditLog.pk := by
  have hobject := hinv.drafts (i, draft) (mem_of_lookup hdraft)
  have hsealed := hinv.sealed hW
  have hdistinct := hlinked.distinct hsealed hinv.distinct
  rw [hobject.names]
  cases hrows : s.rows with
  | nil =>
    cases hprevious : draft.previous with
    | none => exact iff_of_true rfl rfl
    | some q =>
      obtain ⟨r, hr, _⟩ := hobject.found q hprevious
      rw [hrows] at hr
      cases hr
  | cons x rows =>
    have hx : x ∈ s.rows := by
      rw [hrows]
      exact List.mem_cons_self
    cases hprevious : draft.previous with
    | none => exact iff_of_false (fun hgenesis => hsealed.genesis x hx hgenesis.symm) nofun
    | some q =>
      obtain ⟨r, hr, hpk, hhash⟩ := hobject.found q hprevious
      constructor
      · intro hsame
        have hrx : links.hash r = links.hash x := hhash.trans hsame
        have heq := hdistinct r hr x hx (hsealed.prev r hr x hx hrx)
        exact congrArg some (hpk.symm.trans (congrArg AuditLog.pk heq))
      · intro hsame
        have heq := hinv.eq_of_pk hr hx (hpk.trans (Option.some.inj hsame))
        exact hhash.symm.trans (congrArg AuditLog.hash heq)

end Log.Inv

theorem linked_forget (u : ℕ) (rows : List AuditLog) :
    links.Linked (rows.map (AuditLog.forget u)) ↔ links.Linked rows := by
  induction rows with
  | nil => exact Iff.rfl
  | cons r rows ih =>
    have htip : links.tip (rows.map (AuditLog.forget u)) = links.tip rows := by
      cases rows with
      | nil => rfl
      | cons q rows => exact hash_forget u q
    have hprev : links.prev (r.forget u) = links.prev r := previous_hash_forget u r
    simp only [List.map_cons, Links.Linked, ih, htip, hprev]

theorem linked_step (hstep : Step h columns s a s') (hinv : s.Inv h W) (hW : NoCollision h W)
    (hlinked : links.Linked s.rows) : links.Linked s'.rows ↔ Latest s a := by
  cases hstep with
  | read i object choice previous hnew hfree hfound hnone => exact iff_of_true hlinked trivial
  | insert i draft hdraft huser =>
    have htip := hinv.names_tip_iff hW hlinked hdraft
    constructor
    · rintro ⟨hnames, _⟩ draft' hdraft'
      obtain rfl := Option.some.inj (hdraft'.symm.trans hdraft)
      exact htip.mp hnames
    · intro hlatest
      exact ⟨htip.mpr (hlatest draft hdraft), hlinked⟩
  | fail i => exact iff_of_true hlinked trivial
  | deleteUser u hu => exact iff_of_true ((linked_forget u s.rows).mpr hlinked) trivial

/-! ## Runs -/

/-- Every object and row of the run. -/
def hashedObjects (h : Host) (columns : Columns) (as : List Action) : List AuditLog :=
  ((auditLog h columns).visited Log.empty as).flatMap Log.objects

/-- The step is among the objects of the run. -/
def Within (h : Host) (columns : Columns) (as : List Action) (s : Log) (a : Action) : Prop :=
  s.objects ⊆ hashedObjects h columns as ∧
    ∀ s', (auditLog h columns).next s a = some s' → s'.objects ⊆ hashedObjects h columns as

theorem run_within (hrun : (auditLog h columns).Run Log.empty as t) :
    (auditLog h columns).RunIf (Within h columns as) Log.empty as t := by
  have hsub : ∀ s ∈ (auditLog h columns).visited Log.empty as,
      s.objects ⊆ hashedObjects h columns as := by
    intro s hs o ho
    exact List.mem_flatMap.mpr ⟨s, hs, ho⟩
  exact (Machine.RunIf.in_visited hrun).mono fun s a hs =>
    ⟨hsub s hs.1, fun s' hnext => hsub s' (hs.2 s' hnext)⟩

theorem inv_within (s : Log) (a : Action) (s' : Log) (hwithin : Within h columns as s a)
    (hinv : s.Inv h (hashedObjects h columns as))
    (hnext : (auditLog h columns).next s a = some s') :
    s'.Inv h (hashedObjects h columns as) :=
  inv_step (step_cases hnext) hinv hwithin.1

/-- In every run the rows are one chain exactly if every insertion follows the row it names. -/
theorem one_chain_iff (hrun : (auditLog h columns).Run Log.empty as t)
    (hcollision : NoCollision h (hashedObjects h columns as)) :
    Machine.RunIf.Always (auditLog h columns) (fun s => links.OneChain s.rows) Log.empty as ↔
      (auditLog h columns).RunIf Latest Log.empty as t := by
  have hstep : ∀ s a s', Within h columns as s a → s.Inv h (hashedObjects h columns as) →
      links.OneChain s.rows → (auditLog h columns).next s a = some s' →
      (links.OneChain s'.rows ↔ Latest s a) := by
    intro s a s' hwithin hs hchain hnext
    have hs' := inv_within s a s' hwithin hs hnext
    have hlinked := hchain.linked_all hs.distinct
    rw [Links.oneChain_iff_linked (hs'.sealed hcollision) hs'.distinct]
    exact linked_step (step_cases hnext) hs hcollision hlinked
  have hempty : links.OneChain Log.empty.rows := by
    rw [Links.oneChain_iff_linked (inv_empty.sealed hcollision) List.nodup_nil]
    exact trivial
  rw [Machine.RunIf.always_iff_within inv_within hstep (run_within hrun) inv_empty]
  exact and_iff_right hempty

/-! ### Two workers -/

def jsonHost : Host := { Host.ascii with dumps := jsonText spaced }

/-- Columns that give back what they are given. -/
def plainColumns : Columns := ⟨id, id⟩

/-- What the middleware records of a request. -/
def completed (user_id : ℕ) (resource : String) (timestamp : ℕ) : AuditLog :=
  ⟨0, some user_id, "post_completed", "execution", resource, .none, .none, some "10.0.0.1",
    timestamp, "", ""⟩

instance (h : Host) (objects : List AuditLog) : Decidable (NoCollision h objects) :=
  decidable_of_iff
    ((∀ a ∈ objects, a.digest h ≠ "genesis") ∧
      ∀ a ∈ objects, ∀ b ∈ objects, a.digest h = b.digest h ↔ a.Agree h b)
    ⟨fun hall => ⟨hall.1, hall.2⟩, fun hall => ⟨hall.1, hall.2⟩⟩

def inTurn : List Action :=
  [.read 1 (completed 7 "/api/orders/" 100) 0, .insert 1,
    .read 2 (completed 8 "/api/orders/" 100) 0, .insert 2]

def overlapping : List Action :=
  [.read 1 (completed 7 "/api/orders/" 100) 0, .read 2 (completed 8 "/api/orders/" 100) 0,
    .insert 1, .insert 2]

instance (s : Log) : (a : Action) → Decidable (Latest s a)
  | .insert i =>
      decidable_of_iff ((s.drafts.lookup i).all fun draft =>
          decide (draft.previous.map AuditLog.pk = s.rows.head?.map AuditLog.pk)) (by
        cases hdraft : s.drafts.lookup i with
        | none => simp [Latest, hdraft]
        | some draft => simp [Latest, hdraft])
  | .read _ _ _ => isTrue trivial
  | .fail _ => isTrue trivial
  | .deleteUser _ => isTrue trivial

/-- Two requests one after the other, at one time. -/
theorem in_turn_one_chain :
    Machine.RunIf.Always (auditLog jsonHost plainColumns) (fun s => links.OneChain s.rows) Log.empty
      inTurn := by
  have hexec : ((auditLog jsonHost plainColumns).execIf Latest Log.empty inTurn).isSome = true := by
    decide +kernel
  obtain ⟨t, ht⟩ := Machine.exists_runIf hexec
  have hcollision : NoCollision jsonHost (hashedObjects jsonHost plainColumns inTurn) := by
    decide +kernel
  exact (one_chain_iff (ht.mono fun _ _ _ => trivial) hcollision).mpr ht

/-- Two requests whose saves overlap: both rows name the genesis. -/
theorem forked_log :
    ¬ ∀ (h : Host) (columns : Columns) (as : List Action) (t : Log),
      (auditLog h columns).Run Log.empty as t → NoCollision h (hashedObjects h columns as) →
      Machine.RunIf.Always (auditLog h columns) (fun s => links.OneChain s.rows) Log.empty as := by
  intro hall
  have hfork : ((auditLog jsonHost plainColumns).exec Log.empty overlapping).any (fun t =>
      t.rows.any fun r => t.rows.any fun q =>
        r.previous_hash == q.previous_hash && r.pk != q.pk) = true := by
    decide +kernel
  obtain ⟨t, hexec, hrows⟩ := (Option.any_eq_true _ _).mp hfork
  have hcollision : NoCollision jsonHost (hashedObjects jsonHost plainColumns overlapping) := by
    decide +kernel
  have halways := hall jsonHost plainColumns overlapping t (Machine.exec_eq_some_iff.mp hexec)
    hcollision
  have hdistinct := (halways.last hexec).distinct
  obtain ⟨r, hr, hrows⟩ := List.any_eq_true.mp hrows
  obtain ⟨q, hq, hrows⟩ := List.any_eq_true.mp hrows
  obtain ⟨hprev, hpk⟩ := Bool.and_eq_true_iff.mp hrows
  have hlinks : links.prev r = links.prev q := beq_iff_eq.mp hprev
  have hsame := hdistinct r hr q hq hlinks
  simp [hsame] at hpk

end AlgoBot.Monitoring
