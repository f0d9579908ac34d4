import AlgoBot.Core.Table

/-!
# Rows under read committed

A table whose transactions read what is committed or what they have written
themselves, and hold every row they have locked or written until they end. A
statement that comes to a row another transaction holds waits for it and then
goes by what was committed.

* `get?_hold`, `get?_insert`, `get?_commit`, `get?_abort`: what a write and the
  end of a transaction do to a row.
* `Frame`: what a transaction leaves to the others, with a rule for each of these.
-/

namespace AlgoBot.Core

universe u

/-- A row with its versions. -/
structure Cell (ρ : Type u) where
  pk : ℕ
  /-- What other transactions read; none before its insertion is committed. -/
  committed : Option ρ
  /-- The transaction that holds the row, and its version. -/
  holder : Option ℕ
  draft : Option ρ

instance {ρ : Type u} : HasPk (Cell ρ) := ⟨Cell.pk⟩

namespace Cell

variable {ρ : Type u}

def visible (tx : ℕ) (c : Cell ρ) : Option ρ := if c.holder = some tx then c.draft else c.committed

/-- No other transaction holds the row. -/
def free (tx : ℕ) (c : Cell ρ) : Bool := c.holder.all fun holder => holder == tx

/-- The transaction holds the row from now on and has rewritten its version. -/
def hold (tx : ℕ) (f : ρ → ρ) (c : Cell ρ) : Cell ρ :=
  { c with holder := some tx, draft := (c.visible tx).map f }

def commit (tx : ℕ) (c : Cell ρ) : Cell ρ :=
  if c.holder = some tx then { c with committed := c.draft, holder := none, draft := none } else c

def abort (tx : ℕ) (c : Cell ρ) : Cell ρ :=
  if c.holder = some tx then { c with holder := none, draft := none } else c

theorem pk_commit (tx : ℕ) (c : Cell ρ) : (c.commit tx).pk = c.pk := by
  unfold commit
  split <;> rfl

theorem pk_abort (tx : ℕ) (c : Cell ρ) : (c.abort tx).pk = c.pk := by
  unfold abort
  split <;> rfl

theorem commit_of_ne {tx : ℕ} {c : Cell ρ} (h : c.holder ≠ some tx) : c.commit tx = c := if_neg h

theorem commit_of_holder {tx : ℕ} {c : Cell ρ} (h : c.holder = some tx) :
    c.commit tx = { c with committed := c.draft, holder := none, draft := none } := if_pos h

theorem abort_of_ne {tx : ℕ} {c : Cell ρ} (h : c.holder ≠ some tx) : c.abort tx = c := if_neg h

theorem abort_of_holder {tx : ℕ} {c : Cell ρ} (h : c.holder = some tx) :
    c.abort tx = { c with holder := none, draft := none } := if_pos h

theorem committed_abort (tx : ℕ) (c : Cell ρ) : (c.abort tx).committed = c.committed := by
  unfold abort
  split <;> rfl

/-- A free row is held by nobody else. -/
theorem holder_of_free {tx tx' : ℕ} {c : Cell ρ} (h : c.free tx = true)
    (hholder : c.holder = some tx') : tx' = tx := by
  unfold free at h
  rw [hholder] at h
  simpa using h

end Cell

/-- The rows of a table and their versions. -/
abbrev Db (ρ : Type u) := Table (Cell ρ)

namespace Db

variable {ρ : Type u}

/-- `SELECT`: the rows the transaction sees and that satisfy the condition. -/
def select (db : Db ρ) (tx : ℕ) (p : ρ → Bool) : List (ℕ × ρ) :=
  db.rows.filterMap fun c => ((c.visible tx).filter p).map fun row => (c.pk, row)

/-- Lock the row, or write it. -/
def hold (db : Db ρ) (tx k : ℕ) (f : ρ → ρ) : Db ρ :=
  match db.get? k with
  | none => db
  | some c => db.set (c.hold tx f)

def insert (db : Db ρ) (tx : ℕ) (row : ρ) : Db ρ :=
  db.create (fun k => ⟨k, none, some tx, some row⟩) fun _ => rfl

def commit (db : Db ρ) (tx : ℕ) : Db ρ := db.update (Cell.commit tx) (Cell.pk_commit tx)

def abort (db : Db ρ) (tx : ℕ) : Db ρ := db.update (Cell.abort tx) (Cell.pk_abort tx)

variable {db : Db ρ} {tx k j : ℕ}

theorem mem_select {p : ρ → Bool} {row : ρ} (h : (k, row) ∈ db.select tx p) :
    ∃ c, db.get? k = some c ∧ c.visible tx = some row ∧ p row = true := by
  obtain ⟨c, hc, hrow⟩ := List.mem_filterMap.mp h
  obtain ⟨row', hvisible, heq⟩ := Option.map_eq_some_iff.mp hrow
  obtain ⟨hvisible, hp⟩ := Option.filter_eq_some_iff.mp hvisible
  obtain ⟨rfl, rfl⟩ := Prod.mk.inj heq
  exact ⟨c, Table.get?_eq_some.mpr ⟨hc, rfl⟩, hvisible, hp⟩

theorem select_mem {p : ρ → Bool} {c : Cell ρ} {row : ρ} (hget : db.get? k = some c)
    (hvisible : c.visible tx = some row) (hp : p row = true) : (k, row) ∈ db.select tx p := by
  obtain ⟨hmem, hpk⟩ := Table.get?_eq_some.mp hget
  refine List.mem_filterMap.mpr ⟨c, hmem, ?_⟩
  have hk : c.pk = k := hpk
  simp [hvisible, hp, hk]

theorem get?_hold (db : Db ρ) (tx k : ℕ) (f : ρ → ρ) (j : ℕ) :
    (db.hold tx k f).get? j = if j = k then (db.get? k).map (Cell.hold tx f) else db.get? j := by
  cases hk : db.get? k with
  | none =>
    have hsame : db.hold tx k f = db := by rw [hold, hk]
    rw [hsame]
    by_cases hj : j = k
    · rw [if_pos hj, hj, hk, Option.map_none]
    · rw [if_neg hj]
  | some c =>
    have hpk : c.pk = k := Table.pk_of_get? hk
    have hset : db.hold tx k f = db.set (c.hold tx f) := by rw [hold, hk]
    rw [hset]
    by_cases hj : j = k
    · have hself : db.get? (HasPk.pk (c.hold tx f)) = some c := by
        rw [← hk, ← hpk]
        rfl
      rw [if_pos hj, hj, ← hpk]
      exact Table.get?_set_self hself
    · rw [if_neg hj]
      refine Table.get?_set_ne ?_
      rw [← hpk] at hj
      exact hj

theorem get?_insert (db : Db ρ) (tx : ℕ) (row : ρ) (j : ℕ) :
    (db.insert tx row).get? j =
      if j = db.nextPk then some ⟨db.nextPk, none, some tx, some row⟩ else db.get? j := by
  unfold insert
  by_cases hj : j = db.nextPk
  · rw [if_pos hj, hj]
    exact Table.get?_create_self _
  · rw [if_neg hj]
    exact Table.get?_create_ne _ hj

theorem get?_commit (db : Db ρ) (tx j : ℕ) :
    (db.commit tx).get? j = (db.get? j).map (Cell.commit tx) :=
  Table.get?_update _ _ _ _

theorem get?_abort (db : Db ρ) (tx j : ℕ) :
    (db.abort tx).get? j = (db.get? j).map (Cell.abort tx) :=
  Table.get?_update _ _ _ _

/-! ## What a transaction leaves to the others -/

/-- The rows other transactions hold are left alone, and what becomes of a committed row is related
to it. -/
structure Frame (R : ρ → ρ → Prop) (tx : ℕ) (db db' : Db ρ) : Prop where
  stays : ∀ k c j, j ≠ tx → db.get? k = some c → c.holder = some j → db'.get? k = some c
  holders : ∀ k c j, j ≠ tx → db'.get? k = some c → c.holder = some j → db.get? k = some c
  committed : ∀ k c m, db.get? k = some c → c.committed = some m →
    ∃ c' m', db'.get? k = some c' ∧ c'.committed = some m' ∧ R m' m

/-- Nothing is committed. -/
def Quiet (db db' : Db ρ) : Prop :=
  ∀ k, (db'.get? k).bind Cell.committed = (db.get? k).bind Cell.committed

variable {R : ρ → ρ → Prop} {db' : Db ρ}

theorem Frame.refl (hrefl : ∀ m, R m m) (tx : ℕ) (db : Db ρ) : Frame R tx db db where
  stays _ _ _ _ hget _ := hget
  holders _ _ _ _ hget _ := hget
  committed _ c m hget hcommitted := ⟨c, m, hget, hcommitted, hrefl m⟩

theorem Frame.trans {db'' : Db ρ} (htrans : ∀ a b c, R a b → R b c → R a c)
    (h : Frame R tx db db') (h' : Frame R tx db' db'') : Frame R tx db db'' where
  stays k c j hne hget hholder := h'.stays k c j hne (h.stays k c j hne hget hholder) hholder
  holders k c j hne hget hholder := h.holders k c j hne (h'.holders k c j hne hget hholder) hholder
  committed k c m hget hcommitted := by
    obtain ⟨c', m', hget', hcommitted', hR⟩ := h.committed k c m hget hcommitted
    obtain ⟨c'', m'', hget'', hcommitted'', hR'⟩ := h'.committed k c' m' hget' hcommitted'
    exact ⟨c'', m'', hget'', hcommitted'', htrans m'' m' m hR' hR⟩

/-- Writing a row nobody else holds. -/
theorem frame_hold (hrefl : ∀ m, R m m) {f : ρ → ρ}
    (hfree : ∀ c, db.get? k = some c → c.free tx = true) : Frame R tx db (db.hold tx k f) where
  stays l c j hne hget hholder := by
    rw [get?_hold]
    split
    · next hl =>
      subst hl
      exact absurd (Cell.holder_of_free (hfree c hget) hholder) hne
    · exact hget
  holders l c j hne hget hholder := by
    rw [get?_hold] at hget
    split at hget
    · obtain ⟨d, _, rfl⟩ := Option.map_eq_some_iff.mp hget
      exact absurd (Option.some.inj hholder).symm hne
    · exact hget
  committed l c m hget hcommitted := by
    rw [get?_hold]
    split
    · next hl =>
      subst hl
      rw [hget]
      exact ⟨c.hold tx f, m, rfl, hcommitted, hrefl m⟩
    · exact ⟨c, m, hget, hcommitted, hrefl m⟩

theorem quiet_hold {f : ρ → ρ} : Quiet db (db.hold tx k f) := by
  intro l
  rw [get?_hold]
  split
  · next hl =>
    rw [hl]
    cases db.get? k with
    | none => rfl
    | some c => rfl
  · rfl

theorem frame_insert (hrefl : ∀ m, R m m) (row : ρ) : Frame R tx db (db.insert tx row) where
  stays l c j _ hget _ := by
    rw [get?_insert, if_neg]
    · exact hget
    · rintro rfl
      rw [Table.get?_nextPk] at hget
      cases hget
  holders l c j hne hget hholder := by
    rw [get?_insert] at hget
    split at hget
    · cases hget
      exact absurd (Option.some.inj hholder).symm hne
    · exact hget
  committed l c m hget hcommitted := by
    refine ⟨c, m, ?_, hcommitted, hrefl m⟩
    rw [get?_insert, if_neg]
    · exact hget
    · rintro rfl
      rw [Table.get?_nextPk] at hget
      cases hget

theorem quiet_insert (row : ρ) : Quiet db (db.insert tx row) := by
  intro l
  rw [get?_insert]
  split
  · next hl =>
    rw [hl, Table.get?_nextPk]
    rfl
  · rfl

/-- A transaction that has written related versions commits. -/
theorem frame_commit (hrefl : ∀ m, R m m)
    (hdraft : ∀ k c m, db.get? k = some c → c.holder = some tx → c.committed = some m →
      ∃ m', c.draft = some m' ∧ R m' m) : Frame R tx db (db.commit tx) where
  stays l c j hne hget hholder := by
    rw [get?_commit, hget, Option.map_some, Cell.commit_of_ne]
    rw [hholder]
    exact fun heq => hne (Option.some.inj heq)
  holders l c j hne hget hholder := by
    rw [get?_commit] at hget
    obtain ⟨d, hd, rfl⟩ := Option.map_eq_some_iff.mp hget
    by_cases hself : d.holder = some tx
    · rw [Cell.commit_of_holder hself] at hholder
      cases hholder
    · rw [Cell.commit_of_ne hself]
      exact hd
  committed l c m hget hcommitted := by
    rw [get?_commit, hget]
    by_cases hself : c.holder = some tx
    · obtain ⟨m', hm', hR⟩ := hdraft l c m hget hself hcommitted
      refine ⟨c.commit tx, m', rfl, ?_, hR⟩
      rw [Cell.commit_of_holder hself]
      exact hm'
    · refine ⟨c.commit tx, m, rfl, ?_, hrefl m⟩
      rw [Cell.commit_of_ne hself]
      exact hcommitted

theorem frame_abort (hrefl : ∀ m, R m m) : Frame R tx db (db.abort tx) where
  stays l c j hne hget hholder := by
    rw [get?_abort, hget, Option.map_some, Cell.abort_of_ne]
    rw [hholder]
    exact fun heq => hne (Option.some.inj heq)
  holders l c j hne hget hholder := by
    rw [get?_abort] at hget
    obtain ⟨d, hd, rfl⟩ := Option.map_eq_some_iff.mp hget
    by_cases hself : d.holder = some tx
    · rw [Cell.abort_of_holder hself] at hholder
      cases hholder
    · rw [Cell.abort_of_ne hself]
      exact hd
  committed l c m hget hcommitted := by
    rw [get?_abort, hget]
    exact ⟨c.abort tx, m, rfl, by rw [Cell.committed_abort]; exact hcommitted, hrefl m⟩

theorem quiet_abort : Quiet db (db.abort tx) := by
  intro l
  rw [get?_abort]
  cases db.get? l with
  | none => rfl
  | some c => exact Cell.committed_abort tx c

end Db

end AlgoBot.Core
