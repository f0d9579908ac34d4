import Mathlib.Algebra.BigOperators.Group.List.Basic
import Mathlib.Data.List.Nodup

/-!
# Tables of rows with a primary key

A table keeps its rows in the order a query without an explicit ordering
returns them, newest first. The invariant that no two rows share a primary key
is a field, so a table that breaks it cannot be built. `set` is an `UPDATE` by
primary key, `create` an `INSERT` with the next free key, `sum` adds up a column.
-/

namespace AlgoBot.Core

universe u

/-- Rows that carry their primary key. -/
class HasPk (ρ : Type u) where
  pk : ρ → ℕ

/-- A table: no two rows have the same primary key. -/
structure Table (ρ : Type u) [HasPk ρ] where
  rows : List ρ
  nodup : (rows.map HasPk.pk).Nodup

namespace Table

open HasPk

variable {ρ : Type u} [HasPk ρ]

/-- The empty table. -/
def empty : Table ρ := ⟨[], List.nodup_nil⟩

instance : Membership ρ (Table ρ) := ⟨fun t r => r ∈ t.rows⟩

theorem mem_def {t : Table ρ} {r : ρ} : r ∈ t ↔ r ∈ t.rows := Iff.rfl

/-- First row satisfying the filter, `objects.filter(p).first()`. -/
def find? (t : Table ρ) (p : ρ → Bool) : Option ρ := t.rows.find? p

/-- The row with the given primary key, `objects.filter(pk=k).first()`. -/
def get? (t : Table ρ) (k : ℕ) : Option ρ := t.find? fun r => pk r == k

/-- The next free primary key. -/
def nextPk (t : Table ρ) : ℕ := (t.rows.map pk).foldr max 0 + 1

/-- Replace the row that has the key of `r`. -/
def replace (r q : ρ) : ρ := if pk q = pk r then r else q

theorem pk_replace (r q : ρ) : pk (replace r q) = pk q := by
  unfold replace
  split
  · next h => exact h.symm
  · rfl

/-- `DELETE ... WHERE pk = k`. -/
def delete (t : Table ρ) (k : ℕ) : Table ρ where
  rows := t.rows.filter fun r => pk r != k
  nodup := t.nodup.sublist (List.filter_sublist.map pk)

/-- `UPDATE ... WHERE pk = r.pk`. -/
def set (t : Table ρ) (r : ρ) : Table ρ where
  rows := t.rows.map (replace r)
  nodup := by
    have h : (t.rows.map (replace r)).map pk = t.rows.map pk := by
      rw [List.map_map]
      exact List.map_congr_left fun q _ => pk_replace r q
    rw [h]
    exact t.nodup

/-- `UPDATE` of every row, which keeps the keys. -/
def update (t : Table ρ) (f : ρ → ρ) (hf : ∀ r, pk (f r) = pk r) : Table ρ where
  rows := t.rows.map f
  nodup := by
    have h : (t.rows.map f).map pk = t.rows.map pk := by
      rw [List.map_map]
      exact List.map_congr_left fun q _ => hf q
    rw [h]
    exact t.nodup

theorem pk_lt_nextPk {t : Table ρ} {r : ρ} (h : r ∈ t) : pk r < t.nextPk := by
  have key : ∀ l : List ℕ, ∀ k ∈ l, k ≤ l.foldr max 0 := by
    intro l
    induction l with
    | nil => simp
    | cons a l ih =>
      intro k hk
      rcases List.mem_cons.mp hk with rfl | hk
      · exact Nat.le_max_left _ _
      · exact Nat.le_trans (ih k hk) (Nat.le_max_right _ _)
  exact Nat.lt_succ_of_le (key _ _ (List.mem_map_of_mem h))

/-- `INSERT`: the row built from the next free key goes first. -/
def create (t : Table ρ) (mk : ℕ → ρ) (hmk : ∀ k, pk (mk k) = k) : Table ρ where
  rows := mk t.nextPk :: t.rows
  nodup := by
    rw [List.map_cons, List.nodup_cons, hmk]
    refine ⟨fun h => ?_, t.nodup⟩
    obtain ⟨r, hr, hk⟩ := List.mem_map.mp h
    have hlt : pk r < t.nextPk := pk_lt_nextPk hr
    omega

/-! ## Lookups -/

theorem eq_of_pk_eq {t : Table ρ} {r q : ρ} (hr : r ∈ t) (hq : q ∈ t) (h : pk r = pk q) : r = q :=
  List.inj_on_of_nodup_map t.nodup hr hq h

theorem mem_of_find? {t : Table ρ} {p : ρ → Bool} {r : ρ} (h : t.find? p = some r) : r ∈ t :=
  List.mem_of_find?_eq_some h

theorem of_find? {t : Table ρ} {p : ρ → Bool} {r : ρ} (h : t.find? p = some r) : p r = true :=
  List.find?_some h

theorem not_of_find?_none {t : Table ρ} {p : ρ → Bool} (h : t.find? p = none) {r : ρ} (hr : r ∈ t) :
    p r = false := by
  simpa using List.find?_eq_none.mp h r hr

theorem get?_eq_some {t : Table ρ} {k : ℕ} {r : ρ} : t.get? k = some r ↔ r ∈ t ∧ pk r = k := by
  constructor
  · intro h
    exact ⟨mem_of_find? h, by simpa using of_find? h⟩
  · rintro ⟨hr, rfl⟩
    cases h : t.get? (pk r) with
    | none => simpa using not_of_find?_none h hr
    | some q =>
      have hq : pk q = pk r := by simpa using of_find? h
      rw [eq_of_pk_eq (mem_of_find? h) hr hq]

theorem get?_pk {t : Table ρ} {r : ρ} (h : r ∈ t) : t.get? (pk r) = some r :=
  get?_eq_some.mpr ⟨h, rfl⟩

theorem pk_of_get? {t : Table ρ} {k : ℕ} {r : ρ} (h : t.get? k = some r) : pk r = k :=
  (get?_eq_some.mp h).2

theorem get?_update (t : Table ρ) (f : ρ → ρ) (hf : ∀ r, pk (f r) = pk r) (k : ℕ) :
    (t.update f hf).get? k = (t.get? k).map f := by
  unfold get? find? update
  rw [List.find?_map]
  congr 2
  funext r
  simp only [Function.comp_apply, hf]

/-! ## Lookups after an update -/

omit [HasPk ρ] in
theorem find?_congr {p q : ρ → Bool} {l : List ρ} (h : ∀ r ∈ l, p r = q r) :
    l.find? p = l.find? q := by
  induction l with
  | nil => rfl
  | cons a l ih =>
    have ha : p a = q a := h a List.mem_cons_self
    have hl : l.find? p = l.find? q := ih fun r hr => h r (List.mem_cons_of_mem a hr)
    rw [List.find?_cons, List.find?_cons, ha, hl]

/-- A filter that does not tell the new row from the row it replaces finds the same place. -/
theorem find?_set {t : Table ρ} {r : ρ} {p : ρ → Bool}
    (hp : ∀ q ∈ t, pk q = pk r → p q = p r) :
    (t.set r).find? p = (t.find? p).map (replace r) := by
  have hcongr : ∀ q ∈ t.rows, (p ∘ replace r) q = p q := by
    intro q hq
    by_cases hk : pk q = pk r
    · simp [replace, hk, hp q hq hk]
    · simp [replace, hk]
  simp only [find?, set, List.find?_map]
  rw [find?_congr hcongr]

theorem get?_set (t : Table ρ) (r : ρ) (k : ℕ) :
    (t.set r).get? k = (t.get? k).map (replace r) := by
  refine find?_set ?_
  intro q _ hk
  simp [hk]

theorem get?_set_self {t : Table ρ} {r q : ρ} (h : t.get? (pk r) = some q) :
    (t.set r).get? (pk r) = some r := by
  rw [get?_set, h, Option.map_some, replace, if_pos (pk_of_get? h)]

theorem get?_set_ne {t : Table ρ} {r : ρ} {k : ℕ} (h : k ≠ pk r) : (t.set r).get? k = t.get? k := by
  rw [get?_set]
  cases hk : t.get? k with
  | none => rfl
  | some q =>
    have hq : pk q ≠ pk r := by
      rw [pk_of_get? hk]
      exact h
    simp [replace, hq]

/-- Writing a row that is there changes the lookup of its own key only. -/
theorem get?_set_of_some {t : Table ρ} {r q : ρ} (h : t.get? (pk r) = some q) (k : ℕ) :
    (t.set r).get? k = if k = pk r then some r else t.get? k := by
  split
  · next hk =>
    rw [hk]
    exact get?_set_self h
  · next hk => exact get?_set_ne hk

theorem eq_of_rows {t t' : Table ρ} (h : t.rows = t'.rows) : t = t' := by
  cases t
  cases t'
  cases h
  rfl

/-- Of two updates of one row the last one counts. -/
theorem set_set {t : Table ρ} {r q : ρ} (h : pk r = pk q) : (t.set r).set q = t.set q := by
  apply eq_of_rows
  show (t.rows.map (replace r)).map (replace q) = t.rows.map (replace q)
  rw [List.map_map]
  refine List.map_congr_left fun x _ => ?_
  by_cases hx : pk x = pk q
  · simp [replace, hx, h]
  · simp [replace, hx, h]

/-- Writing a row as it is changes nothing. -/
theorem set_of_mem {t : Table ρ} {r : ρ} (h : r ∈ t) : t.set r = t := by
  apply eq_of_rows
  show t.rows.map (replace r) = t.rows
  refine (List.map_congr_left fun x hx => ?_).trans (List.map_id _)
  by_cases hk : pk x = pk r
  · rw [replace, if_pos hk]
    exact (eq_of_pk_eq hx h hk).symm
  · rw [replace, if_neg hk]
    rfl

/-- The only row that satisfies the filter is found. -/
theorem find?_of_only {t : Table ρ} {p : ρ → Bool} {r : ρ} (hr : r ∈ t) (hp : p r = true)
    (honly : ∀ q ∈ t, p q = true → q = r) : t.find? p = some r := by
  cases hfind : t.find? p with
  | none =>
    have hnot := not_of_find?_none hfind hr
    rw [hp] at hnot
    cases hnot
  | some q => rw [honly q (mem_of_find? hfind) (of_find? hfind)]

/-- The same for a lookup by a secondary key `f` that the update leaves alone. -/
theorem find?_set_key {κ : Type*} [BEq κ] [LawfulBEq κ] [DecidableEq κ] {t : Table ρ} {f : ρ → κ}
    {a : κ} {q r : ρ}
    (hq : t.find? (fun x => f x == a) = some q) (hpk : pk r = pk q) (hf : f r = a) (b : κ) :
    (t.set r).find? (fun x => f x == b) = if b = a then some r else t.find? fun x => f x == b := by
  have hfq : f q = a := by simpa using of_find? hq
  have hrow : ∀ x ∈ t, pk x = pk r → x = q := by
    intro x hx hk
    exact eq_of_pk_eq hx (mem_of_find? hq) (hk.trans hpk)
  rw [find?_set]
  · by_cases hb : b = a
    · rw [if_pos hb, hb, hq, Option.map_some, replace, if_pos hpk.symm]
    · rw [if_neg hb]
      cases hx : t.find? fun x => f x == b with
      | none => rfl
      | some x =>
        -- the row found under another key is another row
        have hfx : f x = b := by simpa using of_find? hx
        have hne : pk x ≠ pk r := by
          intro hk
          rw [hrow x (mem_of_find? hx) hk, hfq] at hfx
          exact hb hfx.symm
        rw [Option.map_some, replace, if_neg hne]
  · intro x hx hk
    rw [hrow x hx hk, hfq, hf]

section Create

variable {t : Table ρ} {mk : ℕ → ρ} (hmk : ∀ k, pk (mk k) = k)

theorem find?_create {p : ρ → Bool} :
    (t.create mk hmk).find? p = if p (mk t.nextPk) then some (mk t.nextPk) else t.find? p := by
  simp only [find?, create, List.find?_cons]
  split
  · next h => simp [h]
  · next h => simp [h]

omit hmk in
theorem get?_nextPk : t.get? t.nextPk = none := by
  cases h : t.get? t.nextPk with
  | none => rfl
  | some r =>
    have hlt := pk_lt_nextPk (get?_eq_some.mp h).1
    rw [pk_of_get? h] at hlt
    exact absurd hlt (Nat.lt_irrefl _)

theorem get?_create_self : (t.create mk hmk).get? t.nextPk = some (mk t.nextPk) := by
  rw [get?, find?_create, if_pos (by simp [hmk])]

theorem get?_create_ne {k : ℕ} (h : k ≠ t.nextPk) : (t.create mk hmk).get? k = t.get? k := by
  rw [get?, find?_create, if_neg (by simpa [hmk] using h.symm)]
  rfl

/-- Rows that exist keep their place in the table. -/
theorem get?_create_of_some {k : ℕ} {r : ρ} (h : t.get? k = some r) :
    (t.create mk hmk).get? k = some r := by
  rw [get?_create_ne, h]
  rintro rfl
  rw [get?_nextPk] at h
  cases h

end Create

/-! ## Uniqueness constraints -/

section Unique

variable {clash : ρ → ρ → Prop} {t : Table ρ}

/-- No two rows clash. -/
def Unique (clash : ρ → ρ → Prop) (t : Table ρ) : Prop :=
  ∀ a ∈ t, ∀ b ∈ t, clash a b → a = b

theorem unique_empty (clash : ρ → ρ → Prop) : Unique clash empty := by
  intro a ha
  cases ha

theorem mem_set {r q : ρ} (h : q ∈ t.set r) : q = r ∨ q ∈ t ∧ pk q ≠ pk r := by
  obtain ⟨q', hq', rfl⟩ := List.mem_map.mp h
  unfold replace
  split
  · exact Or.inl rfl
  · next hk => exact Or.inr ⟨hq', hk⟩

theorem mem_set_self {r q : ρ} (h : q ∈ t) (hk : pk q = pk r) : r ∈ t.set r := by
  have hmem : replace r q ∈ t.set r := List.mem_map_of_mem h
  rwa [replace, if_pos hk] at hmem

theorem mem_set_of_ne {r q : ρ} (h : q ∈ t) (hk : pk q ≠ pk r) : q ∈ t.set r := by
  have hmem : replace r q ∈ t.set r := List.mem_map_of_mem h
  rwa [replace, if_neg hk] at hmem

theorem mem_delete {k : ℕ} {q : ρ} : q ∈ t.delete k ↔ q ∈ t ∧ pk q ≠ k := by
  simp [mem_def, delete]

/-- What holds of the other rows holds of every row after an update exactly if it holds of the new
row. -/
theorem forall_mem_set {Q : ρ → Prop} {r q : ρ} (hq : q ∈ t) (hk : pk q = pk r)
    (h : ∀ x ∈ t, pk x ≠ pk r → Q x) : (∀ x ∈ t.set r, Q x) ↔ Q r := by
  constructor
  · intro hset
    exact hset r (mem_set_self hq hk)
  · intro hr x hx
    rcases mem_set hx with rfl | ⟨hxt, hne⟩
    · exact hr
    · exact h x hxt hne

theorem mem_create {mk : ℕ → ρ} {hmk : ∀ k, pk (mk k) = k} {q : ρ} (h : q ∈ t.create mk hmk) :
    q = mk t.nextPk ∨ q ∈ t := List.mem_cons.mp h

/-- Overwriting a row with one that clashes with no other row. -/
theorem Unique.set (hsymm : ∀ a b, clash a b → clash b a) (h : Unique clash t) {r : ρ}
    (hfree : ∀ q ∈ t, pk q ≠ pk r → ¬ clash q r) : Unique clash (t.set r) := by
  intro a ha b hb hab
  rcases mem_set ha with har | ⟨hat, hka⟩
  · rcases mem_set hb with hbr | ⟨hbt, hkb⟩
    · rw [har, hbr]
    · rw [har] at hab
      exact absurd (hsymm _ _ hab) (hfree b hbt hkb)
  · rcases mem_set hb with hbr | ⟨hbt, hkb⟩
    · rw [hbr] at hab
      exact absurd hab (hfree a hat hka)
    · exact h a hat b hbt hab

/-- Inserting a row that clashes with none. -/
theorem Unique.create (hsymm : ∀ a b, clash a b → clash b a) (h : Unique clash t) {mk : ℕ → ρ}
    (hmk : ∀ k, pk (mk k) = k) (hfree : ∀ q ∈ t, ¬ clash q (mk t.nextPk)) :
    Unique clash (t.create mk hmk) := by
  intro a ha b hb hab
  rcases mem_create ha with har | hat
  · rcases mem_create hb with hbr | hbt
    · rw [har, hbr]
    · rw [har] at hab
      exact absurd (hsymm _ _ hab) (hfree b hbt)
  · rcases mem_create hb with hbr | hbt
    · rw [hbr] at hab
      exact absurd hab (hfree a hat)
    · exact h a hat b hbt hab

end Unique

/-! ## Sums over the rows -/

section Sum

variable {M : Type*} [AddCommMonoid M] {t : Table ρ} (f : ρ → M)

/-- The sum of a column, `aggregate(Sum(f))`. -/
def sum (t : Table ρ) (f : ρ → M) : M := (t.rows.map f).sum

@[simp] theorem sum_empty : (empty : Table ρ).sum f = 0 := rfl

theorem sum_create {mk : ℕ → ρ} (hmk : ∀ k, pk (mk k) = k) :
    (t.create mk hmk).sum f = f (mk t.nextPk) + t.sum f := by
  simp [sum, create]

theorem sum_congr {g : ρ → M} (h : ∀ r ∈ t, f r = g r) : t.sum f = t.sum g :=
  congrArg List.sum (List.map_congr_left h)

/-- Columns that agree on every row but one have sums that differ by that row. -/
theorem sum_except {g : ρ → M} {q : ρ} (hq : q ∈ t) (h : ∀ r ∈ t, r ≠ q → f r = g r) :
    t.sum f + g q = t.sum g + f q := by
  have hnodup : t.rows.Nodup := List.Nodup.of_map _ t.nodup
  obtain ⟨before, behind, hrows⟩ := List.append_of_mem (mem_def.mp hq)
  rw [hrows, List.nodup_append, List.nodup_cons] at hnodup
  obtain ⟨-, ⟨hbehind, -⟩, hdisj⟩ := hnodup
  have hleft : before.map f = before.map g := by
    apply List.map_congr_left
    intro r hr
    have hmem : r ∈ t := by
      rw [mem_def, hrows]
      exact List.mem_append_left _ hr
    exact h r hmem fun he => hdisj r hr q List.mem_cons_self he
  have hright : behind.map f = behind.map g := by
    apply List.map_congr_left
    intro r hr
    have hmem : r ∈ t := by
      rw [mem_def, hrows]
      exact List.mem_append_right _ (List.mem_cons_of_mem q hr)
    refine h r hmem ?_
    rintro rfl
    exact hbehind hr
  simp only [sum, hrows, List.map_append, List.map_cons, List.sum_append, List.sum_cons, hleft,
    hright]
  ac_rfl

/-- Writing a row changes the sum by the new row minus the row it replaces. -/
theorem sum_set {r q : ρ} (h : t.get? (pk r) = some q) :
    (t.set r).sum f + f q = t.sum f + f r := by
  obtain ⟨hmem, hpk⟩ := get?_eq_some.mp h
  have hset : (t.set r).sum f = t.sum (f ∘ replace r) := by
    simp only [sum, set, List.map_map]
  have hq : (f ∘ replace r) q = f r := by
    rw [Function.comp_apply, replace, if_pos hpk]
  rw [hset, ← hq]
  refine sum_except (f ∘ replace r) hmem ?_
  intro p hp hne
  have hother : pk p ≠ pk r := by
    rw [← hpk]
    intro hk
    exact hne (eq_of_pk_eq hp hmem hk)
  rw [Function.comp_apply, replace, if_neg hother]

end Sum

end Table

end AlgoBot.Core
