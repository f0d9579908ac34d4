import Mathlib.Data.List.Infix
import Mathlib.Logic.ExistsUnique

/-!
# Hash chains

Rows that name the hash of the row before them, the newest row first. `Linked`
says it of the rows in their order, `OneChain` of the rows as a set: one of them
has no predecessor, every other one has one among the earlier rows, and no two
have the same.

* `oneChain_iff_linked`: the two agree where hashes do not collide.
* `Linked.same_hashes`: chains that end in one hash have the same hashes.
-/

namespace AlgoBot.Core

universe u v

/-- What links the rows: the predecessor a row names, its hash, and what the first one names. -/
structure Links (ρ : Type u) (η : Type v) where
  prev : ρ → η
  hash : ρ → η
  genesis : η

namespace Links

variable {ρ : Type u} {η : Type v} (L : Links ρ η)

/-- What the next row has to name. -/
def tip : List ρ → η
  | [] => L.genesis
  | r :: _ => L.hash r

/-- Every row names the one before it. -/
def Linked : List ρ → Prop
  | [] => True
  | r :: rows => L.prev r = L.tip rows ∧ Linked rows

def decidableLinked [DecidableEq η] : (rows : List ρ) → Decidable (L.Linked rows)
  | [] => isTrue trivial
  | r :: rows =>
      have := decidableLinked rows
      inferInstanceAs (Decidable (L.prev r = L.tip rows ∧ L.Linked rows))

instance [DecidableEq η] (rows : List ρ) : Decidable (L.Linked rows) := L.decidableLinked rows

/-- One row names the genesis, every other one names one of the rows before it, and no two rows name
the same. -/
structure OneChain (rows : List ρ) : Prop where
  genesis : rows ≠ [] → ∃! r, r ∈ rows ∧ L.prev r = L.genesis
  linked : ∀ front r back, rows = front ++ r :: back → L.prev r ≠ L.genesis →
    ∃! q, q ∈ back ∧ L.hash q = L.prev r
  distinct : ∀ r ∈ rows, ∀ q ∈ rows, L.prev r = L.prev q → r = q

/-- Hashes of these rows do not collide, and none of them is the genesis. -/
structure Sealed (rows : List ρ) : Prop where
  genesis : ∀ r ∈ rows, L.hash r ≠ L.genesis
  prev : ∀ r ∈ rows, ∀ q ∈ rows, L.hash r = L.hash q → L.prev r = L.prev q

variable {L} {rows back front : List ρ} {r q : ρ}

theorem Sealed.tail (h : L.Sealed (r :: rows)) : L.Sealed rows where
  genesis q hq := h.genesis q (List.mem_cons_of_mem r hq)
  prev a ha b hb := h.prev a (List.mem_cons_of_mem r ha) b (List.mem_cons_of_mem r hb)

/-- Everything but the newest row is named by a row. -/
theorem Linked.named (h : L.Linked (r :: rows)) (hq : q ∈ rows) :
    ∃ y ∈ r :: rows, L.prev y = L.hash q := by
  induction rows generalizing r with
  | nil => cases hq
  | cons x rows ih =>
    rcases List.mem_cons.mp hq with rfl | hq
    · exact ⟨r, List.mem_cons_self, h.1⟩
    · obtain ⟨y, hy, hprev⟩ := ih h.2 hq
      exact ⟨y, List.mem_cons_of_mem r hy, hprev⟩

/-- A row of a chain names the genesis or an earlier row. -/
theorem Linked.names (h : L.Linked (front ++ r :: back)) : L.prev r = L.tip back := by
  induction front with
  | nil => exact h.1
  | cons x front ih => exact ih h.2

theorem mem_of_tip (h : L.tip rows ≠ L.genesis) : ∃ q ∈ rows, L.hash q = L.tip rows := by
  cases rows with
  | nil => exact absurd rfl h
  | cons q rows => exact ⟨q, List.mem_cons_self, rfl⟩

/-- No two rows of a chain name the same one. -/
theorem Linked.distinct (h : L.Linked rows) (hsealed : L.Sealed rows) (hnodup : rows.Nodup) :
    ∀ r ∈ rows, ∀ q ∈ rows, L.prev r = L.prev q → r = q := by
  induction rows with
  | nil =>
    intro r hr
    cases hr
  | cons x rows ih =>
    have hrows := ih h.2 hsealed.tail hnodup.tail
    -- nothing older names the row before the newest one
    have hnewest : ∀ y ∈ rows, L.prev y ≠ L.tip rows := by
      intro y hy hsame
      cases rows with
      | nil => cases hy
      | cons z rows =>
        obtain ⟨front, back, hsplit⟩ := List.append_of_mem hy
        have hnames : L.prev y = L.tip back := by
          have hlinked := h.2
          rw [hsplit] at hlinked
          exact hlinked.names
        have hz : z ∈ x :: z :: rows := List.mem_cons_of_mem x List.mem_cons_self
        have hgenesis : L.tip back ≠ L.genesis := by
          rw [← hnames, hsame]
          exact hsealed.genesis z hz
        obtain ⟨w, hw, hhash⟩ := mem_of_tip hgenesis
        have hwmem : w ∈ z :: rows := by
          rw [hsplit]
          exact List.mem_append_right _ (List.mem_cons_of_mem y hw)
        -- the row that `y` names has the hash of `z`, so it is `z`, which is not before itself
        have hsamehash : L.hash w = L.hash z := by rw [hhash, ← hnames, hsame]; rfl
        have hprev := hsealed.prev w (List.mem_cons_of_mem x hwmem) z hz hsamehash
        have hwz := hrows w hwmem z List.mem_cons_self hprev
        subst hwz
        have hcount := hnodup.tail
        rw [hsplit] at hcount
        cases front with
        | nil =>
          obtain ⟨rfl, hback⟩ := List.cons.inj hsplit
          exact (List.nodup_cons.mp hcount).1 hw
        | cons v front =>
          obtain ⟨rfl, _⟩ := List.cons.inj hsplit
          exact (List.nodup_cons.mp hcount).1
            (List.mem_append_right _ (List.mem_cons_of_mem y hw))
    intro r hr q hq hsame
    rcases List.mem_cons.mp hr with hrx | hrold
    · rcases List.mem_cons.mp hq with hqx | hqold
      · rw [hrx, hqx]
      · rw [hrx] at hsame
        exact absurd (hsame.symm.trans h.1) (hnewest q hqold)
    · rcases List.mem_cons.mp hq with hqx | hqold
      · rw [hqx] at hsame
        exact absurd (hsame.trans h.1) (hnewest r hrold)
      · exact hrows r hrold q hqold hsame

theorem Linked.oneChain (h : L.Linked rows) (hsealed : L.Sealed rows) (hnodup : rows.Nodup) :
    L.OneChain rows where
  genesis hne := by
    obtain ⟨front, r, rfl⟩ := List.eq_nil_or_concat rows |>.resolve_left hne
    rw [List.concat_eq_append] at *
    refine ⟨r, ⟨List.mem_append_right _ List.mem_cons_self, h.names⟩, ?_⟩
    rintro q ⟨hq, hgenesis⟩
    refine h.distinct hsealed hnodup q hq r (List.mem_append_right _ List.mem_cons_self) ?_
    rw [hgenesis, h.names]
    rfl
  linked front r back hsplit hprev := by
    subst hsplit
    have hnames := h.names
    rw [hnames] at hprev
    obtain ⟨q, hq, hhash⟩ := mem_of_tip hprev
    have hmem : ∀ {w}, w ∈ back → w ∈ front ++ r :: back := fun hw =>
      List.mem_append_right _ (List.mem_cons_of_mem r hw)
    refine ⟨q, ⟨hq, by rw [hhash, hnames]⟩, ?_⟩
    rintro w ⟨hw, hsame⟩
    refine h.distinct hsealed hnodup w (hmem hw) q (hmem hq) ?_
    exact hsealed.prev w (hmem hw) q (hmem hq) (by rw [hsame, hhash, hnames])
  distinct := h.distinct hsealed hnodup

/-- The oldest row names the genesis. -/
theorem OneChain.oldest (h : L.OneChain (front ++ [r])) : L.prev r = L.genesis := by
  by_contra hprev
  obtain ⟨q, ⟨hq, _⟩, _⟩ := h.linked front r [] rfl hprev
  cases hq

theorem OneChain.tail (h : L.OneChain (r :: rows)) (hnodup : (r :: rows).Nodup) :
    L.OneChain rows where
  genesis hne := by
    obtain ⟨front, o, rfl⟩ := List.eq_nil_or_concat rows |>.resolve_left hne
    rw [List.concat_eq_append] at *
    have hwhole : L.OneChain ((r :: front) ++ [o]) := h
    have holdest : L.prev o = L.genesis := hwhole.oldest
    have ho : o ∈ front ++ [o] := List.mem_append_right _ List.mem_cons_self
    refine ⟨o, ⟨ho, holdest⟩, ?_⟩
    rintro q ⟨hq, hgenesis⟩
    exact h.distinct q (List.mem_cons_of_mem r hq) o (List.mem_cons_of_mem r ho)
      (hgenesis.trans holdest.symm)
  linked front q back hsplit := h.linked (r :: front) q back (by rw [hsplit]; rfl)
  distinct a ha b hb := h.distinct a (List.mem_cons_of_mem r ha) b (List.mem_cons_of_mem r hb)

theorem OneChain.linked_all (h : L.OneChain rows) (hnodup : rows.Nodup) : L.Linked rows := by
  induction rows with
  | nil => exact trivial
  | cons r rows ih =>
    have hlinked := ih (h.tail hnodup) hnodup.tail
    refine ⟨?_, hlinked⟩
    cases rows with
    | nil =>
      have hwhole : L.OneChain ([] ++ [r]) := h
      exact hwhole.oldest
    | cons x rows =>
      have hr : r ∉ x :: rows := (List.nodup_cons.mp hnodup).1
      have hprev : L.prev r ≠ L.genesis := by
        intro hgenesis
        obtain ⟨o, ⟨ho, hold⟩, _⟩ := (h.tail hnodup).genesis (List.cons_ne_nil x rows)
        have hsame := h.distinct r List.mem_cons_self o (List.mem_cons_of_mem r ho)
          (hgenesis.trans hold.symm)
        exact hr (hsame ▸ ho)
      obtain ⟨q, ⟨hq, hhash⟩, _⟩ := h.linked [] r (x :: rows) rfl hprev
      rcases List.mem_cons.mp hq with rfl | hq
      · exact hhash.symm
      · -- an older row is named by another row already
        obtain ⟨y, hy, hnamed⟩ := hlinked.named hq
        have hsame := h.distinct r List.mem_cons_self y (List.mem_cons_of_mem r hy)
          (hhash.symm.trans hnamed.symm)
        exact absurd (hsame ▸ hy) hr

theorem oneChain_iff_linked (hsealed : L.Sealed rows) (hnodup : rows.Nodup) :
    L.OneChain rows ↔ L.Linked rows :=
  ⟨fun h => h.linked_all hnodup, fun h => h.oneChain hsealed hnodup⟩

/-- Two chains that end in one hash are as long as each other, and have the same hashes. -/
theorem Linked.same_hashes {rows' : List ρ} (h : L.Linked rows) (h' : L.Linked rows')
    (hgenesis : ∀ r ∈ rows ++ rows', L.hash r ≠ L.genesis)
    (hprev : ∀ r ∈ rows, ∀ q ∈ rows', L.hash r = L.hash q → L.prev r = L.prev q)
    (htip : L.tip rows = L.tip rows') :
    List.Forall₂ (fun r q => L.hash r = L.hash q) rows rows' := by
  induction rows generalizing rows' with
  | nil =>
    cases rows' with
    | nil => exact List.Forall₂.nil
    | cons q rows' => exact absurd htip.symm (hgenesis q List.mem_cons_self)
  | cons r rows ih =>
    cases rows' with
    | nil => exact absurd htip (hgenesis r List.mem_cons_self)
    | cons q rows' =>
      have hsame := hprev r List.mem_cons_self q List.mem_cons_self htip
      refine List.Forall₂.cons htip (ih h.2 h'.2 ?_ ?_ ?_)
      · intro y hy
        rcases List.mem_append.mp hy with hy | hy
        · exact hgenesis y (List.mem_append_left _ (List.mem_cons_of_mem r hy))
        · exact hgenesis y (List.mem_append_right _ (List.mem_cons_of_mem q hy))
      · exact fun y hy z hz => hprev y (List.mem_cons_of_mem r hy) z (List.mem_cons_of_mem q hz)
      · rw [← h.1, ← h'.1, hsame]

end Links

end AlgoBot.Core
