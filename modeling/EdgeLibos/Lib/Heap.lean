import Mathlib.Algebra.BigOperators.Group.Finset.Piecewise
import Mathlib.Data.Nat.Count

/-!
# Shared cells

A heap of reference-counted cells of one type. A reference is the number of
its cell, two handles share state when they hold the same number, and a new
cell gets a number that no earlier one has. `count` is how many of the cells
allocated so far meet a condition on their number and contents.
-/

namespace EdgeLibos.Lib

structure Heap (α : Type u) where
  read : Nat → α
  next : Nat

namespace Heap

variable {α : Type u}

def empty [Inhabited α] : Heap α := { read := fun _ => default, next := 0 }

def alloc (h : Heap α) (v : α) : Nat × Heap α :=
  (h.next, { read := Function.update h.read h.next v, next := h.next + 1 })

def write (h : Heap α) (r : Nat) (v : α) : Heap α := { h with read := Function.update h.read r v }

@[simp] theorem alloc_fst (h : Heap α) (v : α) : (h.alloc v).1 = h.next := rfl

@[simp] theorem alloc_next (h : Heap α) (v : α) : (h.alloc v).2.next = h.next + 1 := rfl

theorem read_alloc (h : Heap α) (v : α) (r : Nat) :
    (h.alloc v).2.read r = if r = h.next then v else h.read r := by
  simp [alloc, Function.update_apply]

@[simp] theorem read_alloc_new (h : Heap α) (v : α) : (h.alloc v).2.read h.next = v := by
  simp [read_alloc]

theorem read_alloc_old (h : Heap α) (v : α) (hr : r < h.next) :
    (h.alloc v).2.read r = h.read r := by
  rw [read_alloc, if_neg (Nat.ne_of_lt hr)]

theorem read_write (h : Heap α) (v : α) (r r' : Nat) :
    (h.write r v).read r' = if r' = r then v else h.read r' := by
  simp [write, Function.update_apply]

@[simp] theorem read_write_same (h : Heap α) (v : α) (r : Nat) : (h.write r v).read r = v := by
  simp [read_write]

theorem read_write_ne (h : Heap α) (v : α) (hr : r' ≠ r) : (h.write r v).read r' = h.read r' := by
  rw [read_write, if_neg hr]

@[simp] theorem write_next (h : Heap α) (v : α) (r : Nat) : (h.write r v).next = h.next := rfl

-- ---------------------------------------------------------------------------
-- Allocation keeps the cells there are
-- ---------------------------------------------------------------------------

structure Extends (h h' : Heap α) : Prop where
  next_le : h.next ≤ h'.next
  read_eq : ∀ r < h.next, h'.read r = h.read r

theorem Extends.refl (h : Heap α) : h.Extends h := ⟨le_refl _, fun _ _ => rfl⟩

theorem Extends.trans {h₁ h₂ h₃ : Heap α} (h : h₁.Extends h₂) (h' : h₂.Extends h₃) :
    h₁.Extends h₃ where
  next_le := h.next_le.trans h'.next_le
  read_eq r hr := (h'.read_eq r (hr.trans_le h.next_le)).trans (h.read_eq r hr)

theorem extends_alloc (h : Heap α) (v : α) : h.Extends (h.alloc v).2 where
  next_le := Nat.le_succ _
  read_eq _ hr := read_alloc_old h v hr

-- ---------------------------------------------------------------------------
-- Counting cells
-- ---------------------------------------------------------------------------

variable {P Q R : Nat → α → Bool} {h : Heap α}

def count (h : Heap α) (P : Nat → α → Bool) : Nat :=
  Nat.count (fun i => P i (h.read i) = true) h.next

theorem count_congr {h' : Heap α} (hn : h.next = h'.next)
    (hp : ∀ i < h.next, P i (h.read i) = Q i (h'.read i)) : h.count P = h'.count Q := by
  unfold count
  rw [← hn, Nat.count_eq_card_filter_range, Nat.count_eq_card_filter_range]
  congr 1
  refine Finset.filter_congr fun i hi => ?_
  rw [hp i (Finset.mem_range.mp hi)]

theorem count_alloc (h : Heap α) (v : α) (P : Nat → α → Bool) :
    (h.alloc v).2.count P = h.count P + if P h.next v then 1 else 0 := by
  have hold : Nat.count (fun i => P i ((h.alloc v).2.read i) = true) h.next = h.count P := by
    show Heap.count { read := (h.alloc v).2.read, next := h.next } P = h.count P
    refine count_congr rfl fun i hi => ?_
    simp only at hi ⊢
    rw [read_alloc_old h v hi]
  rw [count, alloc_next, Nat.count_succ, hold, read_alloc_new]

theorem count_write (hr : r < h.next) (v : α) :
    (h.write r v).count P + (if P r (h.read r) then 1 else 0) =
      h.count P + if P r v then 1 else 0 := by
  -- Both counts split into the cells other than `r`, which agree, and `r`.
  have split (g : Heap α) (hg : g.next = h.next) :
      g.count P = g.count (fun i x => i ≠ r && P i x) + if P r (g.read r) then 1 else 0 := by
    have hmem : r ∈ Finset.range g.next := Finset.mem_range.mpr (hg ▸ hr)
    simp only [count, Nat.count_eq_card_filter_range, Finset.card_filter]
    rw [← Finset.add_sum_erase _ _ hmem, ← Finset.add_sum_erase (Finset.range g.next) _ hmem,
      Nat.add_comm]
    congr 1
    simp only [ne_eq, not_true_eq_false, decide_false, Bool.false_and, Bool.false_eq_true,
      if_false, Nat.zero_add]
    refine Finset.sum_congr rfl fun i hi => ?_
    simp [Finset.ne_of_mem_erase hi]
  have hrest : (h.write r v).count (fun i x => i ≠ r && P i x) =
      h.count fun i x => i ≠ r && P i x := by
    refine count_congr rfl fun i _ => ?_
    by_cases hi : i = r
    · simp [hi]
    · rw [read_write_ne _ _ hi]
  rw [split (h.write r v) rfl, split h rfl, hrest, read_write_same]
  omega

theorem count_write_same (hr : r < h.next) (hp : P r v = P r (h.read r)) :
    (h.write r v).count P = h.count P := by
  have := count_write (P := P) hr v
  rw [hp] at this
  omega

theorem count_add_le (hp : ∀ i x, P i x = true → R i x = true)
    (hq : ∀ i x, Q i x = true → R i x = true) (hpq : ∀ i x, P i x = true → Q i x = false) :
    h.count P + h.count Q ≤ h.count R := by
  simp only [count, Nat.count_eq_card_filter_range]
  rw [← Finset.card_union_of_disjoint]
  · refine Finset.card_le_card fun i hi => ?_
    simp only [Finset.mem_union, Finset.mem_filter] at hi ⊢
    rcases hi with hi | hi
    · exact ⟨hi.1, hp _ _ hi.2⟩
    · exact ⟨hi.1, hq _ _ hi.2⟩
  · rw [Finset.disjoint_left]
    intro i hi hi'
    simp only [Finset.mem_filter] at hi hi'
    rw [hpq _ _ hi.2] at hi'
    exact Bool.false_ne_true hi'.2

theorem count_eq_length {l : List Nat} (hl : l.Nodup) (hm : ∀ i, i ∈ l ↔ i < h.next ∧ P i (h.read i) = true) :
    h.count P = l.length := by
  simp only [count, Nat.count_eq_card_filter_range]
  rw [← List.toFinset_card_of_nodup hl]
  congr 1
  ext i
  simp only [Finset.mem_filter, Finset.mem_range, List.mem_toFinset, hm]

theorem count_eq_zero (hp : ∀ i < h.next, P i (h.read i) = false) : h.count P = 0 := by
  refine count_eq_length (l := []) .nil fun i => ?_
  simp only [List.not_mem_nil, false_iff, not_and, Bool.not_eq_true]
  exact fun hi => hp i hi

end Heap

end EdgeLibos.Lib
