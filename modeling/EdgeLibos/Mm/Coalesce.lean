import EdgeLibos.Mm.ArenaLaws

/-!
# What `free` leaves in the free list

The merge loop of `free` walks the vector by index and edits it on the way. It
ends, and what it leaves is the maximal runs of free bytes in order, which the
free bytes alone determine. So a set of ranges may be freed in any order.
-/

namespace EdgeLibos.Mm

open Lib

-- ---------------------------------------------------------------------------
-- The loop
-- ---------------------------------------------------------------------------

/-- The `while` loop: a merged entry is looked at again, `i` moves on otherwise. -/
def mergeLoop (l : List Span) (i : Nat) : List Span :=
  if h : i + 1 < l.length then
    let a := l[i]
    let b := l[i + 1]
    if a.1 + a.2 = b.1 then mergeLoop ((l.set i (a.1, a.2 + b.2)).eraseIdx (i + 1)) i
    else mergeLoop l (i + 1)
  else l
termination_by l.length - i
decreasing_by
  · simp only [List.length_eraseIdx, List.length_set]
    split <;> omega
  · omega

/-- At index `i` the loop merges what follows into the entry there. -/
theorem mergeLoop_append (pre : List Span) (a : Span) (rest : List Span) :
    mergeLoop (pre ++ a :: rest) pre.length = pre ++ coalesceFrom a rest := by
  induction rest generalizing pre a with
  | nil =>
    rw [mergeLoop, dif_neg (by simp), coalesceFrom]
  | cons b rest ih =>
    have hlt : pre.length + 1 < (pre ++ a :: b :: rest).length := by simp
    have ha : (pre ++ a :: b :: rest)[pre.length] = a := by simp
    have hb : (pre ++ a :: b :: rest)[pre.length + 1] = b := by simp
    rw [mergeLoop, dif_pos hlt]
    simp only [ha, hb, coalesceFrom]
    split
    · have hnew : ((pre ++ a :: b :: rest).set pre.length (a.1, a.2 + b.2)).eraseIdx (pre.length + 1) =
          pre ++ (a.1, a.2 + b.2) :: rest := by
        simp [List.eraseIdx_append_of_length_le]
      rw [hnew, ih]
    · have hassoc : pre ++ a :: b :: rest = (pre ++ [a]) ++ b :: rest := by simp
      have hlen : pre.length + 1 = (pre ++ [a]).length := by simp
      rw [hassoc, hlen, ih]
      simp

theorem mergeLoop_eq_coalesce (l : List Span) : mergeLoop l 0 = coalesce l := by
  cases l with
  | nil =>
    rw [mergeLoop]
    rfl
  | cons a rest => exact mergeLoop_append [] a rest

-- ---------------------------------------------------------------------------
-- One range
-- ---------------------------------------------------------------------------

/-- The arena after a range is freed: the bytes of the holes and of the range,
as maximal runs. -/
structure Freed (a a' : Arena) (new : Set Nat) : Prop where
  base : a'.base = a.base
  used : a'.used = a.used
  separated : Separated a'.freeList
  covers : covers a'.freeList = Lib.covers a.freeList ∪ new

theorem Arena.free_freed {a : Arena} (hused : a.used ≤ ARENA_SIZE) (hl : SpansOk a.freeList)
    {r : Span} (hr : 0 < r.2) (hin : r.1 + r.2 ≤ a.used) (hapart : ∀ s ∈ a.freeList, r.Apart s) :
    ∃ a', a.free (a.base + r.1) r.2 = (true, a') ∧ Freed a a' r.points := by
  have hoff : a.base + r.1 - a.base = r.1 := Nat.add_sub_cancel_left ..
  obtain ⟨hsep, hcov⟩ := insertHole_ok hl hr hapart
  refine ⟨_, Arena.free_eq hr (Nat.le_add_right ..) ?_, ⟨rfl, rfl, ?_, ?_⟩⟩
  · rw [hoff]
    exact hin.trans hused
  · simp only [hoff]
    exact hsep
  · simp only [hoff]
    exact hcov

-- ---------------------------------------------------------------------------
-- Several ranges
-- ---------------------------------------------------------------------------

def Arena.freeAll (a : Arena) (rs : List Span) : Arena :=
  rs.foldl (fun a r => (a.free (a.base + r.1) r.2).2) a

structure Arena.FreeableAll (a : Arena) (rs : List Span) : Prop where
  ok : SpansOk rs
  inside : ∀ r ∈ rs, r.1 + r.2 ≤ a.used
  apart : ∀ r ∈ rs, ∀ s ∈ a.freeList, r.Apart s

theorem Arena.FreeableAll.perm {a : Arena} (h : a.FreeableAll rs) (hp : rs.Perm rs') :
    a.FreeableAll rs' where
  ok := h.ok.perm hp
  inside r hr := h.inside r (hp.mem_iff.mpr hr)
  apart r hr := h.apart r (hp.mem_iff.mpr hr)

theorem apart_of_covers {l : List Span} (hl : ∀ s ∈ l, 0 < s.2) {r : Span} (hr : 0 < r.2)
    (h : Disjoint r.points (covers l)) : ∀ s ∈ l, r.Apart s := by
  intro s hs
  rw [Span.apart_iff_disjoint hr (hl s hs)]
  have hsub : s.points ⊆ covers l := fun x hx => ⟨s, hs, hx⟩
  exact Set.disjoint_of_subset_right hsub h

theorem Arena.FreeableAll.tail {a a' : Arena} (h : a.FreeableAll (r :: rs))
    (hl : SpansOk a.freeList) (hf : Freed a a' r.points) : a'.FreeableAll rs := by
  obtain ⟨hr, hrs, hok⟩ := spansOk_cons.mp h.ok
  refine ⟨hok, fun s hs => ?_, fun s hs => ?_⟩
  · rw [hf.used]
    exact h.inside s (List.mem_cons_of_mem _ hs)
  · have hspos := hok.nonempty s hs
    refine apart_of_covers hf.separated.nonempty hspos ?_
    rw [hf.covers, Set.disjoint_union_right]
    refine ⟨?_, (Span.apart_iff_disjoint hspos hr).mp (hrs s hs).symm⟩
    rw [Set.disjoint_left]
    rintro x hx ⟨t, ht, hxt⟩
    have hst := h.apart s (List.mem_cons_of_mem _ hs) t ht
    exact Set.disjoint_left.mp ((Span.apart_iff_disjoint hspos (hl.nonempty t ht)).mp hst) hx hxt

theorem Freed.trans {a a' a'' : Arena} (h : Freed a a' s) (h' : Freed a' a'' s') :
    Freed a a'' (s ∪ s') where
  base := h'.base.trans h.base
  used := h'.used.trans h.used
  separated := h'.separated
  covers := by rw [h'.covers, h.covers, Set.union_assoc]

theorem Arena.freeAll_freed {a : Arena} (hused : a.used ≤ ARENA_SIZE) (hl : SpansOk a.freeList)
    (h : a.FreeableAll (r :: rs)) : Freed a (a.freeAll (r :: rs)) (covers (r :: rs)) := by
  induction rs generalizing a r with
  | nil =>
    obtain ⟨a', hfree, hf⟩ := Arena.free_freed hused hl (h.ok.nonempty r (by simp))
      (h.inside r (by simp)) (h.apart r (by simp))
    simpa [Arena.freeAll, hfree] using hf
  | cons s rs ih =>
    obtain ⟨a', hfree, hf⟩ := Arena.free_freed hused hl (h.ok.nonempty r (by simp))
      (h.inside r (by simp)) (h.apart r (by simp))
    have hrest := ih (by rw [hf.used]; exact hused) hf.separated.spansOk (h.tail hl hf)
    rw [covers_cons]
    have hstep : a.freeAll (r :: s :: rs) = a'.freeAll (s :: rs) := by
      rw [Arena.freeAll, List.foldl_cons, hfree]
      rfl
    rw [hstep]
    exact hf.trans hrest

theorem Freed.eq {a a₁ a₂ : Arena} (h₁ : Freed a a₁ s) (h₂ : Freed a a₂ s) : a₁ = a₂ := by
  have hlist := h₁.separated.unique h₂.separated (h₁.covers.trans h₂.covers.symm)
  cases a₁
  cases a₂
  simp only [Arena.mk.injEq]
  exact ⟨h₁.base.trans h₂.base.symm, h₁.used.trans h₂.used.symm, hlist⟩

theorem Arena.freeAll_perm {a : Arena} (hused : a.used ≤ ARENA_SIZE) (hl : SpansOk a.freeList)
    (h : a.FreeableAll rs) (hp : rs.Perm rs') : a.freeAll rs = a.freeAll rs' := by
  cases rs with
  | nil => rw [hp.nil_eq]
  | cons r rs =>
    cases rs' with
    | nil => cases hp.eq_nil
    | cons r' rs' =>
      have h₂ := Arena.freeAll_freed hused hl (h.perm hp)
      rw [← covers_perm hp] at h₂
      exact (Arena.freeAll_freed hused hl h).eq h₂

theorem free_coalesces (a : Arena) (hused : a.used ≤ ARENA_SIZE) (hl : SpansOk a.freeList) :
    (∀ off len, 0 < len → off + len ≤ a.used → (∀ s ∈ a.freeList, Span.Apart (off, len) s) →
      ∃ a', a.free (a.base + off) len = (true, a') ∧ a'.base = a.base ∧ a'.used = a.used ∧
        a'.freeList = mergeLoop ((a.freeList ++ [(off, len)]).insertionSort fun r s => r.1 ≤ s.1) 0 ∧
        a'.freeList.Pairwise (fun r s => r.1 + r.2 < s.1) ∧ (∀ r ∈ a'.freeList, 0 < r.2) ∧
        (∀ r, r ∈ a'.freeList ↔ Span.Maximal (covers a.freeList ∪ Set.Ico off (off + len)) r) ∧
        covers a'.freeList = covers a.freeList ∪ Set.Ico off (off + len)) ∧
    ∀ rs rs', a.FreeableAll rs → rs.Perm rs' → a.freeAll rs = a.freeAll rs' := by
  refine ⟨fun off len hlen hin hapart => ?_, fun rs rs' h hp => Arena.freeAll_perm hused hl h hp⟩
  obtain ⟨a', hfree, hf⟩ := Arena.free_freed (r := (off, len)) hused hl hlen hin hapart
  refine ⟨a', hfree, hf.base, hf.used, ?_, hf.separated.gaps, hf.separated.nonempty, ?_, hf.covers⟩
  · have hoff : a.base + off - a.base = off := Nat.add_sub_cancel_left ..
    have hend : a.base + off - a.base + len ≤ ARENA_SIZE := by
      rw [hoff]
      exact hin.trans hused
    have heq := Arena.free_eq hlen (Nat.le_add_right a.base off) hend
    rw [hoff, hfree] at heq
    rw [(Prod.mk.inj heq).2, mergeLoop_eq_coalesce]
    rfl
  · intro r
    rw [hf.separated.mem_iff, hf.covers]
    rfl

def gappedArena : Arena := { base := 0x100000, used := 256, freeList := [(96, 32), (0, 16)] }

theorem free_coalesces_gapped :
    gappedArena.used ≤ ARENA_SIZE ∧ SpansOk gappedArena.freeList ∧
    (∃ a', gappedArena.free 0x100010 80 = (true, a') ∧ a'.freeList = [(0, 128)]) ∧
    gappedArena.freeAll [(16, 80), (200, 8)] = gappedArena.freeAll [(200, 8), (16, 80)] := by
  have hused : gappedArena.used ≤ ARENA_SIZE := by decide
  have hl : SpansOk gappedArena.freeList := by decide
  have hrs : gappedArena.FreeableAll [(16, 80), (200, 8)] :=
    ⟨by decide, by decide, by decide⟩
  refine ⟨hused, hl, ⟨_, rfl, by decide⟩, ?_⟩
  exact (free_coalesces gappedArena hused hl).2 _ _ hrs (.swap ..)

end EdgeLibos.Mm
