import EdgeLibos.Mm.Addressing

/-!
# The arena that a range is in

`contains` compares 32-bit sums, `free` checks the range again in full width, and `munmap`
does not look at what `free` says. They mean the same range as long as the length fits 32
bits and the arena does not end at 4 GiB.
-/

namespace EdgeLibos.Mm

open Lib Errno

/-- The range is in the arena, whatever its width. -/
def Arena.Encloses (a : Arena) (addr len : Nat) : Prop := a.base ≤ addr ∧ addr + len ≤ a.base + ARENA_SIZE

/-- The arena ends at 4 GiB and has the range, or has it only without the upper bits of the
length. -/
def Arena.Misjudges (a : Arena) (addr len : Nat) : Prop :=
  a.base + ARENA_SIZE = 2 ^ 32 ∧ a.Encloses addr len ∨
    2 ^ 32 ≤ len ∧ a.base + ARENA_SIZE < 2 ^ 32 ∧ a.Encloses addr (len % 2 ^ 32)

/-- One arena that has the range gains it as a hole, and nothing else changes. -/
def LinearAllocator.Gains (mm mm' : LinearAllocator) (addr len : Nat) : Prop :=
  ∃ pre a holes post, mm.arenas = pre ++ a :: post ∧ a.Encloses addr len ∧
    mm' = { mm with arenas := pre ++ { a with freeList := holes } :: post } ∧
      covers holes = covers a.freeList ∪ Set.Ico (addr - a.base) (addr - a.base + len) ∧
        spanSum holes = spanSum a.freeList + len

/-- `munmap` finds the arena that the range is in. -/
structure LinearAllocator.UnmapsExactly (mm : LinearAllocator) (addr len : Nat) : Prop where
  contains : ∀ a ∈ mm.arenas, (a.contains addr len = true ↔ a.Encloses addr len)
  found : (∃ a ∈ mm.arenas, a.Encloses addr len) →
    (mm.munmap addr len).1 = 0 ∧ mm.Gains (mm.munmap addr len).2 addr len
  refused : (∀ a ∈ mm.arenas, ¬ a.Encloses addr len) → mm.munmap addr len = (-EINVAL, mm)

-- ---------------------------------------------------------------------------
-- `contains` and `free` of one arena
-- ---------------------------------------------------------------------------

theorem Arena.contains_top {a : Arena} (htop : a.base + ARENA_SIZE = 2 ^ 32) (addr len : Nat) :
    a.contains addr len = false := by
  have hbase : 0 < a.base := by
    simp only [ARENA_SIZE] at htop
    omega
  unfold Arena.contains
  split
  · rfl
  · rw [htop, Nat.mod_self, Bool.and_eq_false_iff, decide_eq_false_iff_not, decide_eq_false_iff_not]
    omega

theorem Arena.contains_below {a : Arena} (htop : a.base + ARENA_SIZE < 2 ^ 32) :
    a.contains addr len = true ↔ a.Encloses addr (len % 2 ^ 32) := Arena.contains_iff htop

theorem Arena.Encloses.lt {a : Arena} (h : a.Encloses addr len) : len < 2 ^ 32 := by
  obtain ⟨hbase, hend⟩ := h
  simp only [ARENA_SIZE] at hend
  omega

/-- `contains` is right about every arena that does not misjudge the range. -/
theorem Arena.contains_encloses_iff {a : Arena} (hfits : a.base + ARENA_SIZE ≤ 2 ^ 32) :
    (a.contains addr len = true ↔ a.Encloses addr len) ↔ ¬ a.Misjudges addr len := by
  rcases hfits.lt_or_eq with hbelow | htop
  · rw [Arena.contains_below hbelow, Arena.Misjudges]
    rcases Nat.lt_or_ge len (2 ^ 32) with hlen | hlen
    · rw [Nat.mod_eq_of_lt hlen]
      constructor
      · rintro - (⟨htop, -⟩ | ⟨hle, -⟩)
        · omega
        · omega
      · intro
        exact Iff.rfl
    · have hout : ¬ a.Encloses addr len := fun h => absurd h.lt (Nat.not_lt.mpr hlen)
      constructor
      · rintro hsame (⟨htop, -⟩ | ⟨-, -, hin⟩)
        · omega
        · exact hout (hsame.mp hin)
      · intro hright
        exact ⟨fun hin => absurd (.inr ⟨hlen, hbelow, hin⟩) hright, fun hin => absurd hin hout⟩
  · rw [Arena.contains_top htop]
    constructor
    · rintro hsame (⟨-, hin⟩ | ⟨-, hbelow, -⟩)
      · exact absurd (hsame.mpr hin) (by decide)
      · omega
    · intro hright
      exact ⟨fun hfalse => absurd hfalse (by decide), fun hin => absurd (.inl ⟨htop, hin⟩) hright⟩

theorem Arena.free_gains {a : Arena} (hlen : 0 < len) (h : a.Encloses addr len) :
    ∃ holes, (a.free addr len).2 = { a with freeList := holes } ∧
      covers holes = covers a.freeList ∪ Set.Ico (addr - a.base) (addr - a.base + len) ∧
        spanSum holes = spanSum a.freeList + len := by
  obtain ⟨hbase, hend⟩ := h
  rw [Arena.free_eq hlen hbase (by omega)]
  exact ⟨_, rfl, covers_insertHole _ _, spanSum_insertHole _ _⟩

-- ---------------------------------------------------------------------------
-- The walk over the arenas
-- ---------------------------------------------------------------------------

variable {mm mm' : LinearAllocator}

theorem LinearAllocator.munmap_exact_of_contains (hlen : 0 < len)
    (h : ∀ a ∈ mm.arenas, (a.contains addr len = true ↔ a.Encloses addr len)) : mm.UnmapsExactly addr len := by
  refine ⟨h, ?_, ?_⟩
  · rintro ⟨a, ha, hin⟩
    have hzero : (mm.munmap addr len).1 = 0 := (munmap_eq_zero_iff hlen).mpr ⟨a, ha, (h a ha).mpr hin⟩
    refine ⟨hzero, ?_⟩
    cases hr : mm.munmap addr len with
    | mk r mm' =>
      rcases LinearAllocator.munmap_cases hr with ⟨pre, b, post, -, -, hl, hc, rfl⟩ | ⟨hcase, -⟩
      · have hb : b ∈ mm.arenas := by simp [hl]
        have hin := (h b hb).mp hc
        obtain ⟨holes, hfree, hcovers, hsum⟩ := Arena.free_gains hlen hin
        exact ⟨pre, b, holes, post, hl, hin, by rw [hfree], hcovers, hsum⟩
      · rw [hr] at hzero
        rcases hcase with h0 | ⟨hne, -⟩
        · omega
        · rw [hne] at hzero
          cases hzero
  · intro hout
    cases hr : mm.munmap addr len with
    | mk r mm' =>
      rcases LinearAllocator.munmap_cases hr with ⟨pre, b, post, -, -, hl, hc, -⟩ | ⟨hcase, rfl⟩
      · have hb : b ∈ mm.arenas := by simp [hl]
        exact absurd ((h b hb).mp hc) (hout b hb)
      · rcases hcase with h0 | ⟨rfl, -⟩
        · omega
        · rfl

-- ---------------------------------------------------------------------------
-- Every run
-- ---------------------------------------------------------------------------

/-- No arena ends beyond 4 GiB. -/
def LinearAllocator.Placed (mm : LinearAllocator) : Prop := ∀ a ∈ mm.arenas, a.base + ARENA_SIZE ≤ 2 ^ 32

theorem le_of_aligned {base : Nat} (hdvd : ARENA_SIZE ∣ base) (hlt : base < 2 ^ 32) : base + ARENA_SIZE ≤ 2 ^ 32 := by
  obtain ⟨k, rfl⟩ := hdvd
  simp only [ARENA_SIZE] at *
  omega

theorem LinearAllocator.Placed.replace (h : mm.Placed) (hl : mm.arenas = pre ++ a :: post) (hbase : a'.base = a.base) :
    LinearAllocator.Placed { mm with arenas := pre ++ a' :: post } := by
  have ha' : a'.base + ARENA_SIZE ≤ 2 ^ 32 := by
    rw [hbase]
    exact h a (by simp [hl])
  have hall : ∀ b ∈ pre ++ a :: post, b.base + ARENA_SIZE ≤ 2 ^ 32 := by
    rw [← hl]
    exact h
  exact forall_mem_replace hall ha'

/-- A new arena stands at the mark, which is a multiple of the arena size. -/
theorem LinearAllocator.Placed.step {s s' : Session} (h : s.mm.Placed) (hsane : s.mm.Sane)
    (hn : s.next c = some s') : s'.mm.Placed := by
  obtain rfl := Option.some.inj hn
  cases c with
  | mmap cur len prot flags fd off =>
    show LinearAllocator.Placed (s.mm.mmap cur len prot flags fd off).2
    rcases LinearAllocator.mmap_cases (Prod.eta (s.mm.mmap cur len prot flags fd off)).symm with
      ⟨addr, pre, a, a', post, -, -, -, hl, halloc, hmm⟩ | ⟨-, -, -, -, -, hmm⟩ | ⟨-, hmm⟩
    · rw [hmm]
      exact h.replace hl (Arena.alloc_base halloc)
    · rw [hmm]
      exact List.forall_mem_append.mpr ⟨h, List.forall_mem_singleton.mpr (le_of_aligned hsane.topAligned hsane.top)⟩
    · rw [hmm]
      exact h
  | munmap addr len =>
    show LinearAllocator.Placed (s.mm.munmap addr len).2
    rcases LinearAllocator.munmap_cases (Prod.eta (s.mm.munmap addr len)).symm with
      ⟨pre, a, post, -, -, hl, -, hmm⟩ | ⟨-, hmm⟩
    · rw [hmm]
      exact h.replace hl (Arena.free_base ..)
    · rw [hmm]
      exact h
  | growInPlace old oldLen newLen =>
    show LinearAllocator.Placed (s.mm.growInPlace old oldLen newLen).2
    rcases LinearAllocator.growInPlace_cases (Prod.eta (s.mm.growInPlace old oldLen newLen)).symm with
      ⟨pre, a, post, -, -, hl, -, -, -, hmm⟩ | ⟨-, hmm⟩
    · rw [hmm]
      exact h.replace hl rfl
    · rw [hmm]
      exact h

theorem Session.reaches_placed {s : Session}
    (h : Reaches Session.next (fun _ _ => True) Session.start s) : s.mm.Placed := by
  induction h with
  | start => simp [LinearAllocator.Placed, Session.start, LinearAllocator.new]
  | step hrun _ hn ih => exact ih.step (Session.reaches_sane hrun) hn

/-- `munmap` finds the arena that the range is in exactly when no arena misjudges it. -/
theorem munmap_exact_iff {s : Session} (h : Reaches Session.next (fun _ _ => True) Session.start s) (hlen : 0 < len) :
    s.mm.UnmapsExactly addr len ↔ ∀ a ∈ s.mm.arenas, ¬ a.Misjudges addr len := by
  have hplaced := Session.reaches_placed h
  constructor
  · intro hexact a ha
    exact (Arena.contains_encloses_iff (hplaced a ha)).mp (hexact.contains a ha)
  · intro hright
    exact LinearAllocator.munmap_exact_of_contains hlen fun a ha =>
      (Arena.contains_encloses_iff (hplaced a ha)).mpr (hright a ha)

-- ---------------------------------------------------------------------------
-- A length of 4 GiB and more
-- ---------------------------------------------------------------------------

theorem punched_reached_anyhow : Reaches Session.next (fun _ _ => True) Session.start punched :=
  punched_reached.mono fun _ _ _ => trivial

theorem munmap_exact_iff_punched : punched.mm.UnmapsExactly 0x100020 8 := by
  rw [munmap_exact_iff punched_reached_anyhow (by decide)]
  intro a ha
  obtain rfl := List.mem_singleton.mp ha
  rintro (⟨htop, -⟩ | ⟨hlen, -⟩)
  · revert htop
    decide
  · revert hlen
    decide

/-- `munmap` of 4 GiB and eight bytes returns 0 and frees nothing. -/
theorem munmap_truncates : ∃ s, Reaches Session.next (fun _ _ => True) Session.start s ∧
    s.mm.munmap 0x100020 (2 ^ 32 + 8) = (0, s.mm) ∧ (∀ a ∈ s.mm.arenas, ¬ a.Encloses 0x100020 (2 ^ 32 + 8)) ∧
      ¬ s.mm.UnmapsExactly 0x100020 (2 ^ 32 + 8) := by
  have hrun : punched.mm.munmap 0x100020 (2 ^ 32 + 8) = (0, punched.mm) := by decide
  have hout : ∀ a ∈ punched.mm.arenas, ¬ a.Encloses 0x100020 (2 ^ 32 + 8) := by
    intro a _ hin
    exact absurd hin.lt (by decide)
  refine ⟨punched, punched_reached_anyhow, hrun, hout, fun hexact => ?_⟩
  have hrefused := hexact.refused hout
  rw [hrun] at hrefused
  cases (Prod.mk.inj hrefused).1

end EdgeLibos.Mm
