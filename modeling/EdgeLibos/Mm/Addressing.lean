import EdgeLibos.Mm.Reserved

/-!
# Where arenas are placed

Arenas are placed back to back from the first base, and the mark stands where
the next one goes. That holds as long as no arena is placed whose end is 4 GiB;
there the mark wraps to zero. While it holds, `munmap` of any range inside an
arena finds that arena and puts the whole range into its holes.
-/

namespace EdgeLibos.Mm

open Lib Errno

structure LinearAllocator.Laid (mm : LinearAllocator) : Prop where
  bounded : ∀ a ∈ mm.arenas, a.Bounded
  bases : mm.arenas.map (·.base) =
    (List.range mm.arenas.length).map fun i => FIRST_ARENA_BASE + i * ARENA_SIZE
  mark : mm.highWater = FIRST_ARENA_BASE + mm.arenas.length * ARENA_SIZE
  top : mm.highWater < 2 ^ 32

def LinearAllocator.Inside (mm : LinearAllocator) (addr len : Nat) : Prop :=
  ∃ a ∈ mm.arenas, a.base ≤ addr ∧ addr + len ≤ a.base + ARENA_SIZE

theorem LinearAllocator.new_laid : LinearAllocator.new.Laid :=
  ⟨by simp [LinearAllocator.new], rfl, rfl, by decide⟩

section
variable {mm mm' : LinearAllocator} {pre post : List Arena} {a a' : Arena} {addr len : Nat}

theorem LinearAllocator.Laid.index (h : mm.Laid) (ha : a ∈ mm.arenas) :
    ∃ i < mm.arenas.length, a.base = FIRST_ARENA_BASE + i * ARENA_SIZE := by
  have hmem : a.base ∈ mm.arenas.map (·.base) := List.mem_map_of_mem ha
  rw [h.bases] at hmem
  obtain ⟨i, hi, heq⟩ := List.mem_map.mp hmem
  exact ⟨i, List.mem_range.mp hi, heq.symm⟩

theorem LinearAllocator.Laid.first (h : mm.Laid) (ha : a ∈ mm.arenas) : FIRST_ARENA_BASE ≤ a.base := by
  obtain ⟨i, -, hi⟩ := h.index ha
  omega

theorem LinearAllocator.Laid.below (h : mm.Laid) (ha : a ∈ mm.arenas) :
    a.base + ARENA_SIZE ≤ mm.highWater := by
  obtain ⟨i, hi, hbase⟩ := h.index ha
  rw [hbase, h.mark, Nat.add_assoc, ← Nat.succ_mul]
  exact Nat.add_le_add_left (Nat.mul_le_mul_right _ hi) _

theorem LinearAllocator.Laid.ordered (h : mm.Laid) :
    mm.arenas.Pairwise fun a b => a.base + ARENA_SIZE ≤ b.base := by
  have hp : (mm.arenas.map (·.base)).Pairwise fun x y => x + ARENA_SIZE ≤ y := by
    rw [h.bases, List.pairwise_map]
    refine List.pairwise_lt_range.imp ?_
    intro i j hij
    rw [Nat.add_assoc, ← Nat.succ_mul]
    exact Nat.add_le_add_left (Nat.mul_le_mul_right _ hij) _
  exact List.pairwise_map.mp hp

theorem LinearAllocator.Laid.sane (h : mm.Laid) : mm.Sane := by
  have hfirst : ARENA_SIZE ∣ FIRST_ARENA_BASE := by decide
  refine ⟨h.bounded, fun a ha => ?_, ?_, h.top⟩
  · obtain ⟨i, -, hi⟩ := h.index ha
    rw [hi]
    exact Nat.dvd_add hfirst (Nat.dvd_mul_left ..)
  · rw [h.mark]
    exact Nat.dvd_add hfirst (Nat.dvd_mul_left ..)

-- ---------------------------------------------------------------------------
-- The calls
-- ---------------------------------------------------------------------------

theorem LinearAllocator.Laid.replace (h : mm.Laid) (hl : mm.arenas = pre ++ a :: post)
    (hbase : a'.base = a.base) (hb : a'.Bounded) :
    LinearAllocator.Laid { mm with arenas := pre ++ a' :: post } := by
  have hbases : (pre ++ a' :: post).map (·.base) = mm.arenas.map (·.base) := by
    simp [hl, hbase]
  have hlen : (pre ++ a' :: post).length = mm.arenas.length := by simp [hl]
  refine ⟨(h.sane.replace hl hbase hb).bounded, ?_, ?_, h.top⟩
  · simp only [hbases, hlen]
    exact h.bases
  · simp only [hlen]
    exact h.mark

theorem LinearAllocator.Laid.placeNext (h : mm.Laid) (hle : len ≤ ARENA_SIZE)
    (hlt : mm.highWater + ARENA_SIZE < 2 ^ 32) : (mm.placeNext len).Laid := by
  refine ⟨?_, ?_, ?_, Nat.mod_lt _ (by decide)⟩
  · exact List.forall_mem_append.mpr ⟨h.bounded, List.forall_mem_singleton.mpr ⟨hle, by simp⟩⟩
  · simp only [LinearAllocator.placeNext, List.map_append, List.length_append, List.length_singleton,
      List.range_succ, List.map_cons, List.map_nil, h.bases, ← h.mark]
  · simp only [LinearAllocator.placeNext, List.length_append, List.length_singleton]
    rw [Nat.mod_eq_of_lt hlt, Nat.succ_mul, ← Nat.add_assoc, ← h.mark]

theorem LinearAllocator.Inside.mono (h : mm.Inside addr len)
    (hsub : mm.arenas.map (·.base) ⊆ mm'.arenas.map (·.base)) : mm'.Inside addr len := by
  obtain ⟨a, ha, hlo, hhi⟩ := h
  obtain ⟨b, hb, heq⟩ := List.mem_map.mp (hsub (List.mem_map_of_mem ha))
  exact ⟨b, hb, heq ▸ hlo, heq ▸ hhi⟩

theorem LinearAllocator.Inside.sub (h : mm.Inside addr len)
    (hlo : addr ≤ addr') (hhi : addr' + len' ≤ addr + len) : mm.Inside addr' len' := by
  obtain ⟨a, ha, h1, h2⟩ := h
  exact ⟨a, ha, by omega, by omega⟩

/-- What one `mmap` keeps and adds: the arenas stay laid out, and what is
returned lies inside one of them. -/
theorem LinearAllocator.Laid.mmap (h : mm.Laid)
    (hroom : ValidRequest len flags fd off → mm.PlacesBelowTop cur len)
    (hr : mm.mmap cur len prot flags fd off = (r, mm')) :
    mm'.Laid ∧ mm.arenas.map (·.base) ⊆ mm'.arenas.map (·.base) ∧
      ∀ addr, r = .ok addr → 0 < len ∧ mm'.Inside addr len := by
  by_cases hok : ∃ addr, r = .ok addr
  · obtain ⟨addr, rfl⟩ := hok
    have hv := mmap_ok_valid hr
    rcases mmap_answered hr with ⟨arenas, ha, rfl⟩ | ⟨hnone, hcur, rfl, rfl⟩
    · obtain ⟨pre, a, a', post, hl, rfl, halloc⟩ := allocFirst_some ha
      have hmem : a ∈ mm.arenas := by simp [hl]
      have hbase := Arena.alloc_base halloc
      obtain ⟨hb, o, haddr, -, ho⟩ := Arena.alloc_bounded (h.bounded a hmem) halloc
      have hbelow := h.below hmem
      have htop := h.top
      refine ⟨h.replace hl hbase hb, by simp [hl, hbase], ?_⟩
      rintro _ ⟨⟩
      refine ⟨hv.1, a', by simp, ?_⟩
      rw [haddr, hbase, Nat.mod_eq_of_lt (by omega)]
      omega
    · have hlt := hroom hv hnone hcur
      refine ⟨h.placeNext hv.2.1 hlt, ?_, ?_⟩
      · simp only [LinearAllocator.placeNext, List.map_append]
        exact List.subset_append_left _ _
      · rintro _ ⟨⟩
        refine ⟨hv.1, _, List.mem_append_right _ (List.mem_singleton.mpr rfl), ?_⟩
        rw [Nat.mod_eq_of_lt h.top]
        exact ⟨Nat.le_refl _, Nat.add_le_add_left hv.2.1 _⟩
  · have hno : ∀ addr, r ≠ .ok addr := fun addr ha => hok ⟨addr, ha⟩
    obtain rfl := LinearAllocator.mmap_not_ok hr hno
    exact ⟨h, List.Subset.refl _, fun addr ha => absurd ha (hno addr)⟩

theorem LinearAllocator.Laid.munmap (h : mm.Laid) (hr : mm.munmap addr len = (r, mm')) :
    mm'.Laid ∧ mm'.arenas.map (·.base) = mm.arenas.map (·.base) := by
  rcases LinearAllocator.munmap_cases hr with ⟨pre, a, post, -, -, hl, -, rfl⟩ | ⟨-, rfl⟩
  · have hb := Arena.free_bounded (h.bounded a (by simp [hl])) addr len
    exact ⟨h.replace hl (Arena.free_base ..) hb, by simp [hl, Arena.free_base]⟩
  · exact ⟨h, rfl⟩

theorem LinearAllocator.Laid.growInPlace (h : mm.Laid) (hfits : mm.NoWrap old oldLen newLen)
    (hr : mm.growInPlace old oldLen newLen = (r, mm')) :
    mm'.Laid ∧ mm'.arenas.map (·.base) = mm.arenas.map (·.base) ∧
      ∀ addr, r = .ok addr → oldLen < newLen → mm'.Inside old newLen := by
  rcases LinearAllocator.growInPlace_exact hfits hr with
    ⟨pre, a, post, -, hlt, hl, hbase, hused, hle, rfl⟩ | ⟨hcase, rfl⟩
  · have hb : Arena.Bounded { a with used := a.used + (newLen - oldLen) } :=
      ⟨hle, (h.bounded a (by simp [hl])).inside⟩
    refine ⟨h.replace hl rfl hb, by simp [hl], fun addr _ _ => ?_⟩
    refine ⟨_, List.mem_append_right _ List.mem_cons_self, hbase, ?_⟩
    simp only
    omega
  · refine ⟨h, rfl, fun addr haddr hlt => ?_⟩
    rcases hcase with ⟨hle, -⟩ | hbad
    · omega
    · rw [hbad] at haddr
      cases haddr

/-- `munmap` finds the arena a range lies in, and all of it becomes a hole there. -/
theorem LinearAllocator.Laid.munmap_inside (h : mm.Laid) (hpos : 0 < len) (hin : mm.Inside addr len) :
    (mm.munmap addr len).1 = 0 ∧ ∃ a ∈ (mm.munmap addr len).2.arenas,
      ∀ x ∈ Set.Ico addr (addr + len), a.base ≤ x ∧ x - a.base ∈ covers a.freeList := by
  obtain ⟨b, hb, hlo, hhi⟩ := hin
  have hsize : ARENA_SIZE < 2 ^ 32 := by decide
  have hbelow := h.below hb
  have htop := h.top
  have hcontains : b.contains addr len = true := by
    rw [Arena.contains_iff (by omega), Nat.mod_eq_of_lt (by omega)]
    exact ⟨hlo, hhi⟩
  have hzero : (mm.munmap addr len).1 = 0 := (munmap_eq_zero_iff hpos).mpr ⟨b, hb, hcontains⟩
  refine ⟨hzero, ?_⟩
  cases hr : mm.munmap addr len with
  | mk r mm' =>
    rcases LinearAllocator.munmap_cases hr with ⟨pre, a, post, rfl, -, hl, hc, rfl⟩ | ⟨hcase, -⟩
    · obtain ⟨hbase, hend⟩ := Arena.contains_bounds (by omega) hc
      have hend' := hend.trans (Nat.mod_le _ _)
      refine ⟨_, List.mem_append_right _ List.mem_cons_self, ?_⟩
      rw [Arena.free_eq hpos hbase (by omega)]
      intro x hx
      simp only [Set.mem_Ico] at hx
      refine ⟨by simp only; omega, ?_⟩
      simp only [covers_insertHole]
      refine .inr ?_
      simp only [Span.mem_points]
      omega
    · rw [hr] at hzero
      rcases hcase with h0 | ⟨hne, -⟩
      · omega
      · rw [hne] at hzero
        cases hzero

end

end EdgeLibos.Mm
