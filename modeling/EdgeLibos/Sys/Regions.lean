import EdgeLibos.Mm.Addressing
import EdgeLibos.Sys.Reserve

/-!
# Live regions up to the end of the address space

A run of memory calls with any words, and the regions the guest still has: what
`mmap` returned, as `mremap` resized it, less what `munmap` took. The mark of
the allocator is a 32-bit word and the check against the size of memory is made
with more bits. So the last arena below 4 GiB is placed and the mark wraps;
`munmap` of what lies in that arena is refused. Until then every arena has
addresses of its own, and `munmap` of every region works.
-/

namespace EdgeLibos.Sys

open Lib Mm Errno

structure RegionRun where
  kernel : Kernel
  regions : List Span

/-- What is left of a region in front of and behind a range. -/
def leftOf (cut r : Span) : List Span :=
  [(r.1, min (r.1 + r.2) cut.1 - r.1),
    (max r.1 (cut.1 + cut.2), r.1 + r.2 - max r.1 (cut.1 + cut.2))].filter fun p => 0 < p.2

def regionsAfter (regions : List Span) (c : MemCall) (r : Int) : List Span :=
  if r < 0 then regions
  else
    match c with
    | .mmap _ len .. => (r.toNat, len.toNat) :: regions
    | .munmap addr len => regions.flatMap (leftOf (addr.toNat, len.toNat))
    | .mremap old oldLen newLen .. =>
      regions.map fun p => if p = (old.toNat, oldLen.toNat) then (p.1, newLen.toNat) else p

theorem regionsAfter_mmap (a n : Nat) :
    regionsAfter regions (.mmap addr n prot flags fd off) a = (a, n) :: regions := by
  have hnonneg : ¬ (a : Int) < 0 := by omega
  simp only [regionsAfter, if_neg hnonneg, Int.toNat_natCast]

namespace RegionRun

def after (s : RegionRun) (c : MemCall) : RegionRun :=
  { kernel := (c.run s.kernel).2, regions := regionsAfter s.regions c (c.run s.kernel).1 }

def next (s : RegionRun) (c : MemCall) : Option RegionRun := some (s.after c)

def start (k : Kernel) : RegionRun := { kernel := k, regions := [] }

end RegionRun

def RegionRun.Below (s : RegionRun) : MemCall → Prop
  | .mmap _ len _ flags fd off => BelowTop s.kernel len flags fd off
  | _ => True

-- ---------------------------------------------------------------------------
-- Asking twice
-- ---------------------------------------------------------------------------

section
variable {k : Kernel} {mem mem' : LinearMemory} {n : Nat} {prot flags fd off : Int}
  {d : MmapResult} {mm₁ : LinearAllocator}

theorem mmapPlace_mm (k : Kernel) (mem : LinearMemory) (n : Nat) (prot flags : BitVec 32)
    (fd off : Int) :
    (mmapPlace k mem n prot flags fd off).2.mm = (k.mm.mmap mem.size n prot flags fd off).2 := by
  unfold mmapPlace
  cases k.mm.mmap mem.size n prot flags fd off with
  | mk r mm => cases r <;> rfl

/-- When a new arena comes first, the second answer finds room in it or places another. -/
theorem mmap_after_fresh {mm : LinearAllocator} (hv : ValidRequest n (.ofInt 32 flags) fd off)
    (hnone : allocFirst n 8 mm.arenas = none)
    (hroom : (mm.placeNext n).highWater + ARENA_SIZE ≤ cur) :
    ((mm.placeNext n).mmap cur n (.ofInt 32 prot) (.ofInt 32 flags) fd off).2.highWater =
      if alignUp n 8 + n ≤ ARENA_SIZE then (mm.placeNext n).highWater
      else ((mm.placeNext n).highWater + ARENA_SIZE) % 2 ^ 32 := by
  cases ha : allocFirst n 8 (mm.placeNext n).arenas with
  | none =>
    have htight := (allocFirst_placeNext hnone).mp ha
    rw [mmap_fresh hv ha hroom, if_neg (Nat.not_le.mpr htight)]
    rfl
  | some x =>
    have hfits : ¬ ARENA_SIZE < alignUp n 8 + n := by
      intro htight
      cases ha.symm.trans ((allocFirst_placeNext hnone).mpr htight)
    rw [mmap_hit hv ha, if_pos (Nat.not_lt.mp hfits)]

/-- A call that does not meet the condition makes the mark wrap. -/
theorem mmap_wraps {len : Int} (hl : k.mm.Laid) (addr prot : Int)
    (hno : ¬ BelowTop k len flags fd off) :
    (mmap k addr len prot flags fd off).2.mm.highWater < k.mm.highWater := by
  have hpos : 2 * ARENA_SIZE < k.mm.highWater := by
    rw [hl.mark]
    exact Nat.lt_add_right _ (by decide)
  have hs := hl.sane
  have hdvd := hs.topAligned
  have htop := hl.top
  have hend : k.mm.highWater + ARENA_SIZE ≤ 2 ^ 32 := by
    obtain ⟨m, hm⟩ := hdvd
    unfold ARENA_SIZE at *
    omega
  unfold BelowTop at hno
  push Not at hno
  obtain ⟨mem, n, hm, rfl, hv, hno⟩ := hno
  have hsize := mem.size_le
  have hmark : (k.mm.placeNext n).highWater = (k.mm.highWater + ARENA_SIZE) % 2 ^ 32 := rfl
  by_cases hfull : mem.size = 2 ^ 32
  · obtain ⟨-, htaken⟩ := hno fun h => by omega
    cases ha : allocFirst n 8 k.mm.arenas with
    | some x =>
      obtain ⟨a, l⟩ := x
      rw [mmap_eq_place hm hv.1 hv.word (mmap_hit hv ha) rfl, mmapPlace_mm]
      rw [arenasTaken_hit ha] at htaken
      split at htaken
      · rename_i hnone
        rw [mmap_fresh hv (Option.isNone_iff_eq_none.mp hnone) (by simp only; omega)]
        simp only [LinearAllocator.placeNext]
        omega
      · omega
    | none =>
      have hroom : ((k.mm.highWater + ARENA_SIZE) % 2 ^ 32) + ARENA_SIZE ≤ mem.size := by
        obtain ⟨m, hm⟩ := hdvd
        unfold ARENA_SIZE at *
        omega
      rw [mmap_eq_place hm hv.1 hv.word (mmap_fresh hv ha (by omega)) rfl, mmapPlace_mm,
        mmap_after_fresh hv ha hroom, hmark]
      rw [arenasTaken_pos ha] at htaken
      split at htaken
      · rename_i hfits
        rw [if_pos hfits]
        omega
      · rename_i htight
        rw [if_neg htight]
        obtain ⟨m, hm⟩ := hdvd
        unfold ARENA_SIZE at *
        omega
  · have hgrows : ¬ (k.mm.highWater + ARENA_SIZE < 2 ^ 32 ∨ mem.maxPages < 65536 ∨
        allocFirst n 8 k.mm.arenas ≠ none) := fun h => hfull (hno fun _ => h).1
    push Not at hgrows
    obtain ⟨hlast, hmax, hnone⟩ := hgrows
    have hlimit := Nat.mul_le_mul_right PAGE_SIZE hmax
    have hfour : 65536 * PAGE_SIZE = 2 ^ 32 := by decide
    rcases mmap_first_asks addr prot hs hm hv hnone (by omega) with ⟨hlt, -⟩ | ⟨-, -, hmm⟩
    · omega
    · rw [hmm, hmark]
      omega

end

-- ---------------------------------------------------------------------------
-- The invariant
-- ---------------------------------------------------------------------------

structure RegionRun.Inv (s : RegionRun) : Prop where
  laid : s.kernel.mm.Laid
  regions : ∀ p ∈ s.regions, 0 < p.2 ∧ s.kernel.mm.Inside p.1 p.2

theorem leftOf_sub {cut r p : Span} (h : p ∈ leftOf cut r) :
    0 < p.2 ∧ r.1 ≤ p.1 ∧ p.1 + p.2 ≤ r.1 + r.2 := by
  obtain ⟨hmem, hpos⟩ := List.mem_filter.mp h
  have hpos' : 0 < p.2 := by simpa using hpos
  simp only [List.mem_cons, List.not_mem_nil, or_false] at hmem
  rcases hmem with rfl | rfl
  · simp only at hpos' ⊢
    omega
  · simp only at hpos' ⊢
    omega

section
variable {s : RegionRun} {r : Int} {k' : Kernel}

theorem RegionRun.Inv.keep (h : s.Inv) (k' : Kernel)
    (hbases : s.kernel.mm.arenas.map (·.base) ⊆ k'.mm.arenas.map (·.base)) :
    ∀ p ∈ s.regions, 0 < p.2 ∧ k'.mm.Inside p.1 p.2 :=
  fun p hp => ⟨(h.regions p hp).1, (h.regions p hp).2.mono hbases⟩

theorem RegionRun.Inv.mmap (h : s.Inv) (hbelow : BelowTop s.kernel len flags fd off)
    (hr : Sys.mmap s.kernel addr len prot flags fd off = (r, k')) :
    RegionRun.Inv ⟨k', regionsAfter s.regions (.mmap addr len prot flags fd off) r⟩ := by
  rcases mmap_cases hr with ⟨hneg, rfl⟩ |
    ⟨n, mem, mem', d, res, mm₁, mm₂, rfl, hpos, hm, hd, hg, hres, hcase⟩
  · exact ⟨h.laid, by simpa only [regionsAfter, if_pos hneg] using h.regions⟩
  · obtain ⟨hlaid₁, hsub₁, -⟩ := h.laid.mmap (hbelow.first hm) hd
    obtain ⟨hlaid₂, hsub₂, hnew⟩ := hlaid₁.mmap (fun hv => hbelow.second hm hv hd hg) hres
    have hsub := List.Subset.trans hsub₁ hsub₂
    rcases hcase with ⟨a, rfl, rfl, rfl⟩ | ⟨-, hneg, rfl⟩
    · refine ⟨hlaid₂, ?_⟩
      simp only [regionsAfter_mmap, List.mem_cons]
      rintro p (rfl | hp)
      · exact hnew a rfl
      · exact h.keep { s.kernel with mm := mm₂ } hsub p hp
    · refine ⟨hlaid₂, ?_⟩
      simp only [regionsAfter, if_pos hneg]
      exact h.keep { s.kernel with mm := mm₂ } hsub

theorem RegionRun.Inv.munmap (h : s.Inv) (hr : Sys.munmap s.kernel addr len = (r, k')) :
    RegionRun.Inv ⟨k', regionsAfter s.regions (.munmap addr len) r⟩ := by
  obtain ⟨hlaid, hbases⟩ : k'.mm.Laid ∧
      k'.mm.arenas.map (·.base) = s.kernel.mm.arenas.map (·.base) := by
    rcases munmap_cases hr with ⟨-, rfl⟩ | ⟨a, n, mm', -, -, hmm, rfl⟩
    · exact ⟨h.laid, rfl⟩
    · exact h.laid.munmap hmm
  have hkeep := h.keep k' (hbases ▸ List.Subset.refl _)
  refine ⟨hlaid, ?_⟩
  simp only [regionsAfter]
  split
  · exact hkeep
  · intro p hp
    obtain ⟨q, hq, hpq⟩ := List.mem_flatMap.mp hp
    obtain ⟨hpos, hlo, hhi⟩ := leftOf_sub hpq
    exact ⟨hpos, (hkeep q hq).2.sub hlo hhi⟩

theorem RegionRun.Inv.mremap (h : s.Inv)
    (hr : Sys.mremap s.kernel old oldLen newLen flags newAddr = (r, k')) :
    RegionRun.Inv ⟨k', regionsAfter s.regions (.mremap old oldLen newLen flags newAddr) r⟩ := by
  rcases mremap_cases hr with ⟨hneg, rfl⟩ | ⟨o, n, n', rfl, rfl, rfl, hpos, hnonneg, hcase⟩
  · exact ⟨h.laid, by simpa only [regionsAfter, if_pos hneg] using h.regions⟩
  -- The arenas stay, and the range that was resized is inside one of them.
  obtain ⟨hlaid, hbases, hinside⟩ : k'.mm.Laid ∧
      k'.mm.arenas.map (·.base) = s.kernel.mm.arenas.map (·.base) ∧
      (k'.mm.Inside o n → k'.mm.Inside o n') := by
    rcases hcase with ⟨hle, rfl⟩ | ⟨hlt, hfits, addr, mm', hg, rfl⟩
    · exact ⟨h.laid, rfl, fun hin => hin.sub (Nat.le_refl _) (Nat.add_le_add_left hle _)⟩
    · have hfits := hfits fun a ha => (h.laid.bounded a ha).used_le
      obtain ⟨hlaid, hbases, hgrown⟩ := h.laid.growInPlace hfits hg
      exact ⟨hlaid, hbases, fun _ => hgrown addr rfl hlt⟩
  have hkeep := h.keep k' (hbases ▸ List.Subset.refl _)
  refine ⟨hlaid, ?_⟩
  simp only [regionsAfter, if_neg (Int.not_lt.mpr hnonneg), Int.toNat_natCast]
  intro p hp
  obtain ⟨q, hq, rfl⟩ := List.mem_map.mp hp
  split
  · rename_i hqeq
    subst hqeq
    exact ⟨hpos, hinside (hkeep _ hq).2⟩
  · exact hkeep q hq

end

theorem RegionRun.Inv.step {s s' : RegionRun} (h : s.Inv) (hb : s.Below c)
    (hn : s.next c = some s') : s'.Inv := by
  obtain rfl := Option.some.inj hn
  cases c with
  | mmap addr len prot flags fd off =>
    exact h.mmap hb (Prod.eta (Sys.mmap s.kernel addr len prot flags fd off)).symm
  | munmap addr len => exact h.munmap (Prod.eta (Sys.munmap s.kernel addr len)).symm
  | mremap old oldLen newLen flags newAddr =>
    exact h.mremap (Prod.eta (Sys.mremap s.kernel old oldLen newLen flags newAddr)).symm

theorem RegionRun.reaches_inv
    (h : Reaches RegionRun.next RegionRun.Below
      (RegionRun.start (freshKernel args env vfs seed memory)) s) : s.Inv :=
  h.invariant (I := RegionRun.Inv) ⟨LinearAllocator.new_laid, by simp [RegionRun.start]⟩
    fun _ _ _ hi hb hn => hi.step hb hn

/-- In every state of a run that stays below the top, the mark is where the
arenas end and has not wrapped, the arenas have disjoint addresses from the
first base on, and `munmap` of a live region frees it. The next `mmap` that does
not meet the condition makes the mark wrap. -/
theorem arenas_below_top
    (h : Reaches RegionRun.next RegionRun.Below
      (RegionRun.start (freshKernel args env vfs seed memory)) s) :
    s.kernel.mm.highWater = FIRST_ARENA_BASE + s.kernel.mm.arenas.length * ARENA_SIZE ∧
    s.kernel.mm.highWater < 2 ^ 32 ∧
    s.kernel.mm.arenas.Pairwise (fun a b =>
      Disjoint (Set.Ico a.base (a.base + ARENA_SIZE)) (Set.Ico b.base (b.base + ARENA_SIZE))) ∧
    (∀ a ∈ s.kernel.mm.arenas, FIRST_ARENA_BASE ≤ a.base ∧
      a.base + ARENA_SIZE ≤ s.kernel.mm.highWater) ∧
    (∀ p ∈ s.regions, (munmap s.kernel p.1 p.2).1 = 0 ∧
      ∃ a ∈ (munmap s.kernel p.1 p.2).2.mm.arenas,
        ∀ x ∈ Set.Ico p.1 (p.1 + p.2), a.base ≤ x ∧ x - a.base ∈ covers a.freeList) ∧
    ∀ addr len prot flags fd off, ¬ BelowTop s.kernel len flags fd off →
      (mmap s.kernel addr len prot flags fd off).2.mm.highWater < s.kernel.mm.highWater := by
  have hi := RegionRun.reaches_inv h
  have hl := hi.laid
  refine ⟨hl.mark, hl.top, ?_, fun a ha => ⟨hl.first ha, hl.below ha⟩, ?_, ?_⟩
  · refine hl.ordered.imp ?_
    intro a b hab
    rw [Set.disjoint_left]
    intro x hx hx'
    simp only [Set.mem_Ico] at hx hx'
    omega
  · intro p hp
    obtain ⟨hpos, hin⟩ := hi.regions p hp
    obtain ⟨haddr, hlen⟩ : p.1 < 2 ^ 32 ∧ p.2 < 2 ^ 63 := by
      obtain ⟨a, ha, -, hhi⟩ := hin
      have hbelow := hl.below ha
      have htop := hl.top
      omega
    rw [munmap_eq haddr hlen (Prod.eta (s.kernel.mm.munmap p.1 p.2)).symm]
    exact hl.munmap_inside hpos hin
  · intro addr len prot flags fd off hno
    exact mmap_wraps hl addr prot hno

-- ---------------------------------------------------------------------------
-- The end of the address space
-- ---------------------------------------------------------------------------

def fullArenas (m : Nat) : LinearAllocator :=
  { arenas := (List.range m).map fun i =>
      { base := FIRST_ARENA_BASE + i * ARENA_SIZE, used := ARENA_SIZE, freeList := [] }
    highWater := FIRST_ARENA_BASE + m * ARENA_SIZE }

theorem allocFirst_none {l : List Arena} (h : ∀ a ∈ l, a.alloc len align = none) :
    allocFirst len align l = none := by
  induction l with
  | nil => rfl
  | cons a rest ih =>
    rw [allocFirst, h a List.mem_cons_self, ih fun b hb => h b (List.mem_cons_of_mem _ hb)]
    rfl

theorem fullArenas_none (m : Nat) : allocFirst ARENA_SIZE 8 (fullArenas m).arenas = none := by
  refine allocFirst_none fun a ha => ?_
  obtain ⟨i, -, rfl⟩ := List.mem_map.mp ha
  have htight : ARENA_SIZE < alignUp ARENA_SIZE 8 + ARENA_SIZE := by decide
  exact Arena.alloc_none_iff.mpr ⟨by simp, htight⟩

theorem fullArenas_succ (h : FIRST_ARENA_BASE + (m + 1) * ARENA_SIZE < 2 ^ 32) :
    (fullArenas m).placeNext ARENA_SIZE = fullArenas (m + 1) := by
  rw [Nat.succ_mul] at h
  have hmod := Nat.mod_eq_of_lt h
  simp only [LinearAllocator.placeNext, fullArenas, List.range_succ, List.map_append, List.map_cons,
    List.map_nil, Nat.succ_mul, Nat.add_assoc, hmod]

def mapArena : MemCall := .mmap 0 (ARENA_SIZE : Nat) 3 0x22 (-1) 0

theorem fullArenas_mmap (h : FIRST_ARENA_BASE + (m + 1) * ARENA_SIZE ≤ 2 ^ 32) :
    (fullArenas m).mmap (2 ^ 32) ARENA_SIZE (.ofInt 32 3) (.ofInt 32 0x22) (-1) 0 =
      (.ok (FIRST_ARENA_BASE + m * ARENA_SIZE), (fullArenas m).placeNext ARENA_SIZE) := by
  have hv : ValidRequest ARENA_SIZE (.ofInt 32 0x22) (-1) 0 := by decide
  have hmark : (fullArenas m).highWater = FIRST_ARENA_BASE + m * ARENA_SIZE := rfl
  have hsize : 0 < ARENA_SIZE := by decide
  rw [Nat.succ_mul] at h
  rw [mmap_fresh hv (fullArenas_none m) (by rw [hmark]; omega), hmark, Nat.mod_eq_of_lt (by omega)]

theorem Shows.mapArena {k : Kernel} (h : Shows k (fullArenas m) (2 ^ 32))
    (hm : FIRST_ARENA_BASE + (m + 2) * ARENA_SIZE ≤ 2 ^ 32) :
    (Sys.mapArena.run k).1 = (FIRST_ARENA_BASE + (m + 1) * ARENA_SIZE : Nat) ∧
      Shows (Sys.mapArena.run k).2 ((fullArenas (m + 1)).placeNext ARENA_SIZE) (2 ^ 32) := by
  have hsize : 0 < ARENA_SIZE := by decide
  have hlt : FIRST_ARENA_BASE + (m + 1) * ARENA_SIZE < 2 ^ 32 := by
    rw [Nat.succ_mul] at hm
    omega
  have h₁ := fullArenas_mmap (Nat.le_of_lt hlt)
  rw [fullArenas_succ hlt] at h₁
  exact h.mmap (n := ARENA_SIZE) (by decide) (by decide) h₁ (fullArenas_mmap hm)

theorem Shows.mapArenas {k : Kernel} (h : Shows k .new (2 ^ 32)) (j : Nat)
    (hj : FIRST_ARENA_BASE + 2 * j * ARENA_SIZE < 2 ^ 32) :
    ∃ s, Reaches RegionRun.next (fun _ _ => True) (RegionRun.start k) s ∧
      Shows s.kernel (fullArenas (2 * j)) (2 ^ 32) := by
  induction j with
  | zero => exact ⟨_, .start, h⟩
  | succ j ih =>
    rw [Nat.mul_succ] at hj ⊢
    obtain ⟨s, hs, hshows⟩ := ih (by rw [Nat.add_mul] at hj; omega)
    obtain ⟨-, hnext⟩ := hshows.mapArena (Nat.le_of_lt hj)
    rw [fullArenas_succ hj] at hnext
    exact ⟨s.after Sys.mapArena, .step (a := Sys.mapArena) hs trivial rfl, hnext⟩

theorem top_le_top : 65536 ≤ 65536 := Nat.le_refl _

def wideKernel : Kernel :=
  freshKernel [] [] { root := "/", cwd := "/" } (Vector.replicate 32 0)
    (some (.owned (.filled 0 65536 65536 top_le_top top_le_top)))

theorem wideKernel_shows : Shows wideKernel .new (2 ^ 32) :=
  ⟨rfl, _, rfl, LinearMemory.filled_size.trans (by decide)⟩

/-- A range that ends at 4 GiB is in no arena, by its end alone. -/
theorem munmap_last (mm : LinearAllocator) (hn : 0 < n) (hlt : n < 2 ^ 32) (h : a + n = 2 ^ 32) :
    mm.munmap a n = (-EINVAL, mm) := by
  have hnone : freeFirst a n mm.arenas = none := by
    refine freeFirst_none_iff.mpr fun b _ => ?_
    unfold Arena.contains
    rw [if_pos (by rw [Nat.mod_eq_of_lt hlt]; omega)]
  unfold LinearAllocator.munmap
  rw [if_neg (Nat.ne_of_gt hn), hnone]

/-- The call that places the last arena leaves the mark at zero, and `munmap` of
what it returned is refused. -/
theorem last_arena_not_unmappable :
    ∃ s, Reaches RegionRun.next (fun _ _ => True) (RegionRun.start wideKernel) s ∧
      s.kernel.mm.highWater = 0 ∧ (0xfffc0000, 0x40000) ∈ s.regions ∧
      (munmap s.kernel (0xfffc0000 : Nat) (0x40000 : Nat)).1 = -EINVAL := by
  obtain ⟨s, hs, hshows⟩ := wideKernel_shows.mapArenas 8189 (by decide)
  obtain ⟨hr, hnext⟩ := hshows.mapArena (by decide)
  have hwrap : ((fullArenas (2 * 8189 + 1)).placeNext ARENA_SIZE).highWater = 0 := by decide
  have hlast : FIRST_ARENA_BASE + (2 * 8189 + 1) * ARENA_SIZE = 0xfffc0000 := by decide
  refine ⟨s.after mapArena, .step (a := mapArena) hs trivial rfl, ?_, ?_, ?_⟩
  · exact (congrArg (·.highWater) hnext.allocator).trans hwrap
  · have hregions : (s.after mapArena).regions = (0xfffc0000, ARENA_SIZE) :: s.regions := by
      rw [← hlast]
      exact (congrArg (regionsAfter s.regions mapArena) hr).trans (regionsAfter_mmap ..)
    rw [hregions]
    exact List.mem_cons_self
  · exact (hnext.munmap (a := 0xfffc0000) (n := 0x40000) (by decide) (by decide)
      (munmap_last _ (by decide) (by decide) (by decide))).1

theorem map64_regions {k : Kernel} (h : Shows k .new 0x200000) :
    ((RegionRun.start k).after map64).regions = [(0x100040, 64)] :=
  (congrArg (regionsAfter [] map64) (reserves_twice_of_shows h).2.1).trans (regionsAfter_mmap ..)

/-- Sixty-four bytes are mapped, and `munmap` frees them. -/
theorem arenas_below_top_once :
    ∃ s, Reaches RegionRun.next RegionRun.Below (RegionRun.start guestKernel) s ∧
      (0x100040, 64) ∈ s.regions ∧ s.kernel.mm.highWater < 2 ^ 32 ∧
      (munmap s.kernel (0x100040 : Nat) (64 : Nat)).1 = 0 := by
  have hbelow : (RegionRun.start guestKernel).Below map64 :=
    guestKernel_shows.belowTop (by decide) (by decide)
  have hrun : Reaches RegionRun.next RegionRun.Below (RegionRun.start guestKernel)
      ((RegionRun.start guestKernel).after map64) := .step (a := map64) .start hbelow rfl
  obtain ⟨-, htop, -, -, hfree, -⟩ := arenas_below_top hrun
  have hmem : (0x100040, 64) ∈ ((RegionRun.start guestKernel).after map64).regions := by
    rw [map64_regions guestKernel_shows]
    exact List.mem_cons_self
  exact ⟨_, hrun, hmem, htop, (hfree _ hmem).1⟩

end EdgeLibos.Sys
