import EdgeLibos.Mm.Reserved
import EdgeLibos.Sys.MemoryRuns

/-!
# What one `mmap` call reserves

The call asks the allocator, grows memory when it is told to, and asks again.
It reserves one region exactly when the first answer was a request to grow: an
address in the first answer is reserved and then forgotten, and the second
answer reserves a region of its own or runs out of memory. The region in the
arena that ends at 4 GiB is the other exception; `munmap` does not find it.
-/

namespace EdgeLibos.Sys

open Lib Mm Errno

/-- The call leaves the allocator alone, or it is a supported request that no
arena has room for, the next arena lies beyond the end of memory, and either
ends below 4 GiB or beyond what memory may grow to. -/
def AsksToGrow (k : Kernel) (len flags fd off : Int) : Prop :=
  ∀ mem, ∀ n : Nat, k.memory = some (.owned mem) → len = n →
    ValidRequest n (.ofInt 32 flags) fd off →
      allocFirst n 8 k.mm.arenas = none ∧ mem.size < k.mm.highWater + ARENA_SIZE ∧
        (k.mm.highWater + ARENA_SIZE < 2 ^ 32 ∨
          mem.maxPages * PAGE_SIZE < k.mm.highWater + ARENA_SIZE)

/-- The count of one aligned region, before and after the `munmap` that follows. -/
structure CountsOne (k k' : Kernel) (r len : Int) : Prop where
  failed : r < 0 → k'.mm = k.mm
  mapped : 0 ≤ r → k.mm.reserved + len ≤ k'.mm.reserved ∧ k'.mm.reserved ≤ k.mm.reserved + len + 7
  unmapped : 0 ≤ r → k.mm.reserved - 7 ≤ (munmap k' r len).2.mm.reserved ∧
    (munmap k' r len).2.mm.reserved ≤ k.mm.reserved + 7

/-- The allocator reserved once, and `munmap` finds the region. -/
structure ReservesOnce (k k' : Kernel) (r len prot flags fd off : Int) : Prop where
  once : 0 ≤ r → ∃ cur a,
    k.mm.mmap cur len.toNat (.ofInt 32 prot) (.ofInt 32 flags) fd off = (.ok a, k'.mm)
  found : 0 ≤ r → (munmap k' r len).1 = 0

-- ---------------------------------------------------------------------------
-- The call, by its first answer
-- ---------------------------------------------------------------------------

section
variable {k : Kernel} {mem mem' : LinearMemory} {n : Nat} {addr prot flags fd off : Int}
  {d : MmapResult} {mm₁ : LinearAllocator}

theorem mmap_refused {len : Int} (addr prot : Int)
    (h : ∀ mem, ∀ n : Nat, k.memory = some (.owned mem) → len = n →
      ¬ ValidRequest n (.ofInt 32 flags) fd off) :
    (mmap k addr len prot flags fd off).1 < 0 ∧ (mmap k addr len prot flags fd off).2.mm = k.mm := by
  cases hr : mmap k addr len prot flags fd off with
  | mk r k' =>
    rcases mmap_cases hr with ⟨hneg, rfl⟩ |
      ⟨n, mem, mem', d, res, mm₁, mm₂, hlen, -, hm, hd, hg, hres, hcase⟩
    · exact ⟨hneg, rfl⟩
    · obtain ⟨e, -, herr⟩ := mmap_invalid (h mem n hm hlen)
      rw [herr] at hd
      obtain ⟨rfl, rfl⟩ := Prod.mk.inj hd
      rw [herr] at hres
      obtain ⟨rfl, rfl⟩ := Prod.mk.inj hres
      rcases hcase with ⟨a, hbad, -⟩ | ⟨-, hneg, rfl⟩
      · cases hbad
      · exact ⟨hneg, rfl⟩

/-- An address in the first answer is reserved beside that of the second, or
without one. -/
theorem mmap_first_ok (hs : k.mm.Sane) (hm : k.memory = some (.owned mem))
    (hv : ValidRequest n (.ofInt 32 flags) fd off)
    (hd : k.mm.mmap mem.size n (.ofInt 32 prot) (.ofInt 32 flags) fd off = (.ok a, mm₁)) :
    k.mm.reserved + n ≤ mm₁.reserved ∧
      ((∃ b mm₂, mm₁.mmap mem.size n (.ofInt 32 prot) (.ofInt 32 flags) fd off = (.ok b, mm₂) ∧
          (mmap k addr n prot flags fd off).1 = b ∧ (mmap k addr n prot flags fd off).2.mm = mm₂ ∧
          mm₁.reserved + n ≤ mm₂.reserved) ∨
        ((mmap k addr n prot flags fd off).1 = -ENOMEM ∧
          (mmap k addr n prot flags fd off).2.mm = mm₁)) := by
  refine ⟨(hs.mmap_reserved hd).1, ?_⟩
  rw [mmap_eq_place hm hv.1 hv.word hd rfl]
  unfold mmapPlace
  cases hr : mm₁.mmap mem.size n (.ofInt 32 prot) (.ofInt 32 flags) fd off with
  | mk res mm₂ =>
    cases res with
    | ok b =>
      have hmore := ((hs.mmap hd).mmap_reserved hr).1
      exact .inl ⟨b, mm₂, rfl, rfl, rfl, hmore⟩
    | needGrow p =>
      have hsame := LinearAllocator.mmap_not_ok hr (by simp)
      exact .inr ⟨rfl, hsame⟩
    | err e => exact absurd (congrArg Prod.fst hr) (mmap_not_err hv e)

/-- When the first answer asks for pages, memory grows to the end of the next
arena, or not at all. -/
theorem mmap_first_asks (addr prot : Int) (hs : k.mm.Sane) (hm : k.memory = some (.owned mem))
    (hv : ValidRequest n (.ofInt 32 flags) fd off) (hnone : allocFirst n 8 k.mm.arenas = none)
    (hcur : mem.size < k.mm.highWater + ARENA_SIZE) :
    (mem.maxPages * PAGE_SIZE < k.mm.highWater + ARENA_SIZE ∧
        mmap k addr n prot flags fd off = (-ENOMEM, k)) ∨
      (k.mm.highWater + ARENA_SIZE ≤ mem.maxPages * PAGE_SIZE ∧
        (mmap k addr n prot flags fd off).1 = (k.mm.highWater : Int) ∧
        (mmap k addr n prot flags fd off).2.mm = k.mm.placeNext n) := by
  have hd : k.mm.mmap mem.size n (.ofInt 32 prot) (.ofInt 32 flags) fd off =
      (.needGrow ((k.mm.highWater + ARENA_SIZE - mem.size + PAGE_SIZE - 1) / PAGE_SIZE), k.mm) :=
    mmap_grow hv hnone hcur
  have henough := (pages_least hcur).1
  simp only [Set.mem_ofPred_eq] at henough
  have hexact : mem.size + (k.mm.highWater + ARENA_SIZE - mem.size + PAGE_SIZE - 1) / PAGE_SIZE *
      PAGE_SIZE = k.mm.highWater + ARENA_SIZE := by
    obtain ⟨m, hm⟩ := hs.topAligned
    have hsize := mem.size_eq
    rw [hm] at hcur henough ⊢
    unfold PAGE_SIZE ARENA_SIZE at *
    omega
  generalize (k.mm.highWater + ARENA_SIZE - mem.size + PAGE_SIZE - 1) / PAGE_SIZE = p
    at hd henough hexact
  cases hg : mem.grow p with
  | none =>
    refine .inl ⟨?_, mmap_eq_full hm hv.1 hv.word hd hg⟩
    unfold LinearMemory.grow at hg
    split at hg
    · cases hg
    · rename_i hlimit
      have hsize := mem.size_eq
      have : (mem.maxPages + 1) * PAGE_SIZE ≤ (mem.pages + p) * PAGE_SIZE :=
        Nat.mul_le_mul_right _ (by omega)
      unfold PAGE_SIZE at *
      omega
  | some mem' =>
    have hsize := LinearMemory.grow_size hg
    have hfits := mem'.fits
    rw [(LinearMemory.grow_some hg).2.1] at hfits
    have hroom : k.mm.highWater + ARENA_SIZE ≤ mem'.size := hsize ▸ henough
    rw [mmap_eq_place hm hv.1 hv.word hd hg]
    unfold mmapPlace
    rw [mmap_fresh hv hnone hroom, Nat.mod_eq_of_lt hs.top]
    exact .inr ⟨hroom.trans hfits, rfl, rfl⟩

end

-- ---------------------------------------------------------------------------
-- The region in a new arena
-- ---------------------------------------------------------------------------

theorem munmap_placed {k' : Kernel} {mm : LinearAllocator} (hs : mm.Sane) (hn : 0 < n)
    (hle : n ≤ ARENA_SIZE) (hmm : k'.mm = mm.placeNext n) :
    ((munmap k' mm.highWater n).1 = 0 ↔ mm.highWater + ARENA_SIZE < 2 ^ 32) ∧
      (munmap k' mm.highWater n).2.mm.reserved =
        if mm.highWater + ARENA_SIZE < 2 ^ 32 then mm.reserved else mm.reserved + n := by
  have hsize : ARENA_SIZE < 2 ^ 32 := by decide
  have htop := hs.top
  have hfound := placeNext_munmap hs hn hle
  have hres : ((mm.placeNext n).munmap mm.highWater n).2.reserved = _ :=
    munmap_reserved hn (by omega)
  rw [munmap_eq hs.top (by omega) (Prod.eta (k'.mm.munmap mm.highWater n)).symm, hmm]
  refine ⟨hfound, ?_⟩
  simp only
  rw [hres, placeNext_reserved]
  simp only [hfound]
  split
  · omega
  · rfl

-- ---------------------------------------------------------------------------
-- One call
-- ---------------------------------------------------------------------------

section
variable {k : Kernel} {addr len prot flags fd off : Int}

theorem AsksToGrow.one (hs : k.mm.Sane) (h : AsksToGrow k len flags fd off) :
    CountsOne k (mmap k addr len prot flags fd off).2 (mmap k addr len prot flags fd off).1 len ∧
      ReservesOnce k (mmap k addr len prot flags fd off).2 (mmap k addr len prot flags fd off).1
        len prot flags fd off := by
  by_cases hreq : ∃ mem, ∃ n : Nat, k.memory = some (.owned mem) ∧ len = n ∧
      ValidRequest n (.ofInt 32 flags) fd off
  · obtain ⟨mem, n, hm, rfl, hv⟩ := hreq
    obtain ⟨hnone, hcur, hend⟩ := h mem n hm rfl hv
    rcases mmap_first_asks addr prot hs hm hv hnone hcur with
      ⟨-, hr⟩ | ⟨hmax, hr, hmm⟩
    · have hneg : ¬ (0 : Int) ≤ -ENOMEM := by decide
      rw [hr]
      exact ⟨⟨fun _ => rfl, fun h => absurd h hneg, fun h => absurd h hneg⟩,
        ⟨fun h => absurd h hneg, fun h => absurd h hneg⟩⟩
    · have hlt : k.mm.highWater + ARENA_SIZE < 2 ^ 32 := by omega
      obtain ⟨hfound, hres⟩ := munmap_placed hs hv.1 hv.2.1 hmm
      rw [if_pos hlt] at hres
      rw [hr]
      refine ⟨⟨fun h => by omega, fun _ => ?_, fun _ => ?_⟩, ⟨fun _ => ?_, fun _ => hfound.mpr hlt⟩⟩
      · rw [hmm, placeNext_reserved]
        omega
      · rw [hres]
        omega
      · rw [hmm]
        exact ⟨_, _, mmap_fresh hv hnone (Nat.le_refl _)⟩
  · push Not at hreq
    obtain ⟨hneg, hmm⟩ := mmap_refused addr prot hreq
    have hneg' := Int.not_le.mpr hneg
    exact ⟨⟨fun _ => hmm, fun h => absurd h hneg', fun h => absurd h hneg'⟩,
      ⟨fun h => absurd h hneg', fun h => absurd h hneg'⟩⟩

/-- After an address in the first answer the count is off, and two regions are reserved. -/
theorem mmap_leaks {n : Nat} (hs : k.mm.Sane) (hm : k.memory = some (.owned mem))
    (hv : ValidRequest n (.ofInt 32 flags) fd off)
    (hd : k.mm.mmap mem.size n (.ofInt 32 prot) (.ofInt 32 flags) fd off = (.ok a, mm₁))
    (hone : CountsOne k (mmap k addr n prot flags fd off).2 (mmap k addr n prot flags fd off).1 n) :
    n < 8 ∧ ¬ ReservesOnce k (mmap k addr n prot flags fd off).2
      (mmap k addr n prot flags fd off).1 n prot flags fd off := by
  have hpos := hv.1
  obtain ⟨hmore, ⟨b, mm₂, hres, hr, hmm, hmore'⟩ | ⟨hr, hmm⟩⟩ := mmap_first_ok hs hm hv hd
  · have hnonneg : 0 ≤ (mmap k addr n prot flags fd off).1 := by
      rw [hr]
      exact Int.natCast_nonneg b
    have hle := (hone.mapped hnonneg).2
    rw [hmm] at hle
    refine ⟨by omega, fun honce => ?_⟩
    obtain ⟨cur, c, hc⟩ := honce.once hnonneg
    rw [hmm] at hc
    have hsame := mmap_ok_unique hd hc
    rw [hsame] at hmore'
    omega
  · have hneg : (mmap k addr n prot flags fd off).1 < 0 := by
      rw [hr]
      decide
    have hsame := hone.failed hneg
    rw [hmm] at hsame
    rw [hsame] at hmore
    omega

theorem mmap_not_asks {n : Nat} (hs : k.mm.Sane) (hm : k.memory = some (.owned mem))
    (hv : ValidRequest n (.ofInt 32 flags) fd off)
    (hno : ¬ (allocFirst n 8 k.mm.arenas = none ∧ mem.size < k.mm.highWater + ARENA_SIZE ∧
        (k.mm.highWater + ARENA_SIZE < 2 ^ 32 ∨
          mem.maxPages * PAGE_SIZE < k.mm.highWater + ARENA_SIZE)))
    (hone : CountsOne k (mmap k addr n prot flags fd off).2 (mmap k addr n prot flags fd off).1 n) :
    n < 8 ∧ ¬ ReservesOnce k (mmap k addr n prot flags fd off).2
      (mmap k addr n prot flags fd off).1 n prot flags fd off := by
  cases ha : allocFirst n 8 k.mm.arenas with
  | some x => exact mmap_leaks hs hm hv (mmap_hit hv ha) hone
  | none =>
    by_cases hcur : mem.size < k.mm.highWater + ARENA_SIZE
    · rcases mmap_first_asks addr prot hs hm hv ha hcur with
        ⟨hmax, -⟩ | ⟨hmax, hr, hmm⟩
      · exact absurd ⟨ha, hcur, .inr hmax⟩ hno
      · -- the arena that ends at 4 GiB: `munmap` finds nothing
        have htop : ¬ k.mm.highWater + ARENA_SIZE < 2 ^ 32 := fun hlt => hno ⟨ha, hcur, .inl hlt⟩
        obtain ⟨hfound, hres⟩ := munmap_placed hs hv.1 hv.2.1 hmm
        rw [if_neg htop] at hres
        have hnonneg : 0 ≤ (mmap k addr n prot flags fd off).1 := by omega
        have hback := (hone.unmapped hnonneg).2
        rw [hr, hres] at hback
        refine ⟨by omega, fun honce => ?_⟩
        have hzero := honce.found hnonneg
        rw [hr] at hzero
        exact htop (hfound.mp hzero)
    · exact mmap_leaks hs hm hv (mmap_fresh hv ha (Nat.not_lt.mp hcur)) hone

end

theorem mmap_reserves_one_iff {s : Session}
    (h : Reaches Session.next (fun _ _ => True) Session.start s) (k : Kernel) (hk : k.mm = s.mm)
    (addr len prot flags fd off : Int) :
    (CountsOne k (mmap k addr len prot flags fd off).2 (mmap k addr len prot flags fd off).1 len ∧
        ReservesOnce k (mmap k addr len prot flags fd off).2 (mmap k addr len prot flags fd off).1
          len prot flags fd off ↔
      AsksToGrow k len flags fd off) ∧
    (8 ≤ len →
      (CountsOne k (mmap k addr len prot flags fd off).2 (mmap k addr len prot flags fd off).1 len ↔
        AsksToGrow k len flags fd off)) := by
  have hs : k.mm.Sane := hk ▸ Session.reaches_sane h
  have only (hone : CountsOne k (mmap k addr len prot flags fd off).2
        (mmap k addr len prot flags fd off).1 len)
      (hor : 8 ≤ len ∨ ReservesOnce k (mmap k addr len prot flags fd off).2
        (mmap k addr len prot flags fd off).1 len prot flags fd off) :
      AsksToGrow k len flags fd off := by
    rintro mem n hm rfl hv
    by_contra hno
    obtain ⟨hlt, honce⟩ := mmap_not_asks hs hm hv hno hone
    rcases hor with hle | hor
    · omega
    · exact honce hor
  refine ⟨⟨fun h => only h.1 (.inr h.2), fun h => h.one hs⟩, fun hle => ⟨fun h => ?_, fun h => ?_⟩⟩
  · exact only h (.inl hle)
  · exact (h.one hs).1

/-- A fresh allocator with memory for an arena reserves each region twice. -/
theorem reserves_twice_of_shows {k : Kernel} (h : Shows k .new 0x200000) :
    k.mm.reserved = 0 ∧ (map64.run k).1 = (0x100040 : Nat) ∧ (map64.run k).2.mm.reserved = 128 ∧
      (munmap (map64.run k).2 (0x100040 : Nat) (64 : Nat)).2.mm.reserved = 64 := by
  obtain ⟨hr, hmapped⟩ := Shows.map64 (s := .start k) 0x100000 0x100040 (oneArena 64 [])
    (oneArena 128 []) h (by decide) (by decide)
  have hrun : Shows (map64.run k).2 (oneArena 128 []) 0x200000 := hmapped
  obtain ⟨-, hfreed⟩ := hrun.munmap (a := 0x100040) (n := 64) (by decide) (by decide)
    (show (oneArena 128 []).munmap 0x100040 64 = (0, oneArena 128 [(64, 64)]) by decide)
  have hnew : LinearAllocator.new.reserved = 0 := by decide
  have hafter : (oneArena 128 []).reserved = 128 := by decide
  have hback : (oneArena 128 [(64, 64)]).reserved = 64 := by decide
  rw [h.allocator, hrun.allocator, hfreed.allocator]
  exact ⟨hnew, hr, hafter, hback⟩

/-- Mapping sixty-four bytes reserves twice as many, and unmapping them leaves
the other half. -/
theorem mmap_reserves_twice :
    ∃ s, Reaches Session.next (fun _ _ => True) Session.start s ∧ guestKernel.mm = s.mm ∧
      guestKernel.mm.reserved = 0 ∧ (map64.run guestKernel).1 = (0x100040 : Nat) ∧
      (map64.run guestKernel).2.mm.reserved = 128 ∧
      (munmap (map64.run guestKernel).2 (0x100040 : Nat) (64 : Nat)).2.mm.reserved = 64 ∧
      ¬ CountsOne guestKernel (map64.run guestKernel).2 (map64.run guestKernel).1 64 := by
  obtain ⟨hnew, hr, hafter, hback⟩ := reserves_twice_of_shows guestKernel_shows
  refine ⟨_, .start, guestKernel_shows.allocator, hnew, hr, hafter, hback, fun hone => ?_⟩
  have hle := (hone.mapped (by rw [hr]; exact Int.natCast_nonneg _)).2
  rw [hafter, hnew] at hle
  omega

theorem tight_le_limit : 16 ≤ 48 := by decide

theorem tightLimit_le_top : 48 ≤ 65536 := by decide

def tightMemory : LinearMemory := .filled 0 16 48 tight_le_limit tightLimit_le_top

theorem tightMemory_size : tightMemory.size = 0x100000 := LinearMemory.filled_size

def tightKernel : Kernel :=
  freshKernel [] [] { root := "/", cwd := "/" } (Vector.replicate 32 0) (some (.owned tightMemory))

theorem mmap_reserves_one_iff_tight :
    AsksToGrow tightKernel 64 0x22 (-1) 0 ∧
    CountsOne tightKernel (mmap tightKernel 0 64 3 0x22 (-1) 0).2
      (mmap tightKernel 0 64 3 0x22 (-1) 0).1 64 := by
  have hasks : AsksToGrow tightKernel 64 0x22 (-1) 0 := by
    intro mem n hm hn _
    obtain rfl : n = 64 := by omega
    have hmem : tightMemory = mem := MemoryKind.owned.inj (Option.some.inj hm)
    rw [← hmem, tightMemory_size]
    exact ⟨rfl, by decide, .inl (by decide)⟩
  exact ⟨hasks, ((mmap_reserves_one_iff .start tightKernel rfl 0 64 3 0x22 (-1) 0).1.mpr hasks).1⟩

end EdgeLibos.Sys
