import EdgeLibos.Snapshot.Fixpoint
import EdgeLibos.Snapshot.MemoryRestore
import EdgeLibos.Sys.MemoryRuns

/-!
# The allocator in a restored memory

The arenas come from one part of the snapshot and the size of memory from
another, the highest page that is not all zero. While every arena lies inside
memory, whatever the guest calls, each address `mmap` returns is inside memory
and zeroed. A restore brings that about exactly when the target, or a page of
the source that is not all zero, reaches as far as the allocator does.
-/

namespace EdgeLibos

open Lib Mm Snapshot

-- ---------------------------------------------------------------------------
-- Arenas inside memory
-- ---------------------------------------------------------------------------

namespace Mm

def LinearAllocator.Within (mm : LinearAllocator) (size : Nat) : Prop :=
  ∀ a ∈ mm.arenas, a.Bounded ∧ a.base + ARENA_SIZE ≤ size

namespace LinearAllocator.Within

theorem mono {mm : LinearAllocator} (h : mm.Within size) (hle : size ≤ size') : mm.Within size' :=
  fun a ha => ⟨(h a ha).1, (h a ha).2.trans hle⟩

theorem replace {mm : LinearAllocator} (h : mm.Within size) (hl : mm.arenas = pre ++ a :: post)
    (hb : a'.Bounded) (hbase : a'.base = a.base) :
    LinearAllocator.Within { mm with arenas := pre ++ a' :: post } size := by
  have ha := h a (by simp [hl])
  unfold Within at h ⊢
  rw [hl] at h
  exact forall_mem_replace h ⟨hb, hbase ▸ ha.2⟩

theorem head {mm : LinearAllocator} (h : mm.Within size) (hl : mm.arenas = pre ++ a :: post) :
    a.Bounded ∧ a.base + ARENA_SIZE ≤ size := h a (by simp [hl])

theorem mmap {mm : LinearAllocator} (h : mm.Within cur) (hcur : cur ≤ 2 ^ 32)
    (hr : mm.mmap cur len prot flags fd off = (r, mm')) :
    mm'.Within cur ∧ ∀ addr, r = .ok addr → addr + len ≤ cur := by
  rcases LinearAllocator.mmap_cases hr with ⟨addr, pre, a, a', post, rfl, hpos, -, hl, ha, rfl⟩ |
    ⟨rfl, hpos, hlen, -, hroom, rfl⟩ | ⟨hno, rfl⟩
  · obtain ⟨hb, hend⟩ := h.head hl
    obtain ⟨hb', o, rfl, -, ho⟩ := Arena.alloc_bounded hb ha
    refine ⟨h.replace hl hb' (Arena.alloc_base ha), ?_⟩
    rintro _ ⟨⟩
    rw [Nat.mod_eq_of_lt (by omega)]
    omega
  · refine ⟨?_, ?_⟩
    · exact List.forall_mem_append.mpr
        ⟨h, List.forall_mem_singleton.mpr ⟨⟨hlen, by simp⟩, hroom⟩⟩
    · rintro _ ⟨⟩
      have : ARENA_SIZE = 262144 := rfl
      rw [Nat.mod_eq_of_lt (by omega)]
      omega
  · exact ⟨h, fun addr heq => absurd heq (hno addr)⟩

theorem munmap {mm : LinearAllocator} (h : mm.Within size)
    (hr : mm.munmap addr len = (r, mm')) : mm'.Within size := by
  rcases LinearAllocator.munmap_cases hr with ⟨pre, a, post, -, -, hl, -, rfl⟩ | ⟨-, rfl⟩
  · exact h.replace hl (Arena.free_bounded (h.head hl).1 ..) (Arena.free_base ..)
  · exact h

theorem growInPlace {mm : LinearAllocator} (h : mm.Within size)
    (hr : mm.growInPlace old oldLen newLen = (r, mm')) : mm'.Within size := by
  rcases LinearAllocator.growInPlace_cases hr with ⟨pre, a, post, -, -, hl, -, -, hle, rfl⟩ | ⟨-, rfl⟩
  · exact h.replace hl ⟨hle, (h.head hl).1.inside⟩ rfl
  · exact h

end LinearAllocator.Within

end Mm

namespace Sys

/-- The arenas lie inside the memory the system calls work on. -/
def ArenasWithin (k : Kernel) : Prop := ∀ mem, k.memory = some (.owned mem) → k.mm.Within mem.size

def ZeroedAt (k : Kernel) (start len : Nat) : Prop :=
  ∃ mem, k.memory = some (.owned mem) ∧ start + len ≤ mem.size ∧
    ∀ i < len, mem.data[start + i]? = some 0

theorem zeroFill_zeroed (mem : LinearMemory) (h : start + len ≤ mem.size) (hi : i < len) :
    (zeroFill mem start len).data[start + i]? = some 0 := by
  rw [zeroFill_data mem h, LinearMemory.splice_getElem? (by rw [List.length_replicate]; exact h),
    if_pos (by rw [List.length_replicate]; omega), Nat.add_sub_cancel_left,
    List.getElem?_replicate, if_pos hi]

theorem ArenasWithin.mmap {k k' : Kernel} (h : ArenasWithin k)
    (hr : Sys.mmap k addr len prot flags fd off = (r, k')) :
    ArenasWithin k' ∧ (0 ≤ r → ZeroedAt k' r.toNat len.toNat) := by
  rcases mmap_cases hr with ⟨hneg, rfl⟩ | ⟨n, mem, mem', d, res, mm₁, mm₂, rfl, hn, hmem, hd, hg, hp,
    ⟨a, rfl, rfl, rfl⟩ | ⟨hno, hneg, rfl⟩⟩
  · exact ⟨h, fun h0 => by omega⟩
  · have h₁ := ((h mem hmem).mmap mem.size_le hd).1.mono (growFor_size hg).1
    obtain ⟨h₂, hin⟩ := h₁.mmap mem'.size_le hp
    refine ⟨?_, fun _ => ⟨_, rfl, ?_, fun i hi => ?_⟩⟩
    · rintro _ ⟨⟩
      exact (zeroFill_size ..).symm ▸ h₂
    · rw [zeroFill_size]
      exact hin a rfl
    · exact zeroFill_zeroed mem' (hin a rfl) hi
  · have h₁ := ((h mem hmem).mmap mem.size_le hd).1.mono (growFor_size hg).1
    refine ⟨?_, fun h0 => by omega⟩
    rintro _ ⟨⟩
    exact (h₁.mmap mem'.size_le hp).1

theorem ArenasWithin.munmap {k k' : Kernel} (h : ArenasWithin k)
    (hr : Sys.munmap k addr len = (r, k')) : ArenasWithin k' := by
  rcases munmap_cases hr with ⟨-, rfl⟩ | ⟨a, n, mm', -, -, hm, rfl⟩
  · exact h
  · exact fun mem hmem => (h mem hmem).munmap hm

theorem ArenasWithin.mremap {k k' : Kernel} (h : ArenasWithin k)
    (hr : Sys.mremap k old oldLen newLen flags newAddr = (r, k')) : ArenasWithin k' := by
  rcases mremap_cases hr with ⟨-, rfl⟩ | ⟨o, n, n', -, -, -, -, -, ⟨-, rfl⟩ | ⟨-, -, addr, mm', hm, rfl⟩⟩
  · exact h
  · exact h
  · exact fun mem hmem => (h mem hmem).growInPlace hm

theorem ArenasWithin.step {k k' : Kernel} (h : ArenasWithin k) (c : MemCall)
    (hr : c.run k = (r, k')) : ArenasWithin k' := by
  cases c with
  | mmap addr len prot flags fd off =>
    have hr : Sys.mmap k addr len prot flags fd off = (r, k') := hr
    exact (h.mmap hr).1
  | munmap addr len => exact h.munmap hr
  | mremap old oldLen newLen flags newAddr => exact h.mremap hr

def nextKernel (k : Kernel) (c : MemCall) : Option Kernel := some (c.run k).2

theorem ArenasWithin.reaches {k k' : Kernel} (h : ArenasWithin k)
    (hr : Reaches nextKernel (fun _ _ => True) k k') : ArenasWithin k' := by
  refine hr.invariant h fun s c s' hs _ hn => ?_
  obtain rfl := Option.some.inj hn
  exact hs.step c (r := (c.run s).1) rfl

theorem run_owned {k k' : Kernel} (c : MemCall) (hm : k.memory = some (.owned mem))
    (hr : c.run k = (r, k')) : ∃ mem', k'.memory = some (.owned mem') := by
  cases c with
  | mmap addr len prot flags fd off =>
    have hr : Sys.mmap k addr len prot flags fd off = (r, k') := hr
    rcases mmap_cases hr with ⟨-, rfl⟩ | ⟨_, _, _, _, _, _, _, -, -, -, -, -, -,
      ⟨_, -, -, rfl⟩ | ⟨-, -, rfl⟩⟩
    · exact ⟨mem, hm⟩
    · exact ⟨_, rfl⟩
    · exact ⟨_, rfl⟩
  | munmap addr len =>
    rcases munmap_cases hr with ⟨-, rfl⟩ | ⟨_, _, _, -, -, -, rfl⟩
    · exact ⟨mem, hm⟩
    · exact ⟨mem, hm⟩
  | mremap old oldLen newLen flags newAddr =>
    rcases mremap_cases hr with ⟨-, rfl⟩ | ⟨_, _, _, -, -, -, -, -, ⟨-, rfl⟩ | ⟨-, -, _, _, -, rfl⟩⟩
    · exact ⟨mem, hm⟩
    · exact ⟨mem, hm⟩
    · exact ⟨mem, hm⟩

/-- Whatever the guest calls, every arena stays bounded and inside memory. -/
theorem guest_arenas_within
    (h : Reaches nextKernel (fun _ _ => True) (freshKernel args env vfs seed (some (.owned mem))) k) :
    ∃ mem', k.memory = some (.owned mem') ∧ k.mm.Within mem'.size := by
  have hinv : (∃ mem', k.memory = some (.owned mem')) ∧ ArenasWithin k := by
    refine h.invariant (I := fun k => (∃ mem', k.memory = some (.owned mem')) ∧ ArenasWithin k)
      ⟨⟨mem, rfl⟩, fun _ _ a ha => ?_⟩ ?_
    · simp [freshKernel, Kernel.new, LinearAllocator.new] at ha
    · rintro s c s' ⟨⟨mem', hm⟩, hw⟩ - hn
      obtain rfl := Option.some.inj hn
      exact ⟨run_owned c hm (r := (c.run s).1) rfl, hw.step c (r := (c.run s).1) rfl⟩
  obtain ⟨⟨mem', hm⟩, hw⟩ := hinv
  exact ⟨mem', hm, hw mem' hm⟩

end Sys

-- ---------------------------------------------------------------------------
-- The whole restore
-- ---------------------------------------------------------------------------

namespace Snapshot

open Errno Sys

def dispatchMemoryApply (snap : KernelSnapshot) (kernel : Kernel) : Except SnapshotError Kernel :=
  if snap.pages.isEmpty then .ok kernel
  else
    match kernel.memory with
    | none =>
      .error (.ioError (.other ("memory not attached: errno=" ++ toString (-EFAULT)))
        "kernel.memory_kind()")
    | some (.owned mem) => do
      let mem ← applySnapshotToMemory snap mem
      .ok { kernel with memory := some (.owned mem) }
    | some (.shared mem) => do
      let mem ← applySnapshotToSharedMemory snap mem
      .ok { kernel with memory := some (.shared mem) }

def applySnapshot (host : Host) (snap : KernelSnapshot) (kernel : Kernel) :
    Except SnapshotError Kernel := do
  let kernel ← applySnapshotKernelState host snap kernel
  dispatchMemoryApply snap kernel

theorem dispatchMemoryApply_ok {source : LinearMemory} {target : MemoryKind} {k k' : Kernel}
    (hp : snap.pages = collectPages source.data) (hm : k.memory = some target)
    (h : dispatchMemoryApply snap k = .ok k') :
    ∃ m, k' = { k with memory := some m } ∧ Restored source target.mem m.mem := by
  unfold dispatchMemoryApply at h
  split at h
  · rename_i hempty
    cases h
    rw [hp] at hempty
    exact ⟨target, by rw [← hm], restored_of_isEmpty hempty _⟩
  · rw [hm] at h
    cases target with
    | owned mem =>
      obtain ⟨m, hr, h⟩ := bind_ok h
      cases h
      exact ⟨.owned m, rfl, applySnapshotToMemory_ok hp hr⟩
    | shared mem =>
      obtain ⟨m, hr, h⟩ := bind_ok h
      cases h
      exact ⟨.shared m, rfl, applySnapshotToSharedMemory_ok hp hr⟩

theorem applySnapshot_of_isEmpty (h : applySnapshotKernelState host snap t = .ok k')
    (hp : snap.pages = []) : applySnapshot host snap t = .ok k' := by
  simp only [applySnapshot, h, dispatchMemoryApply, hp, List.isEmpty_nil, if_true, bind, Except.bind]

theorem applySnapshot_ok {source : LinearMemory} {target : MemoryKind} {k t k' : Kernel}
    (hm : t.memory = some target)
    (h : applySnapshot host (buildKernelSnapshot k (collectPages source.data)) t = .ok k') :
    k'.mm = k.mm ∧ ∃ m, k'.memory = some m ∧ Restored source target.mem m.mem := by
  obtain ⟨k₁, hk₁, h⟩ := bind_ok h
  obtain ⟨-, fds, cells, -, heq⟩ := applySnapshotKernelState_eq_ok.mp hk₁
  have hm₁ : k₁.memory = some target := heq ▸ hm
  have hmm : k₁.mm = k.mm := heq ▸ rfl
  obtain ⟨m, rfl, hr⟩ := dispatchMemoryApply_ok rfl hm₁ h
  exact ⟨hmm, m, rfl, hr⟩

-- ---------------------------------------------------------------------------
-- How far the restored memory reaches
-- ---------------------------------------------------------------------------

/-- The target, or the end of a page of the source that is not all zero. -/
def ReachesTo (source target : LinearMemory) (e : Nat) : Prop :=
  e ≤ target.size ∨ ∃ i, source.NonZero i ∧ e ≤ (i + 1) * PAGE_SIZE

theorem Restored.le_size_iff (h : Restored source target m) :
    e ≤ m.size ↔ ReachesTo source target e := by
  rw [ReachesTo, m.size_eq, target.size_eq]
  constructor
  · intro he
    rcases h.pages_eq with hp | ⟨i, hi, hp⟩
    · exact .inl (hp ▸ he)
    · exact .inr ⟨i, hi, hp ▸ he⟩
  · rintro (he | ⟨i, hi, he⟩)
    · exact he.trans (Nat.mul_le_mul_right _ h.target_le)
    · exact he.trans (Nat.mul_le_mul_right _ (h.lt_pages i hi))

def memorySize (k : Kernel) : Nat := (k.memory.map (·.mem.size)).getD 0

/-- The allocator lies inside memory, and so does every range a later `mmap`
returns, zeroed. -/
structure AllocatorInside (k : Kernel) : Prop where
  highWater : k.mm.highWater ≤ memorySize k
  arenas : ∀ a ∈ k.mm.arenas, a.base + ARENA_SIZE ≤ memorySize k
  zeroed : ∀ k₁, Reaches nextKernel (fun _ _ => True) k k₁ →
    ∀ addr len prot flags fd off r k₂, Sys.mmap k₁ addr len prot flags fd off = (r, k₂) → 0 ≤ r →
      ZeroedAt k₂ r.toNat len.toNat

theorem allocatorInside_iff (host : Host) (k t k' : Kernel) (source : LinearMemory)
    (target : MemoryKind) (hb : ∀ a ∈ k.mm.arenas, a.Bounded) (hm : t.memory = some target)
    (h : applySnapshot host (buildKernelSnapshot k (collectPages source.data)) t = .ok k') :
    AllocatorInside k' ↔
      ReachesTo source target.mem k.mm.highWater ∧
        ∀ a ∈ k.mm.arenas, ReachesTo source target.mem (a.base + ARENA_SIZE) := by
  obtain ⟨hmm, m, hmem, hr⟩ := applySnapshot_ok hm h
  have hsize : memorySize k' = m.mem.size := by simp [memorySize, hmem]
  constructor
  · intro hin
    have hhw := hin.highWater
    have harenas := hin.arenas
    rw [hmm, hsize] at hhw
    rw [hmm, hsize] at harenas
    exact ⟨hr.le_size_iff.mp hhw, fun a ha => hr.le_size_iff.mp (harenas a ha)⟩
  · rintro ⟨hhw, harenas⟩
    have hwithin : ArenasWithin k' := by
      intro mem hown a ha
      rw [hmm] at ha
      refine ⟨hb a ha, ?_⟩
      obtain rfl : m = .owned mem := Option.some.inj (hmem.symm.trans hown)
      exact hr.le_size_iff.mpr (harenas a ha)
    refine ⟨?_, ?_, ?_⟩
    · rw [hmm, hsize]
      exact hr.le_size_iff.mpr hhw
    · rw [hmm, hsize]
      exact fun a ha => hr.le_size_iff.mpr (harenas a ha)
    · intro k₁ hrun addr len prot flags fd off r k₂ hmap h0
      exact ((hwithin.reaches hrun).mmap hmap).2 h0

-- ---------------------------------------------------------------------------
-- A mapping the guest had not written to yet
-- ---------------------------------------------------------------------------

theorem limit_le_top : 64 ≤ 65536 := by decide

theorem mapped_le_limit : 20 ≤ 64 := by decide

def zeroedKernel (pages : Nat) (h : pages ≤ 64) : Kernel :=
  freshKernel [] [] { root := "/", cwd := "/" } (Vector.replicate 32 0)
    (some (.owned (.filled 0 pages 64 h limit_le_top)))

/-- After one `mmap` of sixty-four bytes, for which memory grew to 20 pages. -/
def mappedKernel : Kernel := { zeroedKernel 20 mapped_le_limit with mm := oneArena 64 [] }

def mappedMemory : LinearMemory := .filled 0 20 64 mapped_le_limit limit_le_top

theorem mappedMemory_zero (i : Nat) : ¬ mappedMemory.NonZero i := by
  rintro ⟨hi, hz⟩
  rw [mappedMemory, LinearMemory.filled_page (Nat.lt_of_lt_of_eq hi LinearMemory.filled_pages),
    isZeroPage_replicate] at hz
  cases hz

/-- Onto any memory, the restore keeps the memory and takes the allocator. -/
theorem restore_mapped (pages : Nat) (h : pages ≤ 64) :
    ∃ k', applySnapshot refusingHost (buildKernelSnapshot mappedKernel (collectPages mappedMemory.data))
        (zeroedKernel pages h) = .ok k' ∧
      Shows k' (oneArena 64 []) (pages * PAGE_SIZE) := by
  obtain ⟨fds, cells, -, happly⟩ := applySnapshotKernelState_inKernel refusingHost mappedKernel
    (zeroedKernel pages h) (collectPages mappedMemory.data) (by decide)
  have hnone : collectPages mappedMemory.data = [] := by
    refine List.eq_nil_iff_forall_not_mem.mpr fun p hp => ?_
    obtain ⟨i, hi, -⟩ := mem_collectPages.mp hp
    exact mappedMemory_zero i hi
  exact ⟨_, applySnapshot_of_isEmpty happly ((buildKernelSnapshot_pages ..).trans hnone), rfl, _, rfl,
    LinearMemory.filled_size⟩

/-- Onto sixteen pages: the arena lies beyond memory, and the next `mmap`
returns an address there. -/
theorem untouched_mapping_left_outside :
    ∃ k', applySnapshot refusingHost
        (buildKernelSnapshot mappedKernel (collectPages mappedMemory.data))
        (zeroedKernel 16 (by decide)) = .ok k' ∧
      mappedKernel.mm.highWater ≤ mappedMemory.size ∧
      memorySize k' < k'.mm.highWater ∧
      memorySize k' ≤ (map64.run k').1 ∧ ¬ AllocatorInside k' := by
  obtain ⟨k', happly, hshows⟩ := restore_mapped 16 (by decide)
  have hsize : memorySize k' = 0x100000 := by
    obtain ⟨mem, hmem, hlen⟩ := hshows.memory
    simp [memorySize, hmem, MemoryKind.mem, hlen, PAGE_SIZE]
  have hhw : k'.mm.highWater = 0x140000 := by rw [hshows.allocator]; rfl
  have hfirst : (oneArena 64 []).mmap (16 * PAGE_SIZE) 64 (.ofInt 32 3) (.ofInt 32 0x22) (-1) 0 =
      (.ok 0x100040, oneArena 128 []) := by decide
  have hsecond : (oneArena 128 []).mmap (16 * PAGE_SIZE) 64 (.ofInt 32 3) (.ofInt 32 0x22) (-1) 0 =
      (.ok 0x100080, oneArena 192 []) := by decide
  have hmap : (Sys.mmap k' 0 (64 : Nat) 3 0x22 (-1) 0).1 = (0x100080 : Nat) :=
    (hshows.mmap (by decide) (by decide) hfirst hsecond).1
  refine ⟨k', happly, ?_, by omega, ?_, fun hin => ?_⟩
  · rw [mappedMemory, LinearMemory.filled_size]
    decide
  · rw [map64_run, hsize]
    exact hmap ▸ (by decide)
  · have := hin.highWater
    omega

/-- Onto twenty pages the same snapshot is restored inside memory. -/
theorem allocatorInside_iff_mapped :
    ∃ k', applySnapshot refusingHost
        (buildKernelSnapshot mappedKernel (collectPages mappedMemory.data))
        (zeroedKernel 20 (by decide)) = .ok k' ∧
      (AllocatorInside k' ↔
        ReachesTo mappedMemory mappedMemory mappedKernel.mm.highWater ∧
          ∀ a ∈ mappedKernel.mm.arenas, ReachesTo mappedMemory mappedMemory (a.base + ARENA_SIZE)) := by
  obtain ⟨k', happly, -⟩ := restore_mapped 20 (by decide)
  refine ⟨k', happly, ?_⟩
  exact allocatorInside_iff refusingHost mappedKernel (zeroedKernel 20 (by decide)) k' mappedMemory
    (.owned mappedMemory) (by rintro a (_ | ⟨_, ⟨⟩⟩); exact ⟨by decide, by simp⟩) rfl happly

end Snapshot

end EdgeLibos
