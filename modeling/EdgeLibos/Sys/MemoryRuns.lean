import EdgeLibos.Lib.Runs
import EdgeLibos.Mm.Addressing
import EdgeLibos.Sys.Memory

/-!
# Runs of memory system calls

A guest makes any calls with any words. `live` are the bytes that some `mmap`
returned and no `munmap` has covered since. A run keeps the arena invariant,
and never returns a live byte twice, as long as each `munmap` frees bytes that
are below the bump pointer and in no hole, and no `mmap` places the arena that
ends at 4 GiB, where the 32-bit mark wraps. The source checks neither.
-/

namespace EdgeLibos.Sys

open Lib Mm

inductive MemCall
  | mmap (addr len prot flags fd off : Int)
  | munmap (addr len : Int)
  | mremap (old oldLen newLen flags newAddr : Int)

def MemCall.run (k : Kernel) : MemCall → Int × Kernel
  | .mmap addr len prot flags fd off => Sys.mmap k addr len prot flags fd off
  | .munmap addr len => Sys.munmap k addr len
  | .mremap old oldLen newLen flags newAddr => Sys.mremap k old oldLen newLen flags newAddr

structure GuestRun where
  kernel : Kernel
  live : Set Nat

namespace GuestRun

/-- The call's range leaves or joins the live bytes when the call succeeds. -/
def liveAfter (s : GuestRun) (c : MemCall) : Set Nat :=
  let r := (c.run s.kernel).1
  match c with
  | .mmap _ len .. => if 0 ≤ r then s.live ∪ Set.Ico r.toNat (r.toNat + len.toNat) else s.live
  | .munmap addr len => if r = 0 then s.live \ Set.Ico addr.toNat (addr.toNat + len.toNat) else s.live
  | .mremap .. => s.live

def after (s : GuestRun) (c : MemCall) : GuestRun :=
  { kernel := (c.run s.kernel).2, live := s.liveAfter c }

def next (s : GuestRun) (c : MemCall) : Option GuestRun := some (s.after c)

def start (k : Kernel) : GuestRun := { kernel := k, live := ∅ }

end GuestRun

/-- How many arenas a request takes that is made twice with memory to spare. -/
def arenasTaken (n : Nat) (l : List Arena) : Nat :=
  match allocFirst n 8 l with
  | some (_, l') => if (allocFirst n 8 l').isNone then 1 else 0
  | none => if alignUp n 8 + n ≤ ARENA_SIZE then 1 else 2

/-- A supported request does not place the arena that ends at 4 GiB. With less
memory than that, it would have to grow memory to the full size for it. -/
def BelowTop (k : Kernel) (len flags fd off : Int) : Prop :=
  ∀ mem, ∀ n : Nat, k.memory = some (.owned mem) → len = n →
    ValidRequest n (.ofInt 32 flags) fd off →
      (mem.size < 2 ^ 32 → k.mm.highWater + ARENA_SIZE < 2 ^ 32 ∨ mem.maxPages < 65536 ∨
        allocFirst n 8 k.mm.arenas ≠ none) ∧
      (mem.size = 2 ^ 32 →
        k.mm.highWater + arenasTaken n k.mm.arenas * ARENA_SIZE < 2 ^ 32)

def GuestRun.Fits (s : GuestRun) : MemCall → Prop
  | .mmap _ len _ flags fd off => BelowTop s.kernel len flags fd off
  | .munmap addr len => s.kernel.mm.Unmappable addr.toNat len.toNat
  | .mremap .. => True

-- ---------------------------------------------------------------------------
-- The high-water mark does not wrap
-- ---------------------------------------------------------------------------

theorem allocFirst_append (h : allocFirst len align l = none) (l' : List Arena) :
    allocFirst len align (l ++ l') = (allocFirst len align l').map fun x => (x.1, l ++ x.2) := by
  induction l with
  | nil => simp
  | cons a rest ih =>
    unfold allocFirst at h
    split at h
    · cases h
    · rename_i ha
      have hrest := Option.map_eq_none_iff.mp h
      rw [List.cons_append, allocFirst, ha]
      simp only [ih hrest, Option.map_map]
      rfl

/-- The arena just placed for a request has room for it again, or it has not. -/
theorem allocFirst_placeNext {mm : LinearAllocator} (h : allocFirst n 8 mm.arenas = none) :
    allocFirst n 8 (mm.placeNext n).arenas = none ↔ ARENA_SIZE < alignUp n 8 + n := by
  have hone (a : Arena) : allocFirst n 8 [a] = none ↔ a.alloc n 8 = none := by
    unfold allocFirst
    cases a.alloc n 8 with
    | none => simp [allocFirst]
    | some x => simp
  rw [LinearAllocator.placeNext, allocFirst_append h, Option.map_eq_none_iff, hone,
    Arena.alloc_none_iff]
  simp

theorem arenasTaken_pos (h : allocFirst n 8 l = none) :
    arenasTaken n l = if alignUp n 8 + n ≤ ARENA_SIZE then 1 else 2 := by
  unfold arenasTaken
  rw [h]

theorem arenasTaken_hit (h : allocFirst n 8 l = some (a, l')) :
    arenasTaken n l = if (allocFirst n 8 l').isNone then 1 else 0 := by
  unfold arenasTaken
  rw [h]

section
variable {k : Kernel} {mem mem' : LinearMemory} {n : Nat} {prot flags fd off : Int}
  {d : MmapResult} {mm₁ : LinearAllocator}

theorem BelowTop.first (h : BelowTop k n flags fd off) (hm : k.memory = some (.owned mem))
    (hv : ValidRequest n (.ofInt 32 flags) fd off) : k.mm.PlacesBelowTop mem.size n := by
  intro hnone hcur
  obtain ⟨-, hfull⟩ := h mem n hm rfl hv
  have hsize := mem.size_le
  by_cases heq : mem.size = 2 ^ 32
  · have hlt := hfull heq
    rw [arenasTaken_pos hnone] at hlt
    split at hlt
    · omega
    · omega
  · omega

theorem BelowTop.second (h : BelowTop k n flags fd off) (hm : k.memory = some (.owned mem))
    (hv : ValidRequest n (.ofInt 32 flags) fd off)
    (hd : k.mm.mmap mem.size n (.ofInt 32 prot) (.ofInt 32 flags) fd off = (d, mm₁))
    (hg : growFor d mem = some mem') : mm₁.PlacesBelowTop mem'.size n := by
  intro hnone₁ hcur₁
  have hfirst := h.first hm hv
  obtain ⟨hgrow, hfull⟩ := h mem n hm rfl hv
  have hsize := mem.size_le
  cases d with
  | err e => exact absurd (congrArg Prod.fst hd) (mmap_not_err hv e)
  | ok a =>
    obtain rfl := Option.some.inj hg
    by_cases heq : mem.size = 2 ^ 32
    · have hlt := hfull heq
      rcases mmap_answered hd with ⟨l, hsome, rfl⟩ | ⟨hnone, hcur, -, rfl⟩
      · rw [arenasTaken_hit hsome, if_pos (by simp [hnone₁])] at hlt
        simpa using hlt
      · have hmark : (k.mm.placeNext n).highWater = k.mm.highWater + ARENA_SIZE :=
          Nat.mod_eq_of_lt (hfirst hnone hcur)
        have htight := (allocFirst_placeNext hnone).mp hnone₁
        rw [arenasTaken_pos hnone, if_neg (Nat.not_le.mpr htight)] at hlt
        rw [hmark]
        omega
    · omega
  | needGrow p =>
    obtain ⟨hnone, hcur, -, rfl⟩ := mmap_needGrow hv hd
    have hmax : mem'.maxPages = mem.maxPages := (growFor_size hg).2
    have hfits := mem'.fits
    by_contra hge
    have hsmall : mem.size < 2 ^ 32 := by
      have hle := mem'.size_le
      omega
    rcases hgrow hsmall with hlt | hlt | hlt
    · exact hge hlt
    · rw [hmax] at hfits
      simp only [LinearMemory.size, PAGE_SIZE] at hcur₁ hfits
      omega
    · exact hlt hnone

end

-- ---------------------------------------------------------------------------
-- The invariant
-- ---------------------------------------------------------------------------

structure GuestRun.Inv (s : GuestRun) : Prop where
  mm : s.kernel.mm.Ok
  live : s.live ⊆ s.kernel.mm.handedOut

/-- One allocator call, whatever it answers: the invariant stays, nothing is
taken back, and an address it answers was free. -/
theorem mmap_keeps {mm : LinearAllocator} (h : mm.Ok)
    (hroom : ValidRequest len flags fd off → mm.PlacesBelowTop cur len)
    (hr : mm.mmap cur len prot flags fd off = (res, mm')) :
    mm'.Ok ∧ mm.handedOut ⊆ mm'.handedOut ∧
      ∀ a, res = .ok a → Disjoint (Set.Ico a (a + len)) mm.handedOut ∧
        Set.Ico a (a + len) ⊆ mm'.handedOut := by
  by_cases hres : ∃ a, res = .ok a
  · obtain ⟨a, rfl⟩ := hres
    obtain ⟨hok, -, -, -, hdis, hsub, -⟩ := LinearAllocator.mmap_ok h (hroom (mmap_ok_valid hr)) hr
    refine ⟨hok, Set.subset_union_left.trans hsub, ?_⟩
    rintro b hb
    obtain rfl := MmapResult.ok.inj hb
    exact ⟨hdis, Set.subset_union_right.trans hsub⟩
  · have hno : ∀ a, res ≠ .ok a := fun a ha => hres ⟨a, ha⟩
    obtain rfl := LinearAllocator.mmap_not_ok hr hno
    exact ⟨h, subset_rfl, fun a ha => absurd ha (hno a)⟩

theorem GuestRun.Inv.mmap {s : GuestRun} (h : s.Inv) (hf : BelowTop s.kernel len flags fd off)
    (hr : Sys.mmap s.kernel addr len prot flags fd off = (r, k')) :
    k'.mm.Ok ∧ s.live ⊆ k'.mm.handedOut ∧
      (0 ≤ r → Disjoint (Set.Ico r.toNat (r.toNat + len.toNat)) s.live ∧
        Set.Ico r.toNat (r.toNat + len.toNat) ⊆ k'.mm.handedOut) := by
  rcases mmap_cases hr with ⟨hneg, rfl⟩ |
    ⟨n, mem, mem', d, res, mm₁, mm₂, rfl, hpos, hm, hd, hg, hres, hcase⟩
  · exact ⟨h.mm, h.live, fun hr => by omega⟩
  · obtain ⟨hok₁, hsub₁, -⟩ := mmap_keeps h.mm (hf.first hm) hd
    obtain ⟨hok₂, hsub₂, hnew⟩ := mmap_keeps hok₁ (fun hv => hf.second hm hv hd hg) hres
    have hlive := h.live.trans hsub₁
    rcases hcase with ⟨a, rfl, rfl, rfl⟩ | ⟨hno, hneg, rfl⟩
    · obtain ⟨hdis, hin⟩ := hnew a rfl
      exact ⟨hok₂, hlive.trans hsub₂, fun _ => ⟨hdis.mono_right hlive, hin⟩⟩
    · exact ⟨hok₂, hlive.trans hsub₂, fun hr => by omega⟩

theorem GuestRun.Inv.step {s s' : GuestRun} (h : s.Inv) (hf : s.Fits c)
    (hn : s.next c = some s') : s'.Inv := by
  obtain rfl := Option.some.inj hn
  cases c with
  | mmap addr len prot flags fd off =>
    cases hr : Sys.mmap s.kernel addr len prot flags fd off with
    | mk r k' =>
      obtain ⟨hok, hlive, hnew⟩ := h.mmap hf hr
      refine ⟨by simpa only [GuestRun.after, MemCall.run, hr] using hok, ?_⟩
      simp only [GuestRun.after, GuestRun.liveAfter, MemCall.run, hr]
      split
      · rename_i hpos
        exact Set.union_subset hlive (hnew hpos).2
      · exact hlive
  | munmap addr len =>
    cases hr : Sys.munmap s.kernel addr len with
    | mk r k' =>
      simp only [GuestRun.after, GuestRun.liveAfter, MemCall.run, hr]
      rcases munmap_cases hr with ⟨hneg, rfl⟩ | ⟨a, n, mm', rfl, rfl, hmm, rfl⟩
      · rw [if_neg (by omega)]
        exact h
      · obtain ⟨hok, hsub, hsame, -⟩ := LinearAllocator.munmap_ok h.mm hf hmm
        refine ⟨hok, ?_⟩
        simp only
        split
        · exact (Set.sdiff_subset_sdiff_left h.live).trans hsub
        · rename_i hne
          rw [hsame hne]
          exact h.live
  | mremap old oldLen newLen flags newAddr =>
    cases hr : Sys.mremap s.kernel old oldLen newLen flags newAddr with
    | mk r k' =>
      simp only [GuestRun.after, GuestRun.liveAfter, MemCall.run, hr]
      rcases mremap_cases hr with ⟨-, rfl⟩ |
        ⟨o, n, n', -, -, -, -, -, ⟨-, rfl⟩ | ⟨-, hfits, addr, mm', hg, rfl⟩⟩
      · exact h
      · exact h
      · have hfits := hfits fun a ha => (h.mm.arenas a ha).used_le
        obtain ⟨hok, -, -, hgood⟩ := LinearAllocator.growInPlace_ok h.mm hfits hg
        exact ⟨hok, h.live.trans (Set.subset_union_left.trans (hgood addr rfl).2)⟩

def freshKernel (args : List String) (env : List (String × String)) (vfs : Vfs) (seed : RngSeed)
    (memory : Option MemoryKind) : Kernel := { Kernel.new args env vfs seed with memory }

theorem GuestRun.start_inv : (GuestRun.start (freshKernel args env vfs seed memory)).Inv :=
  ⟨LinearAllocator.new_ok, Set.empty_subset _⟩

theorem GuestRun.reaches_inv
    (h : Reaches GuestRun.next GuestRun.Fits
      (GuestRun.start (freshKernel args env vfs seed memory)) s) : s.Inv :=
  h.invariant GuestRun.start_inv fun _ _ _ hi hf hn => hi.step hf hn

/-- In every state of a run that fits, each arena keeps the documented
invariant, and no fitting `mmap` returns a byte that is still live. -/
theorem guest_arenas_ok
    (h : Reaches GuestRun.next GuestRun.Fits
      (GuestRun.start (freshKernel args env vfs seed memory)) s) :
    (∀ a ∈ s.kernel.mm.arenas, a.Ok ∧ a.available ≤ ARENA_SIZE) ∧
    ∀ addr len prot flags fd off, BelowTop s.kernel len flags fd off →
      ∀ r : Nat, (Sys.mmap s.kernel addr len prot flags fd off).1 = r →
        Disjoint (Set.Ico r (r + len.toNat)) s.live := by
  have hi := GuestRun.reaches_inv h
  refine ⟨fun a ha => ⟨hi.mm.arenas a ha, (hi.mm.arenas a ha).available_le⟩, ?_⟩
  intro addr len prot flags fd off hf r hr
  have hres : Sys.mmap s.kernel addr len prot flags fd off =
      ((r : Int), (Sys.mmap s.kernel addr len prot flags fd off).2) := Prod.ext hr rfl
  obtain ⟨-, -, hnew⟩ := hi.mmap hf hres
  simpa using (hnew (Int.natCast_nonneg r)).1

-- ---------------------------------------------------------------------------
-- Concrete runs
-- ---------------------------------------------------------------------------

/-- What a run depends on while memory need not grow. -/
structure Shows (k : Kernel) (mm : LinearAllocator) (size : Nat) : Prop where
  allocator : k.mm = mm
  memory : ∃ mem, k.memory = some (.owned mem) ∧ mem.size = size

theorem Shows.belowTop {k : Kernel} {mm : LinearAllocator} (h : Shows k mm size)
    (hsize : size < 2 ^ 32) (hmark : mm.highWater + ARENA_SIZE < 2 ^ 32) :
    BelowTop k len flags fd off := by
  obtain ⟨rfl, mem, hmem, rfl⟩ := h
  intro mem' n hm _ _
  obtain rfl : mem = mem' := MemoryKind.owned.inj (Option.some.inj (hmem.symm.trans hm))
  exact ⟨fun _ => .inl hmark, fun hfull => by omega⟩

theorem Shows.mmap {k : Kernel} {mm mm₁ mm₂ : LinearAllocator} {n : Nat} (h : Shows k mm size) (hn : 0 < n)
    (hword : n < 2 ^ 63)
    (h₁ : mm.mmap size n (.ofInt 32 prot) (.ofInt 32 flags) fd off = (.ok a₁, mm₁))
    (h₂ : mm₁.mmap size n (.ofInt 32 prot) (.ofInt 32 flags) fd off = (.ok a₂, mm₂)) :
    (Sys.mmap k addr n prot flags fd off).1 = a₂ ∧
      Shows (Sys.mmap k addr n prot flags fd off).2 mm₂ size := by
  obtain ⟨rfl, mem, hmem, rfl⟩ := h
  have heq : Sys.mmap k addr n prot flags fd off =
      ((a₂ : Int), { k with mm := mm₂, memory := some (.owned (zeroFill mem a₂ n)) }) := by
    rw [mmap_eq_place hmem hn hword h₁ rfl]
    simp only [mmapPlace, h₂]
  rw [heq]
  exact ⟨rfl, rfl, _, rfl, zeroFill_size ..⟩

theorem Shows.munmap {k : Kernel} {mm mm' : LinearAllocator} {a n : Nat} (h : Shows k mm size) (ha : a < 2 ^ 32)
    (hword : n < 2 ^ 63)
    (h₁ : mm.munmap a n = (r, mm')) :
    (Sys.munmap k a n).1 = r ∧ Shows (Sys.munmap k a n).2 mm' size := by
  obtain ⟨rfl, mem, hmem, rfl⟩ := h
  rw [munmap_eq ha hword h₁]
  exact ⟨rfl, rfl, mem, hmem, rfl⟩

def guestKernel : Kernel :=
  freshKernel [] [] { root := "/", cwd := "/" } (Vector.replicate 32 0)
    (some (.owned (.filled 0 32 64 (by decide) (by decide))))

theorem guestKernel_shows : Shows guestKernel .new 0x200000 :=
  ⟨rfl, _, rfl, LinearMemory.filled_size⟩

def oneArena (used : Nat) (freeList : List Span) : LinearAllocator :=
  { arenas := [{ base := 0x100000, used, freeList }], highWater := 0x140000 }

def map64 : MemCall := .mmap 0 64 3 0x22 (-1) 0
def unmap64 : MemCall := .munmap 0x100040 64

theorem map64_run (k : Kernel) : map64.run k = Sys.mmap k 0 64 3 0x22 (-1) 0 := rfl

theorem Shows.map64 {s : GuestRun} {mm : LinearAllocator} (a₁ a₂ : Nat) (mm₁ mm₂ : LinearAllocator)
    (h : Shows s.kernel mm 0x200000)
    (h₁ : mm.mmap 0x200000 64 3#32 0x22#32 (-1) 0 = (.ok a₁, mm₁))
    (h₂ : mm₁.mmap 0x200000 64 3#32 0x22#32 (-1) 0 = (.ok a₂, mm₂)) :
    (Sys.map64.run s.kernel).1 = (a₂ : Int) ∧ Shows (s.after Sys.map64).kernel mm₂ 0x200000 :=
  h.mmap (n := 64) (by decide) (by decide) h₁ h₂

theorem Shows.unmap64 {s : GuestRun} {mm : LinearAllocator} (mm' : LinearAllocator)
    (h : Shows s.kernel mm 0x200000)
    (h₁ : mm.munmap 0x100040 64 = (0, mm')) : Shows (s.after Sys.unmap64).kernel mm' 0x200000 :=
  (h.munmap (a := 0x100040) (n := 64) (by decide) (by decide) h₁).2

/-- The first `mmap` of sixty-four bytes reserves twice as many. -/
theorem mapped_once :
    Shows ((GuestRun.start guestKernel).after map64).kernel (oneArena 128 []) 0x200000 :=
  (Shows.map64 (s := .start guestKernel) 0x100000 0x100040 (oneArena 64 []) (oneArena 128 [])
    guestKernel_shows (by decide) (by decide)).2

/-- Sixty-four bytes are mapped and then unmapped four times over. The hole is
recorded four times, and the next two `mmap` calls return the same address. -/
theorem repeated_munmap_hands_out_twice :
    ∃ s, Reaches GuestRun.next (fun _ _ => True) (GuestRun.start guestKernel) s ∧
      (∃ a ∈ s.kernel.mm.arenas, ¬ a.Ok) ∧
      (map64.run s.kernel).1 = (0x100040 : Nat) ∧
      (map64.run (s.after map64).kernel).1 = (0x100040 : Nat) := by
  have step {s : GuestRun} (c : MemCall)
      (h : Reaches GuestRun.next (fun _ _ => True) (GuestRun.start guestKernel) s) :
      Reaches GuestRun.next (fun _ _ => True) (GuestRun.start guestKernel) (s.after c) :=
    .step (a := c) h trivial rfl
  have h₂ := mapped_once.unmap64 (oneArena 128 [(64, 64)]) (by decide)
  have h₃ := h₂.unmap64 (oneArena 128 [(64, 64), (64, 64)]) (by decide)
  have h₄ := h₃.unmap64 (oneArena 128 [(64, 64), (64, 64), (64, 64)]) (by decide)
  have h₅ := h₄.unmap64 (oneArena 128 [(64, 64), (64, 64), (64, 64), (64, 64)]) (by decide)
  obtain ⟨hr₆, h₆⟩ := h₅.map64 0x100040 0x100040
    (oneArena 128 [(64, 64), (64, 64), (64, 64)]) (oneArena 128 [(64, 64), (64, 64)]) (by decide) (by decide)
  obtain ⟨hr₇, -⟩ := h₆.map64 0x100040 0x100040 (oneArena 128 [(64, 64)])
    (oneArena 128 []) (by decide) (by decide)
  have hrun := step unmap64 (step unmap64 (step unmap64 (step unmap64 (step map64 .start))))
  refine ⟨_, hrun, ?_, hr₆, hr₇⟩
  refine ⟨{ base := 0x100000, used := 128, freeList := [(64, 64), (64, 64), (64, 64), (64, 64)] },
    ?_, by decide⟩
  exact h₅.allocator ▸ List.mem_singleton.mpr rfl

/-- Mapping sixty-four bytes and unmapping them once fits, and so does the
`mmap` after it. -/
theorem guest_arenas_ok_once :
    ∃ s, Reaches GuestRun.next GuestRun.Fits (GuestRun.start guestKernel) s ∧
      s.kernel.mm = oneArena 128 [(64, 64)] ∧
      (∀ a ∈ s.kernel.mm.arenas, a.Ok ∧ a.available ≤ ARENA_SIZE) ∧
      BelowTop s.kernel 64 0x22 (-1) 0 ∧
      Disjoint (Set.Ico 0x100080 (0x100080 + 64)) s.live := by
  have fits₀ : (GuestRun.start guestKernel).Fits map64 :=
    guestKernel_shows.belowTop (by decide) (by decide)
  have fits₁ : ((GuestRun.start guestKernel).after map64).Fits unmap64 := by
    intro hpos a ha hbase hend
    rw [mapped_once.allocator] at ha
    obtain rfl := List.mem_singleton.mp ha
    decide
  have h₂ := mapped_once.unmap64 (oneArena 128 [(64, 64)]) (by decide)
  obtain ⟨hr₃, -⟩ := h₂.map64 0x100040 0x100080 (oneArena 128 [])
    (oneArena 192 []) (by decide) (by decide)
  have hrun : Reaches GuestRun.next GuestRun.Fits (GuestRun.start guestKernel)
      (((GuestRun.start guestKernel).after map64).after unmap64) :=
    .step (.step .start fits₀ rfl) fits₁ rfl
  have fits₂ : BelowTop (((GuestRun.start guestKernel).after map64).after unmap64).kernel 64 0x22 (-1) 0 :=
    h₂.belowTop (by decide) (by decide)
  obtain ⟨hok, hdis⟩ := guest_arenas_ok hrun
  rw [map64_run] at hr₃
  exact ⟨_, hrun, h₂.allocator, hok, fits₂, hdis 0 64 3 0x22 (-1) 0 fits₂ _ hr₃⟩

end EdgeLibos.Sys
