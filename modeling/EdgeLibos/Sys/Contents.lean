import EdgeLibos.Lib.History
import EdgeLibos.Lib.Mapped
import EdgeLibos.Mm.Safety
import EdgeLibos.Snapshot.Handoff

/-!
# What the guest keeps in its mappings

`mmap`, `munmap` and `mremap` hand ranges of linear memory out, take them back and extend them;
between the calls the guest stores to what it holds, memory grows, and the kernel is frozen and
served in another process. Whatever the order, the guest finds what it stored, and zeroes where
it has stored nothing since the range was mapped. Only a range that `mremap` adds is not cleared:
it has the bytes that memory was instantiated with.
-/

namespace EdgeLibos

open Lib Mm Snapshot

-- ---------------------------------------------------------------------------
-- Addresses that were never handed out
-- ---------------------------------------------------------------------------

namespace Mm

/-- Beyond the bump pointer of an arena, or beyond every arena. -/
def LinearAllocator.fresh (mm : LinearAllocator) : Set Nat :=
  { x | mm.highWater ≤ x ∨ ∃ a ∈ mm.arenas, a.base + a.used ≤ x ∧ x < a.base + ARENA_SIZE }

section
variable {mm mm' : LinearAllocator} {pre post : List Arena} {a a' : Arena}

theorem LinearAllocator.Ok.fresh_disjoint (h : mm.Ok) : Disjoint mm.fresh mm.handedOut := by
  rw [Set.disjoint_left]
  rintro x hx ⟨b, hb, hlow, hhigh, hspare⟩
  rcases hx with htop | ⟨a, ha, hused, hend⟩
  · have := h.below b hb
    omega
  · obtain rfl := h.unique hb ha hlow hhigh (by omega) hend
    exact hspare (.inr ⟨by omega, by omega⟩)

theorem fresh_replace (hl : mm.arenas = pre ++ a :: post) (hbase : a'.base = a.base) (hused : a.used ≤ a'.used) :
    LinearAllocator.fresh { mm with arenas := pre ++ a' :: post } ⊆ mm.fresh := by
  rintro x (htop | ⟨b, hb, hlow, hhigh⟩)
  · exact .inl htop
  · rcases List.mem_append.mp hb with hb | hb
    · exact .inr ⟨b, by simp [hl, hb], hlow, hhigh⟩
    · rcases List.mem_cons.mp hb with rfl | hb
      · exact .inr ⟨a, by simp [hl], by omega, by omega⟩
      · exact .inr ⟨b, by simp [hl, hb], hlow, hhigh⟩

theorem Arena.alloc_used_le (ha : a.Ok) (h : a.alloc len 8 = some (addr, a')) : a.used ≤ a'.used := by
  obtain ⟨off, -, ⟨i, r, -, -, -, -, rfl⟩ | ⟨-, rfl, -, rfl⟩⟩ := Arena.alloc_cases h
  · exact Nat.le_refl _
  · have := (alignUp_eight ha.used_le).1
    simp only
    omega

theorem Arena.free_used (a : Arena) (off len : Nat) : (a.free off len).2.used = a.used := by
  unfold Arena.free
  dsimp only
  split
  · rfl
  split
  · rfl
  split
  · rfl
  split <;> rfl

theorem fresh_mmap (h : mm.Ok) (hroom : ValidRequest len flags fd off → mm.PlacesBelowTop cur len)
    (hr : mm.mmap cur len prot flags fd off = (res, mm')) : mm'.fresh ⊆ mm.fresh := by
  rcases LinearAllocator.mmap_cases hr with ⟨addr, pre, a, a', post, -, -, -, hl, ha, rfl⟩ |
    ⟨rfl, -, -, hnone, hcur, rfl⟩ | ⟨-, rfl⟩
  · exact fresh_replace hl (Arena.alloc_base ha) (Arena.alloc_used_le (h.arenas a (by simp [hl])) ha)
  · rw [Nat.mod_eq_of_lt (hroom (mmap_ok_valid hr) hnone hcur)]
    rintro x (htop | ⟨b, hb, hlow, hhigh⟩)
    · exact .inl (by simp only at htop; omega)
    · rcases List.mem_append.mp hb with hb | hb
      · exact .inr ⟨b, hb, hlow, hhigh⟩
      · obtain rfl := List.mem_singleton.mp hb
        exact .inl (by simp only at hlow; omega)
  · exact subset_rfl

theorem fresh_munmap (hr : mm.munmap addr len = (r, mm')) : mm'.fresh ⊆ mm.fresh := by
  rcases LinearAllocator.munmap_cases hr with ⟨pre, a, post, -, -, hl, -, rfl⟩ | ⟨-, rfl⟩
  · exact fresh_replace hl (Arena.free_base ..) (Arena.free_used ..).ge
  · exact subset_rfl

theorem fresh_growInPlace (hfits : mm.NoWrap old oldLen newLen)
    (hr : mm.growInPlace old oldLen newLen = (.ok addr, mm')) :
    mm'.fresh ⊆ mm.fresh ∧ Set.Ico (old + oldLen) (old + newLen) ⊆ mm.fresh := by
  rcases LinearAllocator.growInPlace_exact hfits hr with ⟨pre, a, post, -, hlt, hl, hbase, hused, hroom, rfl⟩ | ⟨hcase, rfl⟩
  · refine ⟨fresh_replace hl rfl (Nat.le_add_right ..), ?_⟩
    rintro x ⟨hlow, hhigh⟩
    exact .inr ⟨a, by simp [hl], by omega, by omega⟩
  · rcases hcase with ⟨hle, -⟩ | hbad
    · exact ⟨subset_rfl, by simp [Set.Ico_eq_empty (show ¬ old + oldLen < old + newLen by omega)]⟩
    · cases hbad

theorem LinearAllocator.Ok.unmappable (h : mm.Ok) (hin : Set.Ico addr (addr + len) ⊆ mm.handedOut) :
    mm.Unmappable addr len := by
  intro hpos a ha hbase hend
  have hs : Session.Inv { mm, curMemSize := mm.highWater, live := mm.handedOut } :=
    ⟨h, subset_rfl, h.below, h.top⟩
  exact hs.unmappable ⟨hpos, hin, a, ha, hbase, hend⟩ hpos a ha hbase hend

end

end Mm

namespace Sys.Contents

-- ---------------------------------------------------------------------------
-- The calls
-- ---------------------------------------------------------------------------

inductive Call
  | memory (c : MemCall)
  /-- By the guest's own code, or by a call that fills a buffer of the guest. -/
  | store (start : Nat) (contents : List UInt8)
  /-- The guest's own instruction. -/
  | grow (delta : Nat)
  /-- The kernel is frozen, and served from the fresh instance `t`. -/
  | move (host : Host) (t : Kernel)

def onMemory (k : Kernel) (f : LinearMemory → Option LinearMemory) : Option Kernel :=
  match k.memory with
  | some (.owned m) => (f m).map fun m => { k with memory := some (.owned m) }
  | _ => none

/-- A store beyond memory traps, and memory that cannot grow stays as it is. -/
def next (k : Kernel) : Call → Option Kernel
  | .memory c => some (c.run k).2
  | .store start contents => onMemory k fun m => m.store start contents
  | .grow delta => onMemory k fun m => some ((m.grow delta).getD m)
  | .move host t => (applySnapshot host (tryToSnapshot k) t).toOption

/-- The bytes that memory was instantiated with; what it has grown by since is zero. -/
def firstBytes (mem : LinearMemory) (start len : Nat) : List UInt8 :=
  (List.range' start len).map fun i => mem.data.getD i 0

def events (mem : LinearMemory) (k : Kernel) : Call → List (Mapped.Event UInt8)
  | .memory (.mmap addr len prot flags fd off) =>
    let r := (Sys.mmap k addr len prot flags fd off).1
    if 0 ≤ r then [.map r.toNat (List.replicate len.toNat 0)] else []
  | .memory (.munmap addr len) => if (Sys.munmap k addr len).1 = 0 then [.unmap addr.toNat len.toNat] else []
  | .memory (.mremap old oldLen newLen flags newAddr) =>
    if 0 ≤ (Sys.mremap k old oldLen newLen flags newAddr).1 ∧ oldLen < newLen then
      [.map (old + oldLen).toNat (firstBytes mem (old + oldLen).toNat (newLen - oldLen).toNat)]
    else []
  | .store start contents => [.store start contents]
  | .grow _ => []
  | .move _ _ => []

/-- The target can take the memory over: it is as far as it goes zero where the source is, and no larger. -/
def CanTakeOver (k t : Kernel) : Prop :=
  ∃ source target, k.memory = some (.owned source) ∧ t.memory = some (.owned target) ∧
    RestoresExactly source target ∧ target.pages ≤ source.pages ∧ target.maxPages = source.maxPages

/-- The guest stores to and unmaps what it holds; `mmap` places no arena that ends at 4 GiB. -/
def Allowed (p : Mapped UInt8 × Kernel) : Call → Prop
  | .memory (.mmap _ len _ flags fd off) => BelowTop p.2 len flags fd off
  | .memory (.munmap addr len) => ∀ a n : Nat, addr = a → len = n → p.1.Held a n
  | .memory (.mremap _ _ _ _ _) => True
  | .store start contents => p.1.Held start contents.length
  | .grow _ => True
  | .move _ t => CanTakeOver p.2 t

-- ---------------------------------------------------------------------------
-- Memory under the mappings
-- ---------------------------------------------------------------------------

/-- Memory shows what is mapped, and has its first bytes where nothing was ever handed out. -/
structure Backs (mem : LinearMemory) (heap : Mapped UInt8) (fresh : Set Nat) (m : LinearMemory) : Prop where
  size : mem.size ≤ m.size
  shown : heap.Shown (m.data[·]?)
  untouched : ∀ x ∈ fresh, x < m.size → m.data[x]? = some (mem.data.getD x 0)

section
variable {mem m m' : LinearMemory} {heap : Mapped UInt8} {fresh fresh' : Set Nat} {start len : Nat}
  {new : List UInt8}

theorem Backs.mono (h : Backs mem heap fresh m) (hsub : fresh' ⊆ fresh) : Backs mem heap fresh' m :=
  ⟨h.size, h.shown, fun x hx => h.untouched x (hsub hx)⟩

theorem Backs.erase (h : Backs mem heap fresh m) (start len : Nat) : Backs mem (heap.erase start len) fresh m :=
  ⟨h.size, h.shown.erase start len, h.untouched⟩

theorem lookup_write (h : start + new.length ≤ m.size) :
    ((m.write start new h).data[·]?) = Mapped.write (m.data[·]?) start new := by
  funext i
  exact LinearMemory.splice_getElem? h i

theorem Backs.write (h : Backs mem heap fresh m) (hin : start + new.length ≤ m.size)
    (hapart : Disjoint (Set.Ico start (start + new.length)) fresh) :
    Backs mem (heap.write start new) fresh (m.write start new hin) where
  size := by
    rw [LinearMemory.write_size]
    exact h.size
  shown := by
    rw [lookup_write]
    exact h.shown.write start new
  untouched x hx hlt := by
    rw [LinearMemory.write_size] at hlt
    have hout : ¬ (start ≤ x ∧ x < start + new.length) := fun hin => Set.disjoint_left.mp hapart hin hx
    exact (congrFun (lookup_write hin) x).trans ((Mapped.write_of_not_mem hout).trans (h.untouched x hx hlt))

theorem Backs.grow (h : Backs mem heap fresh m) (hg : m.grow delta = some m') : Backs mem heap fresh m' := by
  have hsize := LinearMemory.grow_size hg
  have hdata := (LinearMemory.grow_some hg).1
  have hmem := h.size
  refine ⟨by omega, ?_, ?_⟩
  · refine h.shown.trans fun i v hv => ?_
    have hv : m.data[i]? = some v := hv
    show m'.data[i]? = some v
    rw [hdata, List.getElem?_append_left (List.getElem?_eq_some_iff.mp hv).1, hv]
  · intro x hx hlt
    rw [hdata]
    rcases Nat.lt_or_ge x m.size with hold | hnew
    · rw [List.getElem?_append_left hold]
      exact h.untouched x hx hold
    · have hin : x - m.data.length < delta * PAGE_SIZE := by
        simp only [LinearMemory.size] at *
        omega
      rw [List.getElem?_append_right hnew, List.getElem?_replicate, if_pos hin]
      simp [List.getElem?_eq_none (show mem.data.length ≤ x from Nat.le_trans hmem hnew)]

theorem Backs.growFor (h : Backs mem heap fresh m) (hg : growFor d m = some m') : Backs mem heap fresh m' := by
  unfold Sys.growFor at hg
  split at hg
  · exact h.grow hg
  · cases hg
    exact h

theorem firstBytes_length (mem : LinearMemory) (start len : Nat) : (firstBytes mem start len).length = len := by
  simp [firstBytes]

theorem Backs.map (h : Backs mem heap fresh m) (hin : start + len ≤ m.size)
    (hfresh : Set.Ico start (start + len) ⊆ fresh) :
    Backs mem (heap.write start (firstBytes mem start len)) fresh m := by
  refine ⟨h.size, h.shown.write_left fun i hlow hhigh => ?_, h.untouched⟩
  rw [firstBytes_length] at hhigh
  show m.data[i]? = _
  rw [h.untouched i (hfresh ⟨hlow, hhigh⟩) (by omega)]
  simp [firstBytes, List.getElem?_range' (show i - start < len by omega), Nat.add_sub_cancel' hlow]

end

-- ---------------------------------------------------------------------------
-- A step
-- ---------------------------------------------------------------------------

structure Inv (mem : LinearMemory) (p : Mapped UInt8 × Kernel) : Prop where
  mm : p.2.mm.Ok
  within : ArenasWithin p.2
  held : ∀ x, (p.1 x).isSome → x ∈ p.2.mm.handedOut
  memory : ∃ m, p.2.memory = some (.owned m) ∧ Backs mem p.1 p.2.mm.fresh m

section
variable {mem : LinearMemory} {heap : Mapped UInt8} {k k' : Kernel}

theorem free_of_disjoint (h : Disjoint (Set.Ico start (start + len)) { x | (heap x).isSome }) :
    heap.Free start len := by
  refine Mapped.free_iff.mpr fun i hlow hhigh => ?_
  cases hi : heap i with
  | none => rfl
  | some v => exact absurd (by simp [hi]) (Set.disjoint_left.mp h ⟨hlow, hhigh⟩)

theorem Inv.held_subset (h : Inv mem (heap, k)) (hheld : heap.Held start len) :
    Set.Ico start (start + len) ⊆ k.mm.handedOut := by
  rintro x ⟨hlow, hhigh⟩
  exact h.held x (Mapped.held_iff.mp hheld x hlow hhigh)

theorem size_of_handedOut (hw : k.mm.Within size) (hin : Set.Ico start (start + len) ⊆ k.mm.handedOut)
    (hlen : 0 < len) : start + len ≤ size := by
  obtain ⟨a, ha, -, hhigh, -⟩ := hin (show start + len - 1 ∈ _ from ⟨by omega, by omega⟩)
  have := (hw a ha).2
  omega

theorem mmap_step (h : Inv mem (heap, k)) (hf : BelowTop k len flags fd off)
    (hr : Sys.mmap k addr len prot flags fd off = (r, k')) : ∃ heap',
      (if 0 ≤ r then [Mapped.Event.map r.toNat (List.replicate len.toNat 0)] else []).foldlM Mapped.take heap =
        some heap' ∧ Inv mem (heap', k') := by
  obtain ⟨hmm, hwithin, hheld, m, hm, hb⟩ := h
  have hlive : GuestRun.Inv { kernel := k, live := { x | (heap x).isSome } } := ⟨hmm, hheld⟩
  obtain ⟨hok, hkept, hnew⟩ := hlive.mmap hf hr
  obtain ⟨hwithin', -⟩ := hwithin.mmap hr
  rcases mmap_cases hr with ⟨hneg, rfl⟩ | ⟨n, m₀, m₁, d, res, mm₁, mm₂, rfl, hpos, hm₀, hd, hg, hres, hcase⟩
  · rw [if_neg (by omega)]
    exact ⟨heap, rfl, hmm, hwithin, hheld, m, hm, hb⟩
  cases hm.symm.trans hm₀
  have hroom₁ := hf.first hm
  have hroom₂ hv := hf.second hm hv hd hg
  have hfresh : mm₂.fresh ⊆ k.mm.fresh :=
    (fresh_mmap (mmap_keeps hmm hroom₁ hd).1 hroom₂ hres).trans (fresh_mmap hmm hroom₁ hd)
  have hgrown : Backs mem heap mm₂.fresh m₁ := (hb.growFor hg).mono hfresh
  rcases hcase with ⟨a, rfl, rfl, rfl⟩ | ⟨-, hneg, rfl⟩
  · obtain ⟨hapart, hin⟩ := hnew (Int.natCast_nonneg a)
    simp only [Int.toNat_natCast] at hapart hin ⊢
    have hfits : a + n ≤ m₁.size := by
      have hsize := size_of_handedOut (hwithin' _ rfl) hin hpos
      rwa [zeroFill_size] at hsize
    have hzero : a + (List.replicate n (0 : UInt8)).length ≤ m₁.size := by simpa using hfits
    refine ⟨heap.write a (List.replicate n 0), ?_, hok, hwithin', ?_, _, rfl, ?_⟩
    · rw [if_pos (Int.natCast_nonneg a), List.foldlM_cons, Mapped.take_map (by simpa using free_of_disjoint hapart)]
      rfl
    · intro x hx
      rcases Mapped.isSome_write hx with hold | hrange
      · exact hkept hold
      · exact hin (by simpa using hrange)
    · rw [zeroFill, dif_pos hfits]
      refine hgrown.write hzero ?_
      rw [List.length_replicate]
      exact hok.fresh_disjoint.symm.mono_left hin
  · rw [if_neg (by omega)]
    exact ⟨heap, rfl, hok, hwithin', fun x hx => hkept hx, m₁, rfl, hgrown⟩

theorem munmap_step {addr len : Int} (h : Inv mem (heap, k)) (ha : ∀ a n : Nat, addr = a → len = n → heap.Held a n)
    (hr : Sys.munmap k addr len = (r, k')) : ∃ heap',
      (if r = 0 then [Mapped.Event.unmap addr.toNat len.toNat] else []).foldlM Mapped.take heap =
        some heap' ∧ Inv mem (heap', k') := by
  have hwithin' := h.within.munmap hr
  obtain ⟨m, hm, hb⟩ := h.memory
  rcases munmap_cases hr with ⟨hneg, rfl⟩ | ⟨a, n, mm', rfl, rfl, hmm', rfl⟩
  · rw [if_neg (by omega)]
    exact ⟨heap, rfl, h⟩
  have hheld := ha a n rfl rfl
  obtain ⟨hok, hkept, hsame, -⟩ := LinearAllocator.munmap_ok h.mm (h.mm.unmappable (h.held_subset hheld)) hmm'
  have hb' := hb.mono (fresh_munmap hmm')
  by_cases hzero : r = 0
  · rw [if_pos hzero, List.foldlM_cons, Int.toNat_natCast, Int.toNat_natCast, Mapped.take_unmap hheld]
    refine ⟨heap.erase a n, rfl, hok, hwithin', fun x hx => ?_, m, hm, hb'.erase a n⟩
    obtain ⟨hsome, hout⟩ := Mapped.isSome_erase hx
    exact hkept ⟨h.held x hsome, hout⟩
  · rw [if_neg hzero]
    cases hsame hzero
    exact ⟨heap, rfl, h⟩

theorem mremap_step (h : Inv mem (heap, k)) (hr : Sys.mremap k old oldLen newLen flags newAddr = (r, k')) :
    ∃ heap', (if 0 ≤ r ∧ oldLen < newLen then [Mapped.Event.map (old + oldLen).toNat
        (firstBytes mem (old + oldLen).toNat (newLen - oldLen).toNat)] else []).foldlM Mapped.take heap =
        some heap' ∧ Inv mem (heap', k') := by
  have hwithin' := h.within.mremap hr
  obtain ⟨m, hm, hb⟩ := h.memory
  rcases mremap_cases hr with ⟨hneg, rfl⟩ |
    ⟨o, n, n', rfl, rfl, rfl, -, hpos, ⟨hle, rfl⟩ | ⟨hlt, hfits, addr, mm', hg, rfl⟩⟩
  · rw [if_neg (by omega)]
    exact ⟨heap, rfl, h⟩
  · rw [if_neg (by omega)]
    exact ⟨heap, rfl, h⟩
  have hfits := hfits fun a ha => (h.mm.arenas a ha).used_le
  obtain ⟨hok, -, -, hgood⟩ := LinearAllocator.growInPlace_ok h.mm hfits hg
  obtain ⟨hapart, hin⟩ := hgood addr rfl
  obtain ⟨hfresh, hrange⟩ := fresh_growInPlace hfits hg
  have hend : o + n' = o + n + (n' - n) := by omega
  rw [hend] at hapart hin hrange
  have hstart : ((o : Int) + n).toNat = o + n := by omega
  have hlen : ((n' : Int) - n).toNat = n' - n := by omega
  have hfits := size_of_handedOut (hwithin' m hm) (Set.subset_union_right.trans hin) (by omega)
  rw [if_pos ⟨hpos, by omega⟩, List.foldlM_cons, hstart, hlen, Mapped.take_map]
  · refine ⟨_, rfl, hok, hwithin', fun x hx => ?_, m, hm, (hb.map hfits hrange).mono hfresh⟩
    rcases Mapped.isSome_write hx with hold | hnew
    · exact hin (.inl (h.held x hold))
    · exact hin (.inr (by rwa [firstBytes_length] at hnew))
  · rw [firstBytes_length]
    exact free_of_disjoint (hapart.mono_right fun x hx => h.held x hx)

theorem onMemory_some {f : LinearMemory → Option LinearMemory} (h : onMemory k f = some k') :
    ∃ m m', k.memory = some (.owned m) ∧ f m = some m' ∧ k' = { k with memory := some (.owned m') } := by
  unfold onMemory at h
  split at h
  · rename_i m hm
    obtain ⟨m', hf, rfl⟩ := Option.map_eq_some_iff.mp h
    exact ⟨m, m', hm, hf, rfl⟩
  · cases h

theorem store_step (h : Inv mem (heap, k)) (hheld : heap.Held start contents.length)
    (hn : next k (.store start contents) = some k') : Inv mem (heap.write start contents, k') := by
  obtain ⟨m, hm, hb⟩ := h.memory
  obtain ⟨m₀, m', hm₀, hstore, rfl⟩ := onMemory_some hn
  cases hm.symm.trans hm₀
  unfold LinearMemory.store at hstore
  split at hstore
  · rename_i hfits
    cases hstore
    have hin := h.held_subset hheld
    refine ⟨h.mm, ?_, fun x hx => ?_, _, rfl, hb.write hfits (h.mm.fresh_disjoint.symm.mono_left hin)⟩
    · rintro _ ⟨⟩
      rw [LinearMemory.write_size]
      exact h.within m hm
    · rcases Mapped.isSome_write hx with hold | hrange
      · exact h.held x hold
      · exact hin hrange
  · cases hstore

theorem grow_step (h : Inv mem (heap, k)) (hn : next k (.grow delta) = some k') : Inv mem (heap, k') := by
  obtain ⟨m, hm, hb⟩ := h.memory
  obtain ⟨m₀, m', hm₀, hgrow, rfl⟩ := onMemory_some hn
  cases hm.symm.trans hm₀
  cases hgrow
  cases hg : m.grow delta with
  | none =>
    refine ⟨h.mm, ?_, h.held, m, rfl, hb⟩
    rintro _ ⟨⟩
    exact h.within m hm
  | some m₁ =>
    refine ⟨h.mm, ?_, h.held, m₁, rfl, hb.grow hg⟩
    rintro _ ⟨⟩
    have hsize := LinearMemory.grow_size hg
    refine (h.within m hm).mono ?_
    simp only [Option.getD_some]
    omega

theorem move_step (h : Inv mem (heap, k)) (ha : CanTakeOver k t) (hn : next k (.move host t) = some k') :
    Inv mem (heap, k') := by
  obtain ⟨source, target, hk, ht, hex, hle, hmax⟩ := ha
  obtain ⟨m, hm, hb⟩ := h.memory
  have happly : applySnapshot host (tryToSnapshot k) t = .ok k' := by
    simp only [next] at hn
    cases hs : applySnapshot host (tryToSnapshot k) t with
    | error e => simp [hs, Except.toOption] at hn
    | ok kr =>
      rw [hs] at hn
      cases hn
      rfl
  have halike := alike_of_apply hk ht hex hle hmax happly
  have hmm := halike.mm
  have hmem := halike.memory
  refine ⟨?_, ?_, ?_, m, hmem.trans hm, ?_⟩
  · exact hmm ▸ h.mm
  · intro m' hm'
    rw [hmm]
    exact h.within m' (hmem.symm.trans hm')
  · intro x hx
    rw [hmm]
    exact h.held x hx
  · rw [hmm]
    exact hb

/-- An allowed step is one the mappings take, and memory still shows them. -/
theorem Inv.step {p : Mapped UInt8 × Kernel} (h : Inv mem p) (ha : Allowed p c) (hn : next p.2 c = some k') :
    ∃ heap', (events mem p.2 c).foldlM Mapped.take p.1 = some heap' ∧ Inv mem (heap', k') := by
  obtain ⟨heap, k⟩ := p
  cases c with
  | memory c =>
    cases hn
    cases c with
    | mmap addr len prot flags fd off =>
      have hr : Sys.mmap k addr len prot flags fd off = ((Sys.mmap k addr len prot flags fd off).1, _) := rfl
      exact mmap_step h ha hr
    | munmap addr len => exact munmap_step h ha rfl
    | mremap old oldLen newLen flags newAddr => exact mremap_step h rfl
  | store start contents =>
    refine ⟨heap.write start contents, ?_, store_step h ha hn⟩
    rw [events, List.foldlM_cons, Mapped.take_store ha]
    rfl
  | grow delta => exact ⟨heap, rfl, grow_step h hn⟩
  | move host t => exact ⟨heap, rfl, move_step h ha hn⟩

end

theorem start_inv (mem : LinearMemory) : Inv mem (.empty, freshKernel args env vfs seed (some (.owned mem))) where
  mm := LinearAllocator.new_ok
  within := by
    intro m _ a ha
    simp [freshKernel, Kernel.new, LinearAllocator.new] at ha
  held x hx := by cases hx
  memory := by
    refine ⟨mem, rfl, Nat.le_refl _, Mapped.empty_shown, fun x _ hlt => ?_⟩
    rw [List.getD_eq_getElem?_getD, List.getElem?_eq_getElem hlt]
    rfl

/-- In every run from a fresh kernel, also through other processes, a byte that the guest holds is
in memory as it was stored last, or as it was when its range was handed out; and no range that is
handed out next has a byte that the guest still holds. -/
theorem contents_kept (mem : LinearMemory) {args : List String} {env : List (String × String)} {vfs : Vfs}
    {seed : RngSeed} {heap : Mapped UInt8} {k : Kernel}
    (h : Reaches (follow next (events mem) Mapped.take) Allowed
      (.empty, freshKernel args env vfs seed (some (.owned mem))) (heap, k)) :
    (∃ m, k.memory = some (.owned m) ∧ ∀ i v, heap i = some v → m.data[i]? = some v) ∧
      ∀ c k', Allowed (heap, k) c → next k c = some k' →
        ∃ heap', follow next (events mem) Mapped.take (heap, k) c = some (heap', k') := by
  have hinv : Inv mem (heap, k) := by
    refine h.invariant (start_inv mem) fun p c p' hp ha hn => ?_
    obtain ⟨hnext, htake⟩ := follow_eq_some.mp hn
    obtain ⟨heap', htake', hp'⟩ := hp.step ha hnext
    cases htake.symm.trans htake'
    exact hp'
  obtain ⟨m, hm, hb⟩ := hinv.memory
  refine ⟨⟨m, hm, hb.shown⟩, fun c k' ha hn => ?_⟩
  obtain ⟨heap', htake, -⟩ := hinv.step ha hn
  exact ⟨heap', follow_eq_some.mpr ⟨hn, htake⟩⟩

theorem first_map64 {k : Kernel} (h : Shows k .new 0x200000) :
    (map64.run k).1 = (0x100040 : Nat) ∧ Shows (map64.run k).2 (oneArena 128 []) 0x200000 :=
  Shows.map64 (s := .start k) 0x100000 0x100040 (oneArena 64 []) (oneArena 128 []) h (by decide) (by decide)

theorem follow_map64 (mem : LinearMemory) {k : Kernel} (hr : (map64.run k).1 = (0x100040 : Nat)) :
    follow next (events mem) Mapped.take (.empty, k) (.memory map64) =
      some (Mapped.empty.write 0x100040 (List.replicate 64 0), (map64.run k).2) := by
  refine follow_eq_some.mpr ⟨rfl, ?_⟩
  have hevents : events mem k (.memory map64) = [.map 0x100040 (List.replicate 64 0)] := by
    show (if 0 ≤ (map64.run k).1 then [Mapped.Event.map (map64.run k).1.toNat _] else []) = _
    rw [hr]
    rfl
  rw [hevents, List.foldlM_cons, Mapped.take_map fun _ _ => rfl]
  rfl

/-- Sixty-four bytes are mapped, and the first of them is stored to. -/
theorem mapped_stored (mem : LinearMemory) (h : Shows k .new 0x200000) :
    ∃ k', Reaches (follow next (events mem) Mapped.take) Allowed (.empty, k)
      ((Mapped.empty.write 0x100040 (List.replicate 64 0)).write 0x100040 [42], k') := by
  obtain ⟨hr, -, m, hm, hsize⟩ := first_map64 h
  have hheld : (Mapped.empty.write 0x100040 (List.replicate 64 (0 : UInt8))).Held 0x100040 1 := by decide
  have hfits : 0x100040 + [(42 : UInt8)].length ≤ m.size := by
    rw [hsize]
    decide
  have hfirst : Allowed (.empty, k) (.memory map64) := h.belowTop (by decide) (by decide)
  have hstore : follow next (events mem) Mapped.take
      (Mapped.empty.write 0x100040 (List.replicate 64 0), (map64.run k).2) (.store 0x100040 [42]) =
      some ((Mapped.empty.write 0x100040 (List.replicate 64 0)).write 0x100040 [42],
        { (map64.run k).2 with memory := some (.owned (m.write 0x100040 [42] hfits)) }) := by
    refine follow_eq_some.mpr ⟨?_, ?_⟩
    · simp only [next, onMemory, hm, LinearMemory.store, dif_pos hfits, Option.map_some]
    · rw [events, List.foldlM_cons, Mapped.take_store hheld]
      rfl
  have hmapped := Reaches.step .start hfirst (follow_map64 mem hr)
  exact ⟨_, hmapped.step (a := .store 0x100040 [42]) hheld hstore⟩

theorem contents_kept_stored :
    ∃ mem heap k, guestKernel.memory = some (.owned mem) ∧
      Reaches (follow next (events mem) Mapped.take) Allowed (.empty, guestKernel) (heap, k) ∧
      heap 0x100040 = some 42 ∧ heap 0x100041 = some 0 ∧
      ∃ m, k.memory = some (.owned m) ∧ m.data[0x100040]? = some 42 ∧ m.data[0x100041]? = some 0 := by
  obtain ⟨k, hrun⟩ := mapped_stored (.filled 0 32 64 (by decide) (by decide)) guestKernel_shows
  obtain ⟨⟨m, hm, hshown⟩, -⟩ := contents_kept _ hrun
  exact ⟨_, _, k, rfl, hrun, rfl, rfl, m, hm, hshown _ _ rfl, hshown _ _ rfl⟩

end Sys.Contents

end EdgeLibos
