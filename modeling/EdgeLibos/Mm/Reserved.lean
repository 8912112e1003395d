import EdgeLibos.Mm.Protocol
import EdgeLibos.Mm.Safety

/-!
# Bytes reserved

What the bump pointers passed less what the holes hold. One `alloc` adds the
bytes it was asked for and the few it skips for alignment; one `free` takes off
the bytes it was given. Neither depends on the holes being disjoint, so the
count is right whatever the guest frees.
-/

namespace EdgeLibos.Mm

open Lib Errno

def Arena.reserved (a : Arena) : Int := a.used - spanSum a.freeList

def LinearAllocator.reserved (mm : LinearAllocator) : Int :=
  (mm.arenas.map fun a => a.used).sum - (mm.arenas.map fun a => spanSum a.freeList).sum

-- ---------------------------------------------------------------------------
-- One arena
-- ---------------------------------------------------------------------------

theorem Arena.alloc_reserved {a a' : Arena} (hb : a.Bounded)
    (h : a.alloc len 8 = some (addr, a')) :
    a.reserved + len ≤ a'.reserved ∧ a'.reserved ≤ a.reserved + len + 7 := by
  unfold Arena.reserved
  obtain ⟨off, -, ⟨i, r, hi, rfl, hfit, -, rfl⟩ | ⟨-, rfl, -, rfl⟩⟩ := Arena.alloc_cases h
  · obtain ⟨hil, rfl⟩ := List.getElem?_eq_some_iff.mp hi
    have hin := hb.inside _ (List.getElem_mem hil)
    unfold Fits at hfit
    obtain ⟨h1, -, -⟩ := alignUp_eight (show a.freeList[i].1 ≤ ARENA_SIZE by omega)
    have h2 : alignUp a.freeList[i].1 8 + len ≤ a.freeList[i].1 + a.freeList[i].2 := by omega
    have hcut := Span.spanSum_minus h1 h2
    have hnew := spanSum_perm (carve_perm hi h1 h2)
    have hold := spanSum_perm (perm_getElem_cons_eraseIdx a.freeList i hil)
    rw [spanSum_append] at hnew
    rw [spanSum_cons] at hold
    simp only
    omega
  · obtain ⟨h1, h2, -⟩ := alignUp_eight hb.used_le
    simp only
    omega

theorem spanSum_insertHole (l : List Span) (r : Span) : spanSum (insertHole l r) = spanSum l + r.2 := by
  rw [insertHole, spanSum_coalesce, spanSum_perm (List.perm_insertionSort ..)]
  simp

theorem Arena.free_reserved {a : Arena} (hlen : 0 < len) (hbase : a.base ≤ off)
    (hend : off - a.base + len ≤ ARENA_SIZE) :
    (a.free off len).2.reserved = a.reserved - len := by
  have hsum : spanSum (insertHole a.freeList (off - a.base, len)) = spanSum a.freeList + len :=
    spanSum_insertHole ..
  rw [Arena.free_eq hlen hbase hend]
  unfold Arena.reserved
  simp only
  omega

theorem Arena.contains_bounds {a : Arena} (hlen : len < 2 ^ 32) (h : a.contains off len = true) :
    a.base ≤ off ∧ off + len ≤ (a.base + ARENA_SIZE) % 2 ^ 32 := by
  unfold Arena.contains at h
  rw [Nat.mod_eq_of_lt hlen] at h
  split at h
  · cases h
  · simpa using h

-- ---------------------------------------------------------------------------
-- The allocator
-- ---------------------------------------------------------------------------

/-- What every call keeps, whatever its arguments and however large memory is. -/
structure LinearAllocator.Sane (mm : LinearAllocator) : Prop where
  bounded : ∀ a ∈ mm.arenas, a.Bounded
  aligned : ∀ a ∈ mm.arenas, ARENA_SIZE ∣ a.base
  topAligned : ARENA_SIZE ∣ mm.highWater
  top : mm.highWater < 2 ^ 32

section
variable {mm mm' : LinearAllocator} {pre post : List Arena} {a a' : Arena} {len : Nat}

theorem reserved_replace (hl : mm.arenas = pre ++ a :: post) :
    LinearAllocator.reserved { mm with arenas := pre ++ a' :: post } =
      mm.reserved - a.reserved + a'.reserved := by
  simp only [LinearAllocator.reserved, Arena.reserved, hl, List.map_append, List.map_cons,
    List.sum_append, List.sum_cons]
  omega

theorem LinearAllocator.Sane.replace (h : mm.Sane) (hl : mm.arenas = pre ++ a :: post)
    (hbase : a'.base = a.base) (hb : a'.Bounded) :
    LinearAllocator.Sane { mm with arenas := pre ++ a' :: post } := by
  have haligned := h.aligned a (by simp [hl])
  refine ⟨?_, ?_, h.topAligned, h.top⟩
  · exact forall_mem_replace (hl ▸ h.bounded) hb
  · exact forall_mem_replace (hl ▸ h.aligned) (hbase ▸ haligned)

theorem LinearAllocator.Sane.mmap (h : mm.Sane) (hr : mm.mmap cur len prot flags fd off = (r, mm')) :
    mm'.Sane := by
  rcases LinearAllocator.mmap_cases hr with ⟨addr, pre, a, a', post, -, -, -, hl, halloc, rfl⟩ |
    ⟨-, -, hle, -, -, rfl⟩ | ⟨-, rfl⟩
  · have hb := h.bounded a (by simp [hl])
    exact h.replace hl (Arena.alloc_base halloc) (Arena.alloc_bounded hb halloc).1
  · have hdvd : ARENA_SIZE ∣ 2 ^ 32 := by decide
    refine ⟨?_, ?_, ?_, Nat.mod_lt _ (by decide)⟩
    · exact List.forall_mem_append.mpr ⟨h.bounded, List.forall_mem_singleton.mpr ⟨hle, by simp⟩⟩
    · exact List.forall_mem_append.mpr ⟨h.aligned, List.forall_mem_singleton.mpr h.topAligned⟩
    · exact (Nat.dvd_mod_iff hdvd).mpr (Nat.dvd_add h.topAligned (Nat.dvd_refl _))
  · exact h

theorem LinearAllocator.Sane.munmap (h : mm.Sane) (hr : mm.munmap addr len = (r, mm')) : mm'.Sane := by
  rcases LinearAllocator.munmap_cases hr with ⟨pre, a, post, -, -, hl, -, rfl⟩ | ⟨-, rfl⟩
  · exact h.replace hl (Arena.free_base ..) (Arena.free_bounded (h.bounded a (by simp [hl])) ..)
  · exact h

theorem LinearAllocator.Sane.growInPlace (h : mm.Sane)
    (hr : mm.growInPlace old oldLen newLen = (r, mm')) : mm'.Sane := by
  rcases LinearAllocator.growInPlace_cases hr with ⟨pre, a, post, -, -, hl, -, -, hle, rfl⟩ | ⟨-, rfl⟩
  · exact h.replace hl rfl ⟨hle, (h.bounded a (by simp [hl])).inside⟩
  · exact h

theorem LinearAllocator.new_sane : LinearAllocator.new.Sane :=
  ⟨by simp [LinearAllocator.new], by simp [LinearAllocator.new], by decide, by decide⟩

theorem Session.reaches_sane {s : Session}
    (h : Reaches Session.next (fun _ _ => True) Session.start s) : s.mm.Sane := by
  refine h.invariant (I := fun s => s.mm.Sane) LinearAllocator.new_sane ?_
  intro s c s' hs _ hn
  obtain rfl := Option.some.inj hn
  cases c with
  | mmap cur len prot flags fd off => exact hs.mmap (Prod.eta (s.mm.mmap cur len prot flags fd off)).symm
  | munmap addr len => exact hs.munmap (Prod.eta (s.mm.munmap addr len)).symm
  | growInPlace old oldLen newLen => exact hs.growInPlace (Prod.eta (s.mm.growInPlace old oldLen newLen)).symm

theorem placeNext_reserved (mm : LinearAllocator) (len : Nat) :
    (mm.placeNext len).reserved = mm.reserved + len := by
  simp only [LinearAllocator.placeNext, LinearAllocator.reserved, List.map_append, List.map_cons,
    List.map_nil, List.sum_append, List.sum_cons, List.sum_nil, spanSum_nil]
  omega

/-- An address costs the bytes asked for and at most seven more. -/
theorem LinearAllocator.Sane.mmap_reserved (h : mm.Sane)
    (hr : mm.mmap cur len prot flags fd off = (.ok addr, mm')) :
    mm.reserved + len ≤ mm'.reserved ∧ mm'.reserved ≤ mm.reserved + len + 7 := by
  rcases LinearAllocator.mmap_cases hr with ⟨_, pre, a, a', post, -, -, -, hl, halloc, rfl⟩ |
    ⟨-, -, -, -, -, rfl⟩ | ⟨hno, -⟩
  · rw [reserved_replace hl]
    have := Arena.alloc_reserved (h.bounded a (by simp [hl])) halloc
    omega
  · have hnew : LinearAllocator.reserved _ = _ := placeNext_reserved mm len
    unfold LinearAllocator.placeNext at hnew
    omega
  · exact absurd rfl (hno addr)

theorem freeFirst_none_iff {l : List Arena} :
    freeFirst addr len l = none ↔ ∀ a ∈ l, a.contains addr len = false := by
  induction l with
  | nil => simp [freeFirst]
  | cons a rest ih =>
    unfold freeFirst
    cases hc : a.contains addr len with
    | true => simp [hc]
    | false => simp [hc, ih]

theorem munmap_eq_zero_iff (hpos : 0 < len) :
    (mm.munmap addr len).1 = 0 ↔ ∃ a ∈ mm.arenas, a.contains addr len = true := by
  unfold LinearAllocator.munmap
  rw [if_neg (Nat.ne_of_gt hpos)]
  cases hf : freeFirst addr len mm.arenas with
  | none =>
    have hno := freeFirst_none_iff.mp hf
    have hne : (-EINVAL : Int) ≠ 0 := by decide
    simp only [hne, false_iff, not_exists, not_and]
    intro a ha
    simp [hno a ha]
  | some l =>
    obtain ⟨pre, a, post, hl, -, hc⟩ := freeFirst_some hf
    simp only [true_iff]
    exact ⟨a, by simp [hl], hc⟩

theorem munmap_reserved (hpos : 0 < len) (hlen : len < 2 ^ 32) :
    (mm.munmap addr len).2.reserved =
      if (mm.munmap addr len).1 = 0 then mm.reserved - len else mm.reserved := by
  cases hr : mm.munmap addr len with
  | mk r mm' =>
    rcases LinearAllocator.munmap_cases hr with ⟨pre, a, post, rfl, -, hl, hc, rfl⟩ | ⟨hcase, rfl⟩
    · obtain ⟨hbase, hend⟩ := Arena.contains_bounds hlen hc
      have hend' := hend.trans (Nat.mod_le _ _)
      simp only [if_true]
      rw [reserved_replace hl, Arena.free_reserved hpos hbase (by omega)]
      omega
    · rcases hcase with hzero | ⟨rfl, -⟩
      · omega
      · have hne : (-EINVAL : Int) ≠ 0 := by decide
        simp only [if_neg hne]

/-- Only the arena at the mark can contain what was placed there, and it does
unless its end wraps. -/
theorem placeNext_munmap (hs : mm.Sane) (hlen : 0 < len)
    (hle : len ≤ ARENA_SIZE) :
    ((mm.placeNext len).munmap mm.highWater len).1 = 0 ↔ mm.highWater + ARENA_SIZE < 2 ^ 32 := by
  have hsize : ARENA_SIZE < 2 ^ 32 := by decide
  rw [munmap_eq_zero_iff hlen]
  constructor
  · rintro ⟨a, ha, hc⟩
    have haligned : ARENA_SIZE ∣ a.base := by
      rcases List.mem_append.mp ha with ha | ha
      · exact hs.aligned a ha
      · rw [List.mem_singleton.mp ha]
        exact hs.topAligned
    obtain ⟨hbase, hend⟩ := Arena.contains_bounds (by omega) hc
    obtain ⟨i, hi⟩ := hs.topAligned
    obtain ⟨j, hj⟩ := haligned
    have htop := hs.top
    unfold ARENA_SIZE at *
    omega
  · intro hlt
    refine ⟨_, List.mem_append_right _ (List.mem_singleton.mpr rfl), ?_⟩
    rw [Arena.contains_iff hlt, Nat.mod_eq_of_lt (by omega)]
    exact ⟨Nat.le_refl _, Nat.add_le_add_left hle _⟩

end

end EdgeLibos.Mm
