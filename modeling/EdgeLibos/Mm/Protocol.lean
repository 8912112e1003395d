import EdgeLibos.Mm.LinearAllocator
import Mathlib.Order.Bounds.Basic

/-!
# The two-phase `mmap`

The allocator cannot grow memory itself. When no arena has room and the next
one would not fit, it asks for pages and changes nothing. A caller that grows
memory by just that many and asks again gets its region, in a new arena.
-/

namespace EdgeLibos.Mm

open Errno

def ValidRequest (len : Nat) (flags : BitVec 32) (fd off : Int) : Prop :=
  0 < len ∧ len ≤ ARENA_SIZE ∧ flags &&& MAP_ANONYMOUS ≠ 0 ∧ flags &&& MAP_PRIVATE ≠ 0 ∧
    fd = -1 ∧ off = 0

instance (len : Nat) (flags : BitVec 32) (fd off : Int) : Decidable (ValidRequest len flags fd off) :=
  inferInstanceAs (Decidable (_ ∧ _ ∧ _ ∧ _ ∧ _ ∧ _))

theorem ValidRequest.word (h : ValidRequest len flags fd off) : len < 2 ^ 63 := by
  have hsize : ARENA_SIZE < 2 ^ 63 := by decide
  exact Nat.lt_of_le_of_lt h.2.1 hsize

def LinearAllocator.placeNext (mm : LinearAllocator) (len : Nat) : LinearAllocator :=
  { arenas := mm.arenas ++ [{ base := mm.highWater, used := len, freeList := [] }]
    highWater := (mm.highWater + ARENA_SIZE) % 2 ^ 32 }

section
variable {mm mm' : LinearAllocator} {cur len : Nat} {prot flags : BitVec 32} {fd off : Int}

theorem mmap_invalid (h : ¬ ValidRequest len flags fd off) :
    ∃ e, e < 0 ∧ ∀ (mm : LinearAllocator) cur,
      mm.mmap cur len prot flags fd off = (.err e, mm) := by
  unfold LinearAllocator.mmap
  by_cases h1 : len = 0
  · exact ⟨-EINVAL, by decide, fun _ _ => if_pos h1⟩
  simp only [if_neg h1]
  by_cases h2 : fd ≠ -1
  · exact ⟨-ENOSYS, by decide, fun _ _ => if_pos h2⟩
  simp only [if_neg h2]
  by_cases h3 : flags &&& MAP_ANONYMOUS = 0
  · exact ⟨-ENOSYS, by decide, fun _ _ => if_pos h3⟩
  simp only [if_neg h3]
  by_cases h4 : flags &&& MAP_PRIVATE = 0
  · exact ⟨-ENOSYS, by decide, fun _ _ => if_pos h4⟩
  simp only [if_neg h4]
  by_cases h5 : off ≠ 0
  · exact ⟨-ENOSYS, by decide, fun _ _ => if_pos h5⟩
  simp only [if_neg h5]
  by_cases h6 : len > ARENA_SIZE
  · exact ⟨-ENOSYS, by decide, fun _ _ => if_pos h6⟩
  · exact absurd ⟨Nat.pos_of_ne_zero h1, Nat.not_lt.mp h6, h3, h4, not_not.mp h2, not_not.mp h5⟩ h

theorem mmap_hit (h : ValidRequest len flags fd off)
    (hsome : allocFirst len 8 mm.arenas = some (addr, arenas)) :
    mm.mmap cur len prot flags fd off = (.ok addr, { mm with arenas }) := by
  obtain ⟨hpos, hle, hanon, hpriv, rfl, rfl⟩ := h
  unfold LinearAllocator.mmap
  rw [if_neg (Nat.ne_of_gt hpos), if_neg (by simp), if_neg hanon, if_neg hpriv, if_neg (by simp),
    if_neg (Nat.not_lt.mpr hle), hsome]

theorem mmap_grow (h : ValidRequest len flags fd off) (hnone : allocFirst len 8 mm.arenas = none)
    (hcur : cur < mm.highWater + ARENA_SIZE) :
    mm.mmap cur len prot flags fd off =
      (.needGrow ((mm.highWater + ARENA_SIZE - cur + PAGE_SIZE - 1) / PAGE_SIZE), mm) := by
  obtain ⟨hpos, hle, hanon, hpriv, rfl, rfl⟩ := h
  unfold LinearAllocator.mmap
  rw [if_neg (Nat.ne_of_gt hpos), if_neg (by simp), if_neg hanon, if_neg hpriv, if_neg (by simp),
    if_neg (Nat.not_lt.mpr hle), hnone]
  exact if_pos hcur

theorem mmap_fresh (h : ValidRequest len flags fd off) (hnone : allocFirst len 8 mm.arenas = none)
    (hroom : mm.highWater + ARENA_SIZE ≤ cur) :
    mm.mmap cur len prot flags fd off = (.ok (mm.highWater % 2 ^ 32), mm.placeNext len) := by
  obtain ⟨hpos, hle, hanon, hpriv, rfl, rfl⟩ := h
  unfold LinearAllocator.mmap
  rw [if_neg (Nat.ne_of_gt hpos), if_neg (by simp), if_neg hanon, if_neg hpriv, if_neg (by simp),
    if_neg (Nat.not_lt.mpr hle), hnone]
  simp only [Arena.alloc_new _ hle]
  exact if_neg (Nat.not_lt.mpr hroom)

/-- Growth is asked for when every arena is full and the next one does not fit. -/
theorem mmap_needGrow (h : ValidRequest len flags fd off)
    (hr : mm.mmap cur len prot flags fd off = (.needGrow p, mm')) :
    allocFirst len 8 mm.arenas = none ∧ cur < mm.highWater + ARENA_SIZE ∧
      p = (mm.highWater + ARENA_SIZE - cur + PAGE_SIZE - 1) / PAGE_SIZE ∧ mm' = mm := by
  cases ha : allocFirst len 8 mm.arenas with
  | some x =>
    rw [mmap_hit h ha] at hr
    cases hr
  | none =>
    by_cases hcur : cur < mm.highWater + ARENA_SIZE
    · rw [mmap_grow h ha hcur] at hr
      cases hr
      exact ⟨rfl, hcur, rfl, rfl⟩
    · rw [mmap_fresh h ha (Nat.not_lt.mp hcur)] at hr
      cases hr

theorem mmap_ok_valid (hr : mm.mmap cur len prot flags fd off = (.ok addr, mm')) :
    ValidRequest len flags fd off := by
  by_contra hno
  obtain ⟨e, -, herr⟩ := mmap_invalid hno
  rw [herr] at hr
  cases hr

/-- An address is that of the first arena with room, or of the next arena when there is none. -/
theorem mmap_answered (hr : mm.mmap cur len prot flags fd off = (.ok addr, mm')) :
    (∃ arenas, allocFirst len 8 mm.arenas = some (addr, arenas) ∧ mm' = { mm with arenas }) ∨
      (allocFirst len 8 mm.arenas = none ∧ mm.highWater + ARENA_SIZE ≤ cur ∧
        addr = mm.highWater % 2 ^ 32 ∧ mm' = mm.placeNext len) := by
  have h := mmap_ok_valid hr
  cases ha : allocFirst len 8 mm.arenas with
  | some x =>
    rw [mmap_hit h ha] at hr
    cases hr
    exact .inl ⟨_, rfl, rfl⟩
  | none =>
    by_cases hcur : cur < mm.highWater + ARENA_SIZE
    · rw [mmap_grow h ha hcur] at hr
      cases hr
    · rw [mmap_fresh h ha (Nat.not_lt.mp hcur)] at hr
      cases hr
      exact .inr ⟨rfl, Nat.not_lt.mp hcur, rfl, rfl⟩

/-- Whenever a request is answered with an address, the same bytes are reserved. -/
theorem mmap_ok_unique (h₁ : mm.mmap cur len prot flags fd off = (.ok addr, mm₁))
    (h₂ : mm.mmap cur' len prot flags fd off = (.ok addr', mm₂)) : mm₂ = mm₁ := by
  rcases mmap_answered h₁ with ⟨l₁, ha₁, rfl⟩ | ⟨ha₁, -, -, rfl⟩
  · rcases mmap_answered h₂ with ⟨l₂, ha₂, rfl⟩ | ⟨ha₂, -, -, rfl⟩
    · cases ha₁.symm.trans ha₂
      rfl
    · cases ha₁.symm.trans ha₂
  · rcases mmap_answered h₂ with ⟨l₂, ha₂, rfl⟩ | ⟨-, -, -, rfl⟩
    · cases ha₁.symm.trans ha₂
    · rfl

theorem mmap_not_err (h : ValidRequest len flags fd off) (e : Int) :
    (mm.mmap cur len prot flags fd off).1 ≠ .err e := by
  cases ha : allocFirst len 8 mm.arenas with
  | some x =>
    rw [mmap_hit h ha]
    exact MmapResult.noConfusion
  | none =>
    by_cases hcur : cur < mm.highWater + ARENA_SIZE
    · rw [mmap_grow h ha hcur]
      exact MmapResult.noConfusion
    · rw [mmap_fresh h ha (Nat.not_lt.mp hcur)]
      exact MmapResult.noConfusion

end

/-- Rounding the missing bytes up to pages gives the fewest that are enough. -/
theorem pages_least (h : cur < needed) :
    IsLeast { p | needed ≤ cur + p * PAGE_SIZE } ((needed - cur + PAGE_SIZE - 1) / PAGE_SIZE) := by
  unfold PAGE_SIZE
  constructor
  · simp only [Set.mem_ofPred_eq]
    omega
  · intro p hp
    simp only [Set.mem_ofPred_eq] at hp
    omega

theorem needGrow_protocol (mm : LinearAllocator) (hwater : mm.highWater + ARENA_SIZE < 2 ^ 32)
    (cur len : Nat) (prot flags : BitVec 32) (fd off : Int) :
    (ValidRequest len flags fd off → ∀ p mm',
      mm.mmap cur len prot flags fd off = (.needGrow p, mm') →
        mm' = mm ∧ 1 ≤ p ∧ IsLeast { p | mm.highWater + ARENA_SIZE ≤ cur + p * PAGE_SIZE } p ∧
          ∃ addr mm'', mm'.mmap (cur + p * PAGE_SIZE) len prot flags fd off = (.ok addr, mm'') ∧
            addr + len ≤ cur + p * PAGE_SIZE) ∧
    ((∃ e, (mm.mmap cur len prot flags fd off).1 = .err e) → ¬ ValidRequest len flags fd off) := by
  refine ⟨fun hv p mm' h => ?_, fun ⟨e, he⟩ hv => mmap_not_err hv e he⟩
  obtain ⟨hnone, hcur, rfl, rfl⟩ := mmap_needGrow hv h
  have hleast := pages_least hcur
  generalize (mm'.highWater + ARENA_SIZE - cur + PAGE_SIZE - 1) / PAGE_SIZE = p at h hleast ⊢
  have henough : mm'.highWater + ARENA_SIZE ≤ cur + p * PAGE_SIZE := hleast.1
  have hpos : 1 ≤ p := by
    by_contra hzero
    obtain rfl : p = 0 := by omega
    omega
  refine ⟨rfl, hpos, hleast, _, _, mmap_fresh hv hnone henough, ?_⟩
  rw [Nat.mod_eq_of_lt (by omega)]
  have hlen := hv.2.1
  omega

def fullArena : LinearAllocator :=
  { arenas := [{ base := 0x100000, used := ARENA_SIZE, freeList := [] }], highWater := 0x140000 }

theorem needGrow_protocol_full :
    fullArena.highWater + ARENA_SIZE < 2 ^ 32 ∧
    fullArena.mmap 0x16ffff 64 3#32 0x22#32 (-1) 0 = (.needGrow 2, fullArena) ∧
    IsLeast { p | 0x180000 ≤ 0x16ffff + p * PAGE_SIZE } 2 ∧
    ∃ addr mm'', fullArena.mmap (0x16ffff + 2 * PAGE_SIZE) 64 3#32 0x22#32 (-1) 0 = (.ok addr, mm'') ∧
      addr + 64 ≤ 0x16ffff + 2 * PAGE_SIZE := by
  have hwater : fullArena.highWater + ARENA_SIZE < 2 ^ 32 := by decide
  have hvalid : ValidRequest 64 0x22#32 (-1) 0 := by decide
  have hask : fullArena.mmap 0x16ffff 64 3#32 0x22#32 (-1) 0 = (.needGrow 2, fullArena) := by decide
  obtain ⟨-, -, hleast, hretry⟩ :=
    (needGrow_protocol fullArena hwater 0x16ffff 64 3#32 0x22#32 (-1) 0).1 hvalid 2 _ hask
  exact ⟨hwater, hask, hleast, hretry⟩

end EdgeLibos.Mm
