import EdgeLibos.Errno
import EdgeLibos.Mm.ArenaLaws

/-!
# The linear allocator

Arenas in the order they were placed, and the high-water mark where the next
one goes. `mmap` only decides: it returns an address, or how many pages the
caller has to grow linear memory by before it asks again.
-/

namespace EdgeLibos.Mm

open Errno

def PAGE_SIZE : Nat := 64 * 1024

def MAP_ANONYMOUS : BitVec 32 := 0x20
def MAP_PRIVATE : BitVec 32 := 0x02

structure LinearAllocator where
  arenas : List Arena
  highWater : Nat
  deriving DecidableEq, Repr

inductive MmapResult
  | ok (addr : Nat)
  | needGrow (pages : Nat)
  | err (errno : Int)
  deriving DecidableEq, Repr

def FIRST_ARENA_BASE : Nat := 0x00100000

def LinearAllocator.new : LinearAllocator := { arenas := [], highWater := FIRST_ARENA_BASE }

def allocFirst (len align : Nat) : List Arena → Option (Nat × List Arena)
  | [] => none
  | a :: rest =>
    match a.alloc len align with
    | some (addr, a') => some (addr, a' :: rest)
    | none => (allocFirst len align rest).map fun (addr, rest') => (addr, a :: rest')

def LinearAllocator.mmap (mm : LinearAllocator) (curMemSize len : Nat) (_prot flags : BitVec 32)
    (fd off : Int) : MmapResult × LinearAllocator :=
  if len = 0 then (.err (-EINVAL), mm)
  else if fd ≠ -1 then (.err (-ENOSYS), mm)
  else if flags &&& MAP_ANONYMOUS = 0 then (.err (-ENOSYS), mm)
  else if flags &&& MAP_PRIVATE = 0 then (.err (-ENOSYS), mm)
  else if off ≠ 0 then (.err (-ENOSYS), mm)
  else if len > ARENA_SIZE then (.err (-ENOSYS), mm)
  else
    match allocFirst len 8 mm.arenas with
    | some (addr, arenas) => (.ok addr, { mm with arenas })
    | none =>
      let needed := mm.highWater + ARENA_SIZE
      if needed > curMemSize then
        (.needGrow ((needed - curMemSize + PAGE_SIZE - 1) / PAGE_SIZE), mm)
      else
        let base := mm.highWater
        let highWater := (mm.highWater + ARENA_SIZE) % 2 ^ 32
        match (Arena.new base).alloc len 8 with
        | some (addr, arena) => (.ok addr, { arenas := mm.arenas ++ [arena], highWater })
        | none => (.err (-ENOMEM), { mm with highWater })

/-- The first arena that contains the range frees it; what `free` returns is
not looked at. -/
def freeFirst (addr len : Nat) : List Arena → Option (List Arena)
  | [] => none
  | a :: rest =>
    if a.contains addr len then some ((a.free addr len).2 :: rest)
    else (freeFirst addr len rest).map (a :: ·)

def LinearAllocator.munmap (mm : LinearAllocator) (addr len : Nat) : Int × LinearAllocator :=
  if len = 0 then (0, mm)
  else
    match freeFirst addr len mm.arenas with
    | some arenas => (0, { mm with arenas })
    | none => (-EINVAL, mm)

/-- The first arena the range ends at the bump pointer of, with room above it. The sums are
those of 64-bit words. -/
def growFirst (old oldLen extra : Nat) : List Arena → Option (List Arena)
  | [] => none
  | a :: rest =>
    if a.base ≤ old ∧ (old - a.base + oldLen) % 2 ^ 64 = a.used ∧ (a.used + extra) % 2 ^ 64 ≤ ARENA_SIZE then
      some ({ a with used := (a.used + extra) % 2 ^ 64 } :: rest)
    else (growFirst old oldLen extra rest).map (a :: ·)

def LinearAllocator.growInPlace (mm : LinearAllocator) (old oldLen newLen : Nat) :
    Except Int Nat × LinearAllocator :=
  if newLen ≤ oldLen then (.ok old, mm)
  else
    match growFirst old oldLen (newLen - oldLen) mm.arenas with
    | some arenas => (.ok old, { mm with arenas })
    | none => (.error (-ENOMEM), mm)

-- ---------------------------------------------------------------------------
-- What each call does, once and for all
-- ---------------------------------------------------------------------------

theorem forall_mem_replace {P : Arena → Prop} (h : ∀ b ∈ pre ++ a :: post, P b) (ha' : P a') :
    ∀ b ∈ pre ++ a' :: post, P b := by
  rw [List.forall_mem_append, List.forall_mem_cons] at h ⊢
  exact ⟨h.1, ha', h.2.2⟩

theorem allocFirst_some (h : allocFirst len align l = some (addr, l')) :
    ∃ pre a a' post, l = pre ++ a :: post ∧ l' = pre ++ a' :: post ∧
      a.alloc len align = some (addr, a') := by
  induction l generalizing addr l' with
  | nil => cases h
  | cons a rest ih =>
    unfold allocFirst at h
    split at h
    · rename_i addr' a' ha
      obtain ⟨rfl, rfl⟩ := Prod.mk.inj (Option.some.inj h)
      exact ⟨[], a, a', rest, rfl, rfl, ha⟩
    · obtain ⟨⟨addr', rest'⟩, hr, h⟩ := Option.map_eq_some_iff.mp h
      obtain ⟨rfl, rfl⟩ := Prod.mk.inj h
      obtain ⟨pre, b, b', post, rfl, rfl, hb⟩ := ih hr
      exact ⟨a :: pre, b, b', post, rfl, rfl, hb⟩

theorem freeFirst_some (h : freeFirst addr len l = some l') :
    ∃ pre a post, l = pre ++ a :: post ∧ l' = pre ++ (a.free addr len).2 :: post ∧
      a.contains addr len = true := by
  induction l generalizing l' with
  | nil => cases h
  | cons a rest ih =>
    unfold freeFirst at h
    split at h
    · rename_i ha
      obtain rfl := Option.some.inj h
      exact ⟨[], a, rest, rfl, rfl, ha⟩
    · obtain ⟨rest', hr, rfl⟩ := Option.map_eq_some_iff.mp h
      obtain ⟨pre, b, post, rfl, rfl, hb⟩ := ih hr
      exact ⟨a :: pre, b, post, rfl, rfl, hb⟩

theorem growFirst_some (h : growFirst old oldLen extra l = some l') :
    ∃ pre a post, l = pre ++ a :: post ∧ l' = pre ++ { a with used := (a.used + extra) % 2 ^ 64 } :: post ∧
      a.base ≤ old ∧ (old - a.base + oldLen) % 2 ^ 64 = a.used ∧ (a.used + extra) % 2 ^ 64 ≤ ARENA_SIZE := by
  induction l generalizing l' with
  | nil => cases h
  | cons a rest ih =>
    unfold growFirst at h
    split at h
    · rename_i ha
      obtain rfl := Option.some.inj h
      exact ⟨[], a, rest, rfl, rfl, ha⟩
    · obtain ⟨rest', hr, rfl⟩ := Option.map_eq_some_iff.mp h
      obtain ⟨pre, b, post, rfl, rfl, hb⟩ := ih hr
      exact ⟨a :: pre, b, post, rfl, rfl, hb⟩

theorem growFirst_isSome (ha : a ∈ l) (hbase : a.base ≤ old) (hend : (old - a.base + oldLen) % 2 ^ 64 = a.used)
    (hroom : (a.used + extra) % 2 ^ 64 ≤ ARENA_SIZE) : (growFirst old oldLen extra l).isSome := by
  induction l with
  | nil => cases ha
  | cons b rest ih =>
    unfold growFirst
    split
    · rfl
    · rename_i hno
      rcases List.mem_cons.mp ha with rfl | ha
      · exact absurd ⟨hbase, hend, hroom⟩ hno
      · rw [Option.isSome_map]
        exact ih ha

/-- A successful `mmap` took its range from an arena that was there, or from
a new one placed at the high-water mark. Any other result leaves the
allocator alone. -/
theorem LinearAllocator.mmap_cases {mm : LinearAllocator}
    (h : mm.mmap cur len prot flags fd off = (r, mm')) :
    (∃ addr pre a a' post, r = .ok addr ∧ 0 < len ∧ len ≤ ARENA_SIZE ∧
      mm.arenas = pre ++ a :: post ∧ a.alloc len 8 = some (addr, a') ∧
      mm' = { mm with arenas := pre ++ a' :: post }) ∨
    (r = .ok (mm.highWater % 2 ^ 32) ∧ 0 < len ∧ len ≤ ARENA_SIZE ∧
      allocFirst len 8 mm.arenas = none ∧ mm.highWater + ARENA_SIZE ≤ cur ∧
      mm' = { arenas := mm.arenas ++ [{ base := mm.highWater, used := len, freeList := [] }],
              highWater := (mm.highWater + ARENA_SIZE) % 2 ^ 32 }) ∨
    ((∀ addr, r ≠ .ok addr) ∧ mm' = mm) := by
  have same {e : Int} (h : (MmapResult.err e, mm) = (r, mm')) : (∀ addr, r ≠ .ok addr) ∧ mm' = mm := by
    obtain ⟨rfl, rfl⟩ := Prod.mk.inj h
    exact ⟨by simp, rfl⟩
  unfold LinearAllocator.mmap at h
  iterate 6
    split at h
    · exact .inr (.inr (same h))
  rename_i hlen _ _ _ _ hsize
  have hpos : 0 < len := Nat.pos_of_ne_zero hlen
  have hle : len ≤ ARENA_SIZE := Nat.not_lt.mp hsize
  split at h
  · rename_i addr arenas ha
    obtain ⟨rfl, rfl⟩ := Prod.mk.inj h
    obtain ⟨pre, a, a', post, hl, rfl, hal⟩ := allocFirst_some ha
    exact .inl ⟨addr, pre, a, a', post, rfl, hpos, hle, hl, hal, rfl⟩
  · rename_i hnone
    simp only at h
    split at h
    · obtain ⟨rfl, rfl⟩ := Prod.mk.inj h
      exact .inr (.inr ⟨by simp, rfl⟩)
    · rename_i hroom
      rw [Arena.alloc_new _ hle] at h
      obtain ⟨rfl, rfl⟩ := Prod.mk.inj h
      exact .inr (.inl ⟨rfl, hpos, hle, hnone, Nat.not_lt.mp hroom, rfl⟩)

theorem LinearAllocator.munmap_cases {mm : LinearAllocator}
    (h : mm.munmap addr len = (r, mm')) :
    (∃ pre a post, r = 0 ∧ 0 < len ∧ mm.arenas = pre ++ a :: post ∧
      a.contains addr len = true ∧
      mm' = { mm with arenas := pre ++ (a.free addr len).2 :: post }) ∨
    ((len = 0 ∨ r = -EINVAL ∧ freeFirst addr len mm.arenas = none) ∧ mm' = mm) := by
  unfold LinearAllocator.munmap at h
  split at h
  · rename_i h0
    obtain ⟨rfl, rfl⟩ := Prod.mk.inj h
    exact .inr ⟨.inl h0, rfl⟩
  · rename_i h0
    split at h
    · rename_i arenas ha
      obtain ⟨rfl, rfl⟩ := Prod.mk.inj h
      obtain ⟨pre, a, post, hl, rfl, hc⟩ := freeFirst_some ha
      exact .inl ⟨pre, a, post, rfl, Nat.pos_of_ne_zero h0, hl, hc, rfl⟩
    · rename_i hn
      obtain ⟨rfl, rfl⟩ := Prod.mk.inj h
      exact .inr ⟨.inr ⟨rfl, hn⟩, rfl⟩

theorem LinearAllocator.growInPlace_cases {mm : LinearAllocator}
    (h : mm.growInPlace old oldLen newLen = (r, mm')) :
    (∃ pre a post, r = .ok old ∧ oldLen < newLen ∧ mm.arenas = pre ++ a :: post ∧
      a.base ≤ old ∧ (old - a.base + oldLen) % 2 ^ 64 = a.used ∧
      (a.used + (newLen - oldLen)) % 2 ^ 64 ≤ ARENA_SIZE ∧
      mm' = { mm with arenas := pre ++ { a with used := (a.used + (newLen - oldLen)) % 2 ^ 64 } :: post }) ∨
    ((newLen ≤ oldLen ∧ r = .ok old ∨ r = .error (-ENOMEM)) ∧ mm' = mm) := by
  unfold LinearAllocator.growInPlace at h
  split at h
  · rename_i hle
    obtain ⟨rfl, rfl⟩ := Prod.mk.inj h
    exact .inr ⟨.inl ⟨hle, rfl⟩, rfl⟩
  · rename_i hlt
    split at h
    · rename_i arenas ha
      obtain ⟨rfl, rfl⟩ := Prod.mk.inj h
      obtain ⟨pre, a, post, hl, rfl, h1, h2, h3⟩ := growFirst_some ha
      exact .inl ⟨pre, a, post, rfl, Nat.not_le.mp hlt, hl, h1, h2, h3, rfl⟩
    · obtain ⟨rfl, rfl⟩ := Prod.mk.inj h
      exact .inr ⟨.inr rfl, rfl⟩

/-- Neither sum of a `growInPlace` wraps. -/
def LinearAllocator.NoWrap (mm : LinearAllocator) (old oldLen newLen : Nat) : Prop :=
  ∀ a ∈ mm.arenas, a.base ≤ old → (old - a.base + oldLen) % 2 ^ 64 = a.used →
    old - a.base + oldLen = a.used ∧ a.used + (newLen - oldLen) < 2 ^ 64

/-- The words of a system call are half as long as the sums. -/
theorem LinearAllocator.noWrap_of_words {mm : LinearAllocator} (hused : ∀ a ∈ mm.arenas, a.used ≤ ARENA_SIZE)
    (hold : old < 2 ^ 32) (holdLen : oldLen < 2 ^ 63) (hnewLen : newLen < 2 ^ 63) :
    mm.NoWrap old oldLen newLen := by
  intro a ha _ hend
  rw [Nat.mod_eq_of_lt (by omega)] at hend
  have hle := hused a ha
  have hsize : ARENA_SIZE = 262144 := rfl
  exact ⟨hend, by omega⟩

theorem LinearAllocator.growInPlace_exact {mm : LinearAllocator} (hfits : mm.NoWrap old oldLen newLen)
    (h : mm.growInPlace old oldLen newLen = (r, mm')) :
    (∃ pre a post, r = .ok old ∧ oldLen < newLen ∧ mm.arenas = pre ++ a :: post ∧
      a.base ≤ old ∧ old - a.base + oldLen = a.used ∧ a.used + (newLen - oldLen) ≤ ARENA_SIZE ∧
      mm' = { mm with arenas := pre ++ { a with used := a.used + (newLen - oldLen) } :: post }) ∨
    ((newLen ≤ oldLen ∧ r = .ok old ∨ r = .error (-ENOMEM)) ∧ mm' = mm) := by
  rcases growInPlace_cases h with ⟨pre, a, post, hr, hlt, hl, hbase, hend, hroom, rfl⟩ | hsame
  · obtain ⟨hend, hsum⟩ := hfits a (by simp [hl]) hbase hend
    rw [Nat.mod_eq_of_lt hsum] at hroom ⊢
    exact .inl ⟨pre, a, post, hr, hlt, hl, hbase, hend, hroom, rfl⟩
  · exact .inr hsame

end EdgeLibos.Mm
