import EdgeLibos.Kernel
import EdgeLibos.Mm.Layout

/-!
# Memory system calls

`mmap`, `munmap` and `mremap` on the kernel, with the argument words the guest
passes. `mmap` asks the allocator twice: the first answer only decides whether
memory has to grow, and when it was already an address the region it reserved
is not given back.
-/

namespace EdgeLibos.Sys

open Errno Mm

/-- Of a word, which has 64 bits with the sign. -/
def usizeTryFrom (w : Int) : Option Nat := if 0 ≤ w ∧ w.toNat < 2 ^ 63 then some w.toNat else none

def u32TryFrom (w : Int) : Option Nat := if 0 ≤ w ∧ w < 2 ^ 32 then some w.toNat else none

/-- `bytes[start..end].fill(0)` when the range is inside memory; else nothing. -/
def zeroFill (mem : LinearMemory) (start len : Nat) : LinearMemory :=
  if h : start + len ≤ mem.size then mem.write start (List.replicate len 0) (by simpa using h)
  else mem

def growFor (decision : MmapResult) (mem : LinearMemory) : Option LinearMemory :=
  match decision with
  | .needGrow pages => mem.grow pages
  | _ => some mem

/-- The second decision, and the zero fill of what it returned. -/
def mmapPlace (k : Kernel) (mem : LinearMemory) (len : Nat) (prot flags : BitVec 32)
    (fd off : Int) : Int × Kernel :=
  let (result, mm) := k.mm.mmap mem.size len prot flags fd off
  match result with
  | .ok addr => (addr, { k with mm, memory := some (.owned (zeroFill mem addr len)) })
  | .err e => (e, { k with mm, memory := some (.owned mem) })
  | .needGrow _ => (-ENOMEM, { k with mm, memory := some (.owned mem) })

def mmap (k : Kernel) (_addr len prot flags fd off : Int) : Int × Kernel :=
  match usizeTryFrom len with
  | none => (-EINVAL, k)
  | some len =>
    if len = 0 then (-EINVAL, k)
    else
      match k.ownedMemory with
      | .error e => (e, k)
      | .ok mem =>
        let (decision, mm) := k.mm.mmap mem.size len (.ofInt 32 prot) (.ofInt 32 flags) fd off
        let k := { k with mm }
        match growFor decision mem with
        | none => (-ENOMEM, k)
        | some mem => mmapPlace k mem len (.ofInt 32 prot) (.ofInt 32 flags) fd off

def munmap (k : Kernel) (addr len : Int) : Int × Kernel :=
  match u32TryFrom addr with
  | none => (-EINVAL, k)
  | some addr =>
    match usizeTryFrom len with
    | none => (-EINVAL, k)
    | some len =>
      let (r, mm) := k.mm.munmap addr len
      (r, { k with mm })

def MREMAP_MAYMOVE : BitVec 32 := 1
def MREMAP_FIXED : BitVec 32 := 2

def mremap (k : Kernel) (old oldLen newLen flags newAddr : Int) : Int × Kernel :=
  match u32TryFrom old with
  | none => (-EINVAL, k)
  | some old =>
    match usizeTryFrom oldLen with
    | none => (-EINVAL, k)
    | some oldLen =>
      if oldLen = 0 then (-EINVAL, k)
      else
        match usizeTryFrom newLen with
        | none => (-EINVAL, k)
        | some newLen =>
          if newLen = 0 then (-EINVAL, k)
          else if BitVec.ofInt 32 flags &&& (MREMAP_MAYMOVE ||| MREMAP_FIXED) ≠ 0 then (-ENOSYS, k)
          else if BitVec.ofInt 32 newAddr ≠ 0 then (-ENOSYS, k)
          else if newLen ≤ oldLen then (old, k)
          else
            match k.mm.growInPlace old oldLen newLen with
            | (.ok addr, mm) => (addr, { k with mm })
            | (.error e, mm) => (e, { k with mm })

-- ---------------------------------------------------------------------------
-- What each call does
-- ---------------------------------------------------------------------------

theorem usizeTryFrom_some (h : usizeTryFrom w = some n) : w = n := by
  unfold usizeTryFrom at h
  split at h
  · obtain rfl := Option.some.inj h
    omega
  · cases h

theorem u32TryFrom_some (h : u32TryFrom w = some n) : w = n := by
  unfold u32TryFrom at h
  split at h
  · obtain rfl := Option.some.inj h
    omega
  · cases h

theorem usizeTryFrom_natCast {n : Nat} (h : n < 2 ^ 63) : usizeTryFrom (n : Int) = some n := by
  rw [usizeTryFrom, if_pos ⟨Int.natCast_nonneg n, h⟩, Int.toNat_natCast]

theorem usizeTryFrom_lt (h : usizeTryFrom w = some n) : n < 2 ^ 63 := by
  unfold usizeTryFrom at h
  split at h
  · obtain rfl := Option.some.inj h
    omega
  · cases h

theorem u32TryFrom_lt (h : u32TryFrom w = some n) : n < 2 ^ 32 := by
  unfold u32TryFrom at h
  split at h
  · obtain rfl := Option.some.inj h
    omega
  · cases h

theorem u32TryFrom_natCast {a : Nat} (h : a < 2 ^ 32) : u32TryFrom (a : Int) = some a := by
  have hlt : (a : Int) < 2 ^ 32 := by exact_mod_cast h
  rw [u32TryFrom, if_pos ⟨Int.natCast_nonneg a, hlt⟩, Int.toNat_natCast]

@[simp] theorem zeroFill_size (mem : LinearMemory) (start len : Nat) :
    (zeroFill mem start len).size = mem.size := by
  unfold zeroFill
  split <;> simp

@[simp] theorem zeroFill_maxPages (mem : LinearMemory) (start len : Nat) :
    (zeroFill mem start len).maxPages = mem.maxPages := by
  unfold zeroFill
  split <;> simp

theorem zeroFill_data (mem : LinearMemory) (h : start + len ≤ mem.size) :
    (zeroFill mem start len).data = LinearMemory.splice start (List.replicate len 0) mem.data := by
  simp only [zeroFill, dif_pos h, LinearMemory.write]

theorem growFor_size (h : growFor d mem = some mem') :
    mem.size ≤ mem'.size ∧ mem'.maxPages = mem.maxPages := by
  unfold growFor at h
  split at h
  · exact ⟨by rw [LinearMemory.grow_size h]; omega, (LinearMemory.grow_some h).2.1⟩
  · obtain rfl := Option.some.inj h
    exact ⟨Nat.le_refl _, rfl⟩

theorem mmap_err_neg {mm : LinearAllocator}
    (h : mm.mmap cur len prot flags fd off = (.err e, mm')) : e < 0 := by
  unfold LinearAllocator.mmap at h
  iterate 6
    split at h
    · obtain ⟨he, -⟩ := Prod.mk.inj h
      obtain rfl := MmapResult.err.inj he
      decide
  rename_i hsize
  split at h
  · cases (Prod.mk.inj h).1
  · simp only at h
    split at h
    · cases (Prod.mk.inj h).1
    · rw [Arena.alloc_new _ (Nat.not_lt.mp hsize)] at h
      cases (Prod.mk.inj h).1

section
variable {k : Kernel} {mem mem' : LinearMemory} {n : Nat} {addr prot flags fd off : Int}
  {d : MmapResult} {mm₁ : LinearAllocator}

theorem mmap_eq_place (hm : k.memory = some (.owned mem)) (hn : 0 < n) (hword : n < 2 ^ 63)
    (hd : k.mm.mmap mem.size n (.ofInt 32 prot) (.ofInt 32 flags) fd off = (d, mm₁))
    (hg : growFor d mem = some mem') :
    mmap k addr n prot flags fd off =
      mmapPlace { k with mm := mm₁ } mem' n (.ofInt 32 prot) (.ofInt 32 flags) fd off := by
  have hown : k.ownedMemory = .ok mem := by simp [Kernel.ownedMemory, ownedOf, hm]
  simp only [mmap, usizeTryFrom_natCast hword, if_neg (Nat.ne_of_gt hn), hown, hd, hg]

theorem mmap_eq_full (hm : k.memory = some (.owned mem)) (hn : 0 < n) (hword : n < 2 ^ 63)
    (hd : k.mm.mmap mem.size n (.ofInt 32 prot) (.ofInt 32 flags) fd off = (d, mm₁))
    (hg : growFor d mem = none) :
    mmap k addr n prot flags fd off = (-ENOMEM, { k with mm := mm₁ }) := by
  have hown : k.ownedMemory = .ok mem := by simp [Kernel.ownedMemory, ownedOf, hm]
  simp only [mmap, usizeTryFrom_natCast hword, if_neg (Nat.ne_of_gt hn), hown, hd, hg]

end

/-- Either nothing happened, or the allocator was asked twice and the answer
of the second call was the result. -/
theorem mmap_cases {k k' : Kernel} (h : mmap k addr len prot flags fd off = (r, k')) :
    (r < 0 ∧ k' = k) ∨
    ∃ (n : Nat) (mem mem' : LinearMemory) (d res : MmapResult) (mm₁ mm₂ : LinearAllocator),
      len = n ∧ 0 < n ∧ k.memory = some (.owned mem) ∧
      k.mm.mmap mem.size n (.ofInt 32 prot) (.ofInt 32 flags) fd off = (d, mm₁) ∧
      growFor d mem = some mem' ∧
      mm₁.mmap mem'.size n (.ofInt 32 prot) (.ofInt 32 flags) fd off = (res, mm₂) ∧
      ((∃ a : Nat, res = .ok a ∧ r = a ∧
          k' = { k with mm := mm₂, memory := some (.owned (zeroFill mem' a n)) }) ∨
        ((∀ a, res ≠ .ok a) ∧ r < 0 ∧
          k' = { k with mm := mm₂, memory := some (.owned mem') })) := by
  unfold mmap at h
  split at h
  · obtain ⟨rfl, rfl⟩ := Prod.mk.inj h
    exact .inl ⟨by decide, rfl⟩
  rename_i n hn
  split at h
  · obtain ⟨rfl, rfl⟩ := Prod.mk.inj h
    exact .inl ⟨by decide, rfl⟩
  rename_i hpos
  split at h
  · rename_i e he
    obtain ⟨rfl, rfl⟩ := Prod.mk.inj h
    refine .inl ⟨?_, rfl⟩
    unfold Kernel.ownedMemory ownedOf at he
    split at he <;> cases he <;> decide
  rename_i mem hmem
  cases hd : k.mm.mmap mem.size n (.ofInt 32 prot) (.ofInt 32 flags) fd off with
  | mk d mm₁ =>
    simp only [hd] at h
    split at h
    · -- Growing failed, so the first answer was not an address.
      rename_i hg
      obtain ⟨rfl, rfl⟩ := Prod.mk.inj h
      refine .inl ⟨by decide, ?_⟩
      cases d with
      | needGrow p => rw [LinearAllocator.mmap_not_ok hd (by simp)]
      | ok a => cases hg
      | err e => cases hg
    · rename_i mem' hg
      refine .inr ?_
      unfold mmapPlace at h
      cases hr : mm₁.mmap mem'.size n (.ofInt 32 prot) (.ofInt 32 flags) fd off with
      | mk res mm₂ =>
        refine ⟨n, mem, mem', d, res, mm₁, mm₂, usizeTryFrom_some hn, Nat.pos_of_ne_zero hpos,
          Kernel.ownedMemory_ok hmem, hd, hg, hr, ?_⟩
        cases res with
        | ok a =>
          simp only [hr] at h
          obtain ⟨rfl, rfl⟩ := Prod.mk.inj h
          exact .inl ⟨a, rfl, rfl, rfl⟩
        | err e =>
          simp only [hr] at h
          obtain ⟨rfl, rfl⟩ := Prod.mk.inj h
          exact .inr ⟨by simp, mmap_err_neg hr, rfl⟩
        | needGrow p =>
          simp only [hr] at h
          obtain ⟨rfl, rfl⟩ := Prod.mk.inj h
          exact .inr ⟨by simp, by decide, rfl⟩

theorem munmap_of_words {k : Kernel} (ha : u32TryFrom addr = some a) (hn : usizeTryFrom len = some n)
    (h : k.mm.munmap a n = (r, mm')) : munmap k addr len = (r, { k with mm := mm' }) := by
  simp only [munmap, ha, hn, h]

theorem munmap_eq {k : Kernel} {a n : Nat} (ha : a < 2 ^ 32) (hn : n < 2 ^ 63) (h : k.mm.munmap a n = (r, mm')) :
    munmap k a n = (r, { k with mm := mm' }) :=
  munmap_of_words (u32TryFrom_natCast ha) (usizeTryFrom_natCast hn) h

theorem munmap_cases {k k' : Kernel} (h : munmap k addr len = (r, k')) :
    (r < 0 ∧ k' = k) ∨
    ∃ (a n : Nat) (mm' : LinearAllocator), addr = a ∧ len = n ∧ k.mm.munmap a n = (r, mm') ∧
      k' = { k with mm := mm' } := by
  unfold munmap at h
  split at h
  · obtain ⟨rfl, rfl⟩ := Prod.mk.inj h
    exact .inl ⟨by decide, rfl⟩
  rename_i a ha
  split at h
  · obtain ⟨rfl, rfl⟩ := Prod.mk.inj h
    exact .inl ⟨by decide, rfl⟩
  rename_i n hn
  obtain ⟨rfl, rfl⟩ := Prod.mk.inj h
  exact .inr ⟨a, n, _, u32TryFrom_some ha, usizeTryFrom_some hn, rfl, rfl⟩

theorem noWrap_of_tryFrom {mm : LinearAllocator} (hused : ∀ a ∈ mm.arenas, a.used ≤ ARENA_SIZE)
    (ho : u32TryFrom old = some o) (hn : usizeTryFrom oldLen = some n) (hn' : usizeTryFrom newLen = some n') :
    mm.NoWrap o n n' :=
  LinearAllocator.noWrap_of_words hused (u32TryFrom_lt ho) (usizeTryFrom_lt hn) (usizeTryFrom_lt hn')

/-- A call is refused, leaves a range that is long enough as it is, or grows it in place. -/
theorem mremap_cases {k k' : Kernel} (h : mremap k old oldLen newLen flags newAddr = (r, k')) :
    (r < 0 ∧ k' = k) ∨
    ∃ o n n' : Nat, old = o ∧ oldLen = n ∧ newLen = n' ∧ 0 < n' ∧ 0 ≤ r ∧
      ((n' ≤ n ∧ k' = k) ∨
        (n < n' ∧ ((∀ a ∈ k.mm.arenas, a.used ≤ ARENA_SIZE) → k.mm.NoWrap o n n') ∧
          ∃ addr mm', k.mm.growInPlace o n n' = (.ok addr, mm') ∧ k' = { k with mm := mm' })) := by
  have refused {e : Int} (he : e < 0) (h : (e, k) = (r, k')) : r < 0 ∧ k' = k := by
    obtain ⟨rfl, rfl⟩ := Prod.mk.inj h
    exact ⟨he, rfl⟩
  unfold mremap at h
  split at h
  · exact .inl (refused (by decide) h)
  rename_i o ho
  split at h
  · exact .inl (refused (by decide) h)
  rename_i n hn
  split at h
  · exact .inl (refused (by decide) h)
  split at h
  · exact .inl (refused (by decide) h)
  rename_i n' hn'
  split at h
  · exact .inl (refused (by decide) h)
  rename_i hpos
  split at h
  · exact .inl (refused (by decide) h)
  split at h
  · exact .inl (refused (by decide) h)
  have hpos := Nat.pos_of_ne_zero hpos
  have hold := u32TryFrom_some ho
  have holdLen := usizeTryFrom_some hn
  have hnewLen := usizeTryFrom_some hn'
  split at h
  · rename_i hle
    obtain ⟨rfl, rfl⟩ := Prod.mk.inj h
    exact .inr ⟨o, n, n', hold, holdLen, hnewLen, hpos, Int.natCast_nonneg _, .inl ⟨hle, rfl⟩⟩
  · rename_i hgt
    have hfits (hused : ∀ a ∈ k.mm.arenas, a.used ≤ ARENA_SIZE) := noWrap_of_tryFrom hused ho hn hn'
    split at h
    · rename_i addr mm' hg
      obtain ⟨rfl, rfl⟩ := Prod.mk.inj h
      exact .inr ⟨o, n, n', hold, holdLen, hnewLen, hpos, Int.natCast_nonneg _,
        .inr ⟨Nat.not_le.mp hgt, hfits, addr, mm', hg, rfl⟩⟩
    · rename_i e mm' hg
      rcases LinearAllocator.growInPlace_cases hg with ⟨_, _, _, hbad, -⟩ | ⟨⟨-, hbad⟩ | he, rfl⟩
      · cases hbad
      · cases hbad
      · cases he
        exact .inl (refused (by decide) h)

end EdgeLibos.Sys
