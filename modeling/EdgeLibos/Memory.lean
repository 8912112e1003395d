import EdgeLibos.Mm.LinearAllocator

/-!
# Linear memory

The guest's linear memory as the runtime keeps it: bytes in whole 64 KiB pages,
up to the maximum the module declares and never beyond the 65536 pages of a
32-bit address space. Growing appends zero bytes or fails.
-/

namespace EdgeLibos

open Errno Mm

structure LinearMemory where
  data : List UInt8
  maxPages : Nat
  whole : PAGE_SIZE ∣ data.length
  fits : data.length ≤ maxPages * PAGE_SIZE
  top : maxPages ≤ 65536

namespace LinearMemory

def size (m : LinearMemory) : Nat := m.data.length

def pages (m : LinearMemory) : Nat := m.size / PAGE_SIZE

theorem size_eq (m : LinearMemory) : m.size = m.pages * PAGE_SIZE :=
  (Nat.div_mul_cancel m.whole).symm

theorem size_le (m : LinearMemory) : m.size ≤ 2 ^ 32 := by
  have h := m.fits
  have ht := m.top
  simp only [PAGE_SIZE] at h
  simp only [size]
  omega

def filled (b : UInt8) (pages maxPages : Nat) (h : pages ≤ maxPages) (top : maxPages ≤ 65536) :
    LinearMemory where
  data := List.replicate (pages * PAGE_SIZE) b
  maxPages := maxPages
  whole := by rw [List.length_replicate]; exact Nat.dvd_mul_left ..
  fits := by simpa using Nat.mul_le_mul_right _ h
  top := top

@[simp] theorem filled_size : (filled b n limit h ht).size = n * PAGE_SIZE :=
  List.length_replicate

theorem one_le_top : 1 ≤ 65536 := by decide

theorem one_page_fits : 1 ≤ 1 := Nat.le_refl 1

def zeroPage : LinearMemory := .filled 0 1 1 one_page_fits one_le_top

theorem zeroPage_size : zeroPage.size = 65536 := filled_size

def grow (m : LinearMemory) (delta : Nat) : Option LinearMemory :=
  if h : m.pages + delta ≤ m.maxPages then
    some { data := m.data ++ List.replicate (delta * PAGE_SIZE) 0
           maxPages := m.maxPages
           whole := by simpa using Nat.dvd_add m.whole (Nat.dvd_mul_left ..)
           fits := by
             have hm := m.size_eq
             simp only [size] at hm
             simpa [hm, ← Nat.add_mul] using Nat.mul_le_mul_right PAGE_SIZE h
           top := m.top }
  else none

theorem grow_some {m m' : LinearMemory} (h : m.grow delta = some m') :
    m'.data = m.data ++ List.replicate (delta * PAGE_SIZE) 0 ∧ m'.maxPages = m.maxPages ∧
      m.pages + delta ≤ m.maxPages := by
  unfold grow at h
  split at h
  · rename_i hle
    obtain rfl := Option.some.inj h
    exact ⟨rfl, rfl, hle⟩
  · cases h

theorem grow_size {m m' : LinearMemory} (h : m.grow delta = some m') :
    m'.size = m.size + delta * PAGE_SIZE := by
  simp [size, (grow_some h).1]

/-- `bytes[start .. start + new.len()]` overwritten; out of range it is a panic
in the source, which every caller rules out first. -/
def splice (start : Nat) (new data : List UInt8) : List UInt8 :=
  data.take start ++ new ++ data.drop (start + new.length)

theorem splice_length {data : List UInt8} (h : start + new.length ≤ data.length) :
    (splice start new data).length = data.length := by
  simp only [splice, List.length_append, List.length_take, List.length_drop]
  omega

theorem splice_getElem? {data : List UInt8} (h : start + new.length ≤ data.length) (i : Nat) :
    (splice start new data)[i]? =
      if start ≤ i ∧ i < start + new.length then new[i - start]? else data[i]? := by
  have htake : (data.take start).length = start := by
    rw [List.length_take]
    omega
  simp only [splice, List.append_assoc]
  rcases Nat.lt_or_ge i start with hlt | hge
  · rw [List.getElem?_append_left (by omega), List.getElem?_take_of_lt hlt, if_neg (by omega)]
  · rw [List.getElem?_append_right (by omega), htake]
    rcases Nat.lt_or_ge i (start + new.length) with hin | hout
    · rw [List.getElem?_append_left (by omega), if_pos ⟨hge, hin⟩]
    · rw [List.getElem?_append_right (by omega), List.getElem?_drop, if_neg (by omega)]
      congr 1
      omega

def write (m : LinearMemory) (start : Nat) (new : List UInt8) (h : start + new.length ≤ m.size) :
    LinearMemory where
  data := splice start new m.data
  maxPages := m.maxPages
  whole := by rw [splice_length h]; exact m.whole
  fits := by rw [splice_length h]; exact m.fits
  top := m.top

@[simp] theorem write_size (m : LinearMemory) (h : start + new.length ≤ m.size) :
    (m.write start new h).size = m.size := splice_length h

@[simp] theorem write_maxPages (m : LinearMemory) (h : start + new.length ≤ m.size) :
    (m.write start new h).maxPages = m.maxPages := rfl

def load (m : LinearMemory) (ptr len : Nat) : Option (List UInt8) :=
  if ptr + len ≤ m.size then some ((m.data.drop ptr).take len) else none

def store (m : LinearMemory) (ptr : Nat) (new : List UInt8) : Option LinearMemory :=
  if h : ptr + new.length ≤ m.size then some (m.write ptr new h) else none

theorem load_some {m : LinearMemory} (h : ptr + len ≤ m.size) :
    m.load ptr len = some ((m.data.drop ptr).take len) := if_pos h

theorem load_sub {m : LinearMemory} (h : m.load ptr n = some bytes) (hk : i + k ≤ n) :
    m.load (ptr + i) k = some ((bytes.drop i).take k) := by
  unfold load at h
  split at h
  · rename_i hn
    obtain rfl := Option.some.inj h
    rw [load_some (by omega), List.drop_take, List.take_take, List.drop_drop,
      Nat.min_eq_left (by omega)]
  · cases h

theorem load_write {m : LinearMemory} (h : ptr + new.length ≤ m.size) :
    (m.write ptr new h).load ptr new.length = some new := by
  rw [load_some (by rwa [write_size])]
  congr 1
  refine List.ext_getElem? fun i => ?_
  rw [List.getElem?_take]
  split
  · rename_i hi
    rw [List.getElem?_drop, write, splice_getElem? h, if_pos ⟨Nat.le_add_right .., by omega⟩,
      Nat.add_sub_cancel_left]
  · rename_i hi
    rw [List.getElem?_eq_none (Nat.le_of_not_lt hi)]

theorem load_write_of_apart {m : LinearMemory} (h : ptr + new.length ≤ m.size)
    (ha : at' + len ≤ ptr ∨ ptr + new.length ≤ at') :
    (m.write ptr new h).load at' len = m.load at' len := by
  simp only [load, write_size]
  congr 2
  refine List.ext_getElem? fun i => ?_
  rw [List.getElem?_take, List.getElem?_take]
  split
  · rw [List.getElem?_drop, List.getElem?_drop, write, splice_getElem? h, if_neg (by omega)]
  · rfl

theorem zeroPage_load (h : ptr + len ≤ 65536) : zeroPage.load ptr len = some (List.replicate len 0) := by
  have hdata : zeroPage.data = List.replicate 65536 0 := rfl
  rw [load_some (by rwa [zeroPage_size]), hdata, List.drop_replicate, List.take_replicate,
    Nat.min_eq_left (Nat.le_sub_of_add_le (by omega))]

end LinearMemory

inductive MemoryKind
  | owned (mem : LinearMemory)
  | shared (mem : LinearMemory)

def MemoryKind.mem : MemoryKind → LinearMemory
  | .owned mem => mem
  | .shared mem => mem

-- ---------------------------------------------------------------------------
-- Access from a system call
-- ---------------------------------------------------------------------------

def ownedOf : Option MemoryKind → Except Int LinearMemory
  | none => .error (-EFAULT)
  | some (.owned mem) => .ok mem
  | some (.shared _) => .error (-EINVAL)

theorem ownedOf_ok (h : ownedOf memory = .ok mem) : memory = some (.owned mem) := by
  unfold ownedOf at h
  split at h
  · cases h
  · cases h
    rfl
  · cases h

theorem ownedOf_error_neg (h : ownedOf memory = .error e) : e < 0 := by
  unfold ownedOf at h
  split at h
  · cases h
    decide
  · cases h
  · cases h
    decide

/-- `guest_slice`: the bytes a pointer and a length name. -/
def guestSlice (memory : Option MemoryKind) (ptr len : Int) : Except Int (List UInt8) :=
  if ptr < 0 ∨ len < 0 then .error (-EFAULT)
  else
    match ownedOf memory with
    | .error e => .error e
    | .ok mem =>
      if ptr.toNat + len.toNat ≤ mem.size then .ok ((mem.data.drop ptr.toNat).take len.toNat)
      else .error (-EFAULT)

theorem guestSlice_error_neg (h : guestSlice memory ptr len = .error e) : e < 0 := by
  unfold guestSlice at h
  split at h
  · cases h
    decide
  · split at h
    · rename_i hmem
      cases h
      exact ownedOf_error_neg hmem
    · split at h
      · cases h
      · cases h
        decide

theorem guestSlice_of_load {m : LinearMemory} {ptr : Nat} (h : m.load ptr n = some bytes)
    (hk : k ≤ n) : guestSlice (some (.owned m)) ptr k = .ok (bytes.take k) := by
  unfold LinearMemory.load at h
  split at h
  · rename_i hn
    obtain rfl := Option.some.inj h
    rw [guestSlice, if_neg (by omega)]
    simp only [ownedOf, Int.toNat_natCast]
    rw [if_pos (by omega), List.take_take, Nat.min_eq_left hk]
  · cases h

/-- `guest_str`: the bytes before the first NUL, or all of them when there is none. -/
def guestStr (memory : Option MemoryKind) (ptr maxLen : Int) : Except Int String :=
  match guestSlice memory ptr maxLen with
  | .error e => .error e
  | .ok bytes =>
    match String.fromUTF8? ⟨(bytes.takeWhile (· ≠ 0)).toArray⟩ with
    | some s => .ok s
    | none => .error (-EINVAL)

/-- `guest_slice_mut(ptr, len)?[..new.len()].copy_from_slice(&new)`; every caller
passes at most `len` bytes. -/
def guestCopy (memory : Option MemoryKind) (ptr len : Int) (new : List UInt8) :
    Except Int (Option MemoryKind) :=
  if ptr < 0 ∨ len < 0 then .error (-EFAULT)
  else
    match ownedOf memory with
    | .error e => .error e
    | .ok mem =>
      if h : ptr.toNat + len.toNat ≤ mem.size ∧ new.length ≤ len.toNat then
        .ok (some (.owned (mem.write ptr.toNat new (by omega))))
      else .error (-EFAULT)

theorem guestCopy_error_neg (h : guestCopy memory ptr len new = .error e) : e < 0 := by
  unfold guestCopy at h
  split at h
  · cases h
    decide
  · split at h
    · rename_i hmem
      cases h
      exact ownedOf_error_neg hmem
    · split at h
      · cases h
      · cases h
        decide

end EdgeLibos
