import EdgeLibos.Futex.Machine
import EdgeLibos.Lib.Words
import EdgeLibos.Sys.Memory

/-!
# The futex call

`futex` up to the place where a `FUTEX_WAIT` suspends. The word in memory is compared
with the whole 64-bit argument: a guest whose C library widens the expected value by
its sign never waits for a word with the top bit set.
-/

namespace EdgeLibos.Futex

open Lib Errno
open Sys (u32TryFrom)

def FUTEX_WAIT : BitVec 32 := 0
def FUTEX_WAKE : BitVec 32 := 1
def FUTEX_CMD_MASK : BitVec 32 := 0x3f
def INVALID_FUTEX_ADDR : UInt32 := 0xFFFFFFFF
def TIMESPEC_SIZE : Int := 16
def TIMESPEC_SEC_OFF : Nat := 0
def TIMESPEC_NSEC_OFF : Nat := 8

/-- How far a call has come: it returned, or waits on a `Notify`, for at most so many
nanoseconds when it has a deadline. -/
inductive Progress
  | returned (value : Int)
  | waits (notify : Nat) (deadline : Option UInt64)
  deriving DecidableEq, Repr

def i64At (bytes : List UInt8) (off : Nat) : Int :=
  (BitVec.ofNat 64 (leValue ((bytes.drop off).take 8))).toInt

def decodeTimespec (memory : Option MemoryKind) (ptr : Int) : Except Int UInt64 :=
  match guestSlice memory ptr TIMESPEC_SIZE with
  | .error e => .error e
  | .ok bytes =>
    let sec := i64At bytes TIMESPEC_SEC_OFF
    let nsec := i64At bytes TIMESPEC_NSEC_OFF
    if ¬ (0 ≤ nsec ∧ nsec < 1000000000) ∨ sec < 0 then .error (-EINVAL)
    else .ok (UInt64.ofNat (min (sec.toNat * 1000000000) (2 ^ 64 - 1) + nsec.toNat))

def decodeTimeout (memory : Option MemoryKind) (ptr : Int) : Except Int (Option UInt64) :=
  if ptr = 0 then .ok none
  else
    match decodeTimespec memory ptr with
    | .error e => .error e
    | .ok d => .ok (some d)

def registerInterest (k : Kernel) (uaddr : UInt32) (timeoutPtr : Int) : Progress × Kernel :=
  match decodeTimeout k.memory timeoutPtr with
  | .error e => (.returned e, k)
  | .ok deadline =>
    let (fresh, cells) := match k.futexTable.byAddr.get? uaddr with
      | some entry => (entry.notify, k.cells)
      | none => k.cells.newNotify
    let (entry, futexTable) := register k.futexTable uaddr fresh
    (.waits entry.notify deadline, { k with futexTable, cells })

/-- `futex_wait` up to its first suspension. -/
def futexWait (k : Kernel) (uaddr : UInt32) (val timeoutPtr : Int) : Progress × Kernel :=
  match guestSlice k.memory uaddr.toNat 4 with
  | .error e => (.returned e, k)
  | .ok bytes =>
    let current := ofLe32 bytes
    if (current.toNat : Int) ≠ val then (.returned (-EAGAIN), k)
    else registerInterest k uaddr timeoutPtr

def futexWake (k : Kernel) (uaddr : UInt32) (val : Int) : Progress × Kernel :=
  match claim k.futexTable uaddr val with
  | (none, _) => (.returned 0, k)
  | (some (_, toWake), futexTable) => (.returned toWake, { k with futexTable })

def futex (k : Kernel) (uaddr op val timeoutPtr : Int) : Progress × Kernel :=
  match u32TryFrom uaddr with
  | none => (.returned (-EINVAL), k)
  | some addr =>
    let addr := UInt32.ofNat addr
    let cmd := BitVec.ofInt 32 op &&& FUTEX_CMD_MASK
    if addr = INVALID_FUTEX_ADDR then (.returned (-EINVAL), k)
    else if cmd = FUTEX_WAIT then futexWait k addr val timeoutPtr
    else if cmd = FUTEX_WAKE then futexWake k addr (BitVec.ofInt 32 val).toInt
    else (.returned (-ENOSYS), k)

-- ---------------------------------------------------------------------------
-- The machine's steps
-- ---------------------------------------------------------------------------

/-- The kernel and the machine have the same table, and the same `Notify` is next. -/
structure Matches (s : State) (k : Kernel) : Prop where
  table : s.table = k.futexTable
  fresh : s.notifies.next = k.cells.notifies

variable {s : State} {k k' : Kernel}

theorem Matches.registerInterest (h : Matches s k)
    (hr : registerInterest k uaddr timeoutPtr = (.waits notify deadline, k')) :
    Matches (s.registerWait uaddr deadline.isSome) k' := by
  unfold Futex.registerInterest at hr
  split at hr
  · cases hr
  · rename_i d hd
    cases he : k.futexTable.byAddr.get? uaddr with
    | some entry =>
      simp only [he] at hr
      cases hr
      rw [State.registerWait_old (h.table ▸ he)]
      refine ⟨?_, h.fresh⟩
      rw [h.table, register, he, Option.getD_some]
    | none =>
      simp only [he] at hr
      cases hr
      rw [State.registerWait_new (h.table ▸ he)]
      refine ⟨?_, ?_⟩
      · simp only [h.table, register, he, Option.getD_none, Cells.newNotify, h.fresh]
      · simp only [Heap.alloc_next, Cells.newNotify, h.fresh]

theorem notifyOne_table (tag n : Nat) (s : State) :
    (s.notifyOne tag n).table = s.table ∧ (s.notifyOne tag n).notifies.next = s.notifies.next := by
  unfold State.notifyOne
  simp only
  split
  · exact ⟨rfl, rfl⟩
  · exact ⟨rfl, rfl⟩

theorem notifyMany_table (tag n count : Nat) (s : State) :
    (s.notifyMany tag n count).table = s.table ∧
      (s.notifyMany tag n count).notifies.next = s.notifies.next := by
  induction count generalizing s with
  | zero => exact ⟨rfl, rfl⟩
  | succ count ih =>
    obtain ⟨htable, hnext⟩ := ih (s.notifyOne tag n)
    obtain ⟨htable', hnext'⟩ := notifyOne_table tag n s
    exact ⟨htable.trans htable', hnext.trans hnext'⟩

theorem Matches.futexWake (h : Matches s k) (uaddr : UInt32) (val : Int) :
    Matches (s.futexWake uaddr val) (futexWake k uaddr val).2 := by
  unfold State.futexWake Futex.futexWake
  rw [h.table]
  cases hc : claim k.futexTable uaddr val with
  | mk found table =>
    cases found with
    | none => exact h
    | some found =>
      obtain ⟨notify, toWake⟩ := found
      obtain ⟨htable, hnext⟩ := notifyMany_table s.wakes.length notify toWake
        { s with table, wakes := s.wakes ++ [{ addr := uaddr, notify, toWake, before := s.waits.next }] }
      exact ⟨htable, hnext.trans h.fresh⟩

-- ---------------------------------------------------------------------------
-- Comparing words
-- ---------------------------------------------------------------------------

/-- How the guest brings a 32-bit value to the width of an argument. -/
inductive Widening
  | zero
  | sign
  deriving DecidableEq, Repr

def Widening.extend : Widening → UInt32 → Int
  | .zero, e => e.toNat
  | .sign, e => e.toBitVec.toInt

def wordAt (k : Kernel) (uaddr : UInt32) : Except Int UInt32 :=
  (guestSlice k.memory uaddr.toNat 4).map ofLe32

structure Registered (k : Kernel) (uaddr : UInt32) (deadline : Option UInt64) (p : Progress)
    (k' : Kernel) : Prop where
  waits : ∃ entry, p = .waits entry.notify deadline ∧ k'.futexTable.byAddr.get? uaddr = some entry ∧
    entry.waiters = ((k.futexTable.byAddr.get? uaddr).map FutexEntry.waiters).getD 0 + 1
  others : ∀ a, a ≠ uaddr → k'.futexTable.byAddr.get? a = k.futexTable.byAddr.get? a

/-- `-EAGAIN` without registering exactly when the words differ. When they are equal the
waiter is registered, unless it is the timeout that is refused. -/
structure ComparesWords (k : Kernel) (uaddr w e : UInt32) (timeoutPtr : Int)
    (result : Progress × Kernel) : Prop where
  differ : result = (.returned (-EAGAIN), k) ↔ w ≠ e
  refused : w = e → ∀ err, decodeTimeout k.memory timeoutPtr = .error err → result = (.returned err, k)
  registers : w = e → ∀ deadline, decodeTimeout k.memory timeoutPtr = .ok deadline →
    Registered k uaddr deadline result.1 result.2

theorem extend_eq_iff (x : Widening) (e w : UInt32) :
    (w.toNat : Int) = x.extend e ↔ w = e ∧ ¬ (x = .sign ∧ 2 ^ 31 ≤ e.toNat) := by
  have hw := w.toNat_lt
  have he := e.toNat_lt
  have hsame : w = e ↔ w.toNat = e.toNat := UInt32.toNat_inj.symm
  cases x with
  | zero =>
    simp only [Widening.extend, hsame, reduceCtorEq, false_and, not_false_iff, and_true]
    exact Int.ofNat_inj
  | sign =>
    have htop : e.toBitVec.toInt = if 2 * e.toNat < 2 ^ 32 then (e.toNat : Int) else e.toNat - 2 ^ 32 := by
      rw [BitVec.toInt_eq_toNat_cond]
      rfl
    rw [Widening.extend, htop, hsame]
    simp only [true_and, Nat.not_le]
    split <;> omega

theorem decodeTimeout_ne_eagain (h : decodeTimeout memory ptr = .error err) : err ≠ -EAGAIN := by
  have hslice {len : Int} (hs : guestSlice memory ptr len = .error err) : err ≠ -EAGAIN := by
    unfold guestSlice at hs
    split at hs
    · cases hs
      decide
    · split at hs
      · rename_i hmem
        cases hs
        unfold ownedOf at hmem
        split at hmem <;> cases hmem <;> decide
      · split at hs <;> cases hs
        decide
  unfold decodeTimeout at h
  split at h
  · cases h
  · split at h
    · rename_i hspec
      cases h
      unfold decodeTimespec at hspec
      split at hspec
      · rename_i hs
        cases hspec
        exact hslice hs
      · simp only at hspec
        split at hspec
        · cases hspec
          decide
        · cases hspec
    · cases h

theorem registerInterest_refused (h : decodeTimeout k.memory timeoutPtr = .error err) :
    registerInterest k uaddr timeoutPtr = (.returned err, k) := by
  simp only [registerInterest, h]

theorem registerInterest_registers (h : decodeTimeout k.memory timeoutPtr = .ok deadline) :
    Registered k uaddr deadline (registerInterest k uaddr timeoutPtr).1
      (registerInterest k uaddr timeoutPtr).2 := by
  unfold registerInterest
  cases he : k.futexTable.byAddr.get? uaddr with
  | some entry =>
    simp only [h, he, register, Option.getD_some]
    refine ⟨⟨{ entry with waiters := entry.waiters + 1 }, rfl, ?_, ?_⟩, fun a ha => ?_⟩
    · simp only [HashMap.get?_insert, if_true]
    · rw [he, Option.map_some, Option.getD_some]
    · simp only [HashMap.get?_insert, if_neg ha]
  | none =>
    simp only [h, he, register, Option.getD_none]
    refine ⟨⟨{ notify := k.cells.newNotify.1, waiters := 1 }, rfl, ?_, ?_⟩, fun a ha => ?_⟩
    · simp only [HashMap.get?_insert, if_true]
    · rw [he, Option.map_none, Option.getD_none]
    · simp only [HashMap.get?_insert, if_neg ha]

theorem registerInterest_ne_eagain :
    registerInterest k uaddr timeoutPtr ≠ (.returned (-EAGAIN), k) := by
  intro he
  cases hd : decodeTimeout k.memory timeoutPtr with
  | error err =>
    rw [registerInterest_refused hd] at he
    cases he
    exact decodeTimeout_ne_eagain hd rfl
  | ok deadline =>
    have hreg : Registered k uaddr deadline _ _ := registerInterest_registers hd
    obtain ⟨entry, hwaits, -⟩ := hreg.waits
    rw [he] at hwaits
    cases hwaits

theorem wordAt_ok (h : wordAt k uaddr = .ok w) :
    ∃ bytes, guestSlice k.memory uaddr.toNat 4 = .ok bytes ∧ ofLe32 bytes = w := by
  unfold wordAt at h
  cases hs : guestSlice k.memory uaddr.toNat 4 with
  | error e =>
    rw [hs] at h
    cases h
  | ok bytes =>
    rw [hs] at h
    exact ⟨bytes, rfl, Except.ok.inj h⟩

theorem wordAt_valid (h : wordAt k uaddr = .ok w) : uaddr ≠ INVALID_FUTEX_ADDR := by
  obtain ⟨bytes, hs, -⟩ := wordAt_ok h
  rintro rfl
  unfold guestSlice at hs
  split at hs
  · cases hs
  · split at hs
    · cases hs
    · rename_i mem hmem
      split at hs
      · rename_i hfits
        have hsize := mem.size_le
        have hlast : (((INVALID_FUTEX_ADDR.toNat : Int)).toNat) = 4294967295 := rfl
        rw [hlast] at hfits
        omega
      · cases hs

theorem u32TryFrom_toNat (v : UInt32) : u32TryFrom (v.toNat : Int) = some v.toNat := by
  have hlt := v.toNat_lt
  have hrange : 0 ≤ (v.toNat : Int) ∧ (v.toNat : Int) < 2 ^ 32 := by omega
  rw [u32TryFrom, if_pos hrange, Int.toNat_natCast]

theorem futex_wait_eq (h : wordAt k uaddr = .ok w)
    (hop : BitVec.ofInt 32 op &&& FUTEX_CMD_MASK = FUTEX_WAIT) (val timeoutPtr : Int) :
    futex k uaddr.toNat op val timeoutPtr =
      if (w.toNat : Int) ≠ val then (.returned (-EAGAIN), k)
      else registerInterest k uaddr timeoutPtr := by
  obtain ⟨bytes, hs, hw⟩ := wordAt_ok h
  rw [futex, u32TryFrom_toNat]
  simp only [UInt32.ofNat_toNat]
  rw [if_neg (wordAt_valid h), if_pos hop, futexWait, hs]
  simp only [hw]

/-- `FUTEX_WAIT` compares the word with the expected value as 32-bit words, except when
the two are equal with their top bit set and the guest widened the value by its sign. -/
theorem futex_wait_compares_iff (h : wordAt k uaddr = .ok w)
    (hop : BitVec.ofInt 32 op &&& FUTEX_CMD_MASK = FUTEX_WAIT) (x : Widening) (e : UInt32)
    (timeoutPtr : Int) :
    ComparesWords k uaddr w e timeoutPtr (futex k uaddr.toNat op (x.extend e) timeoutPtr) ↔
      ¬ (w = e ∧ x = .sign ∧ 2 ^ 31 ≤ e.toNat) := by
  rw [futex_wait_eq h hop]
  by_cases hval : (w.toNat : Int) = x.extend e
  · rw [if_neg (not_not_intro hval)]
    obtain ⟨hsame, htop⟩ := (extend_eq_iff x e w).mp hval
    refine iff_of_true ⟨?_, ?_, ?_⟩ fun hbad => htop hbad.2
    · exact iff_of_false registerInterest_ne_eagain (not_not_intro hsame)
    · exact fun _ err herr => registerInterest_refused herr
    · exact fun _ deadline hd => registerInterest_registers hd
  · rw [if_pos hval]
    have hcond := (extend_eq_iff x e w).not.mp hval
    constructor
    · rintro hcomp ⟨hsame, -⟩
      exact hcomp.differ.mp rfl hsame
    · intro hgood
      have hne : w ≠ e := fun hsame => hcond ⟨hsame, fun hbad => hgood ⟨hsame, hbad⟩⟩
      exact ⟨iff_of_true rfl hne, fun hsame => absurd hsame hne, fun hsame => absurd hsame hne⟩

-- ---------------------------------------------------------------------------
-- A word with the top bit set
-- ---------------------------------------------------------------------------

def FUTEX_PRIVATE_FLAG : Int := 0x80

def topBit : UInt32 := 0x80000000

def topBitBytes : List UInt8 := [0, 0, 0, 0x80]

theorem topBitBytes_fit : 0 + topBitBytes.length ≤ LinearMemory.zeroPage.size := by
  rw [LinearMemory.zeroPage_size]
  decide

def topBitKernel : Kernel :=
  (Kernel.new [] [] { root := "/", cwd := "/" } (Vector.replicate 32 0)).attachMemory
    (LinearMemory.zeroPage.write 0 topBitBytes topBitBytes_fit)

theorem topBitKernel_word : wordAt topBitKernel 0 = .ok topBit := by
  have hload := LinearMemory.load_write topBitBytes_fit
  have hslice := guestSlice_of_load hload (le_refl 4)
  have hmem : guestSlice topBitKernel.memory (0 : UInt32).toNat 4 = .ok topBitBytes := hslice
  rw [wordAt, hmem]
  rfl

theorem futex_wait_compares_zero_extended :
    wordAt topBitKernel 0 = .ok topBit ∧
      ComparesWords topBitKernel 0 topBit topBit 0
        (futex topBitKernel (0 : UInt32).toNat FUTEX_PRIVATE_FLAG (Widening.zero.extend topBit) 0) :=
  ⟨topBitKernel_word,
    (futex_wait_compares_iff topBitKernel_word (by decide) .zero topBit 0).mpr (by decide)⟩

/-- Widened by its sign, the expected value is not that of the word. -/
theorem futex_wait_sign_extended :
    wordAt topBitKernel 0 = .ok topBit ∧
      futex topBitKernel (0 : UInt32).toNat FUTEX_PRIVATE_FLAG (Widening.sign.extend topBit) 0 =
        (.returned (-EAGAIN), topBitKernel) ∧
      ¬ ComparesWords topBitKernel 0 topBit topBit 0
        (futex topBitKernel (0 : UInt32).toNat FUTEX_PRIVATE_FLAG (Widening.sign.extend topBit) 0) := by
  have hret : futex topBitKernel (0 : UInt32).toNat FUTEX_PRIVATE_FLAG (Widening.sign.extend topBit) 0 =
      (.returned (-EAGAIN), topBitKernel) := by
    rw [futex_wait_eq topBitKernel_word (by decide), if_pos (by decide)]
  exact ⟨topBitKernel_word, hret, fun h => h.differ.mp hret rfl⟩

end EdgeLibos.Futex
