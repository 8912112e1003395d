import EdgeLibos.Futex.Waiters
import EdgeLibos.Snapshot.Fixpoint

/-!
# Futexes after a restore

A snapshot keeps the waiter count of each address, and a restore puts it into
the new table, where none of the fibers it counted exists. Until wakes have
used it up, such a count makes `futex_wake` report fibers that are not there.
-/

namespace EdgeLibos.Futex

open Lib Snapshot

-- ---------------------------------------------------------------------------
-- Counting by address
-- ---------------------------------------------------------------------------

namespace State

def registeredAt (s : State) (addr : UInt32) : Nat := s.waits.count fun _ w => w.addr = addr

def claimedAt (s : State) (addr : UInt32) : Nat :=
  ((s.wakes.filter fun w => w.addr = addr).map fun w => w.toWake).sum

def wakeResult (s : State) (addr : UInt32) (val : Int) : Nat :=
  ((claim s.table addr val).1.map fun c => c.2).getD 0

def ofKernel (k : Kernel) : State where
  table := k.futexTable
  notifies :=
    { read := fun n =>
        { addr := ((k.futexTable.byAddr.entries.find? fun p => p.2.notify = n).map fun p => p.1).getD 0
          queue := []
          permit := none }
      next := k.cells.notifies }
  waits := .empty
  wakes := []

/-- Neither the table nor the wakes change, and no fiber moves to another address. -/
structure SameFibers (s s' : State) : Prop where
  table : s'.table = s.table
  wakes : s'.wakes = s.wakes
  next : s'.waits.next = s.waits.next
  addr : ∀ i, (s'.waits.read i).addr = (s.waits.read i).addr

theorem SameFibers.refl (s : State) : s.SameFibers s := ⟨rfl, rfl, rfl, fun _ => rfl⟩

theorem SameFibers.trans {s s' s'' : State} (h : s.SameFibers s') (h' : s'.SameFibers s'') :
    s.SameFibers s'' where
  table := h'.table.trans h.table
  wakes := h'.wakes.trans h.wakes
  next := h'.next.trans h.next
  addr i := (h'.addr i).trans (h.addr i)

variable {s s' : State}

theorem sameFibers_setNotify (n : Nat) (c : Notify) : s.SameFibers (s.setNotify n c) :=
  ⟨rfl, rfl, rfl, fun _ => rfl⟩

theorem sameFibers_setPhase (i : Nat) (p : Phase) : s.SameFibers (s.setPhase i p) := by
  refine ⟨rfl, rfl, rfl, fun j => ?_⟩
  rw [setPhase_read]
  split
  · rename_i h
    rw [h]
  · rfl

theorem sameFibers_set (n : Nat) (c : Notify) (i : Nat) (p : Phase) :
    s.SameFibers ((s.setNotify n c).setPhase i p) :=
  (sameFibers_setNotify n c).trans (sameFibers_setPhase i p)

theorem sameFibers_notifyMany (tag n k : Nat) : s.SameFibers (notifyMany tag n k s) := by
  induction k generalizing s with
  | zero => exact .refl s
  | succ k ih =>
    refine SameFibers.trans ?_ (ih (s := notifyOne tag n s))
    rcases notifyOne_cases tag n s with ⟨i, rest, -, heq⟩ | ⟨-, heq⟩
    · rw [heq]
      exact sameFibers_set ..
    · rw [heq]
      exact sameFibers_setNotify ..

theorem sameFibers_pollWait (i : Nat) : s.SameFibers (s.pollWait i) := by
  cases h : (s.notifies.read (s.waits.read i).notify).permit with
  | some tag =>
    rw [pollWait_permit h]
    exact sameFibers_set ..
  | none =>
    rw [pollWait_park h]
    exact sameFibers_set ..

-- ---------------------------------------------------------------------------
-- The bound
-- ---------------------------------------------------------------------------

/-- The count at an address is covered by what it was at the start and by the
fibers registered since, less those that wakes have claimed. -/
def Covered (base : UInt32 → Nat) (s : State) : Prop :=
  ∀ addr, s.waiters addr + s.claimedAt addr ≤ base addr + s.registeredAt addr

theorem SameFibers.registeredAt (h : s.SameFibers s') (addr : UInt32) :
    s'.registeredAt addr = s.registeredAt addr := by
  refine Heap.count_congr h.next fun i _ => ?_
  simp only [h.addr i]

theorem SameFibers.covered (h : s.SameFibers s') (hc : s.Covered base) : s'.Covered base := by
  intro addr
  have hw : s'.waiters addr = s.waiters addr := by simp only [State.waiters, h.table]
  have hclaimed : s'.claimedAt addr = s.claimedAt addr := by simp only [claimedAt, h.wakes]
  rw [hw, hclaimed, h.registeredAt]
  exact hc addr

theorem registeredAt_addWait {w : Wait} (h : s'.waits = (s.waits.alloc w).2) (addr : UInt32) :
    s'.registeredAt addr = s.registeredAt addr + if w.addr = addr then 1 else 0 := by
  rw [State.registeredAt, h, Heap.count_alloc]
  simp [State.registeredAt]

theorem waiters_registerWait (s : State) (addr : UInt32) (deadline : Bool) (a : UInt32) :
    (s.registerWait addr deadline).waiters a = s.waiters a + if addr = a then 1 else 0 := by
  cases he : s.table.byAddr.get? addr with
  | some e =>
    rw [registerWait_old he]
    simp only [State.waiters, HashMap.get?_insert]
    by_cases h : a = addr
    · simp [h, he]
    · simp [h, Ne.symm h]
  | none =>
    rw [registerWait_new he]
    simp only [State.waiters, HashMap.get?_insert]
    by_cases h : a = addr
    · simp [h, he]
    · simp [h, Ne.symm h]

theorem Covered.registerWait (h : s.Covered base) : (s.registerWait addr deadline).Covered base := by
  intro a
  have hreg : (s.registerWait addr deadline).registeredAt a =
      s.registeredAt a + if addr = a then 1 else 0 := by
    cases he : s.table.byAddr.get? addr with
    | some e =>
      rw [registerWait_old he, registeredAt_addWait (s := s) rfl]
    | none =>
      rw [registerWait_new he, registeredAt_addWait (s := s) rfl]
  have hclaimed : (s.registerWait addr deadline).claimedAt a = s.claimedAt a := rfl
  have := h a
  rw [waiters_registerWait, hreg, hclaimed]
  omega

theorem waiters_of_get? (h : s.table.byAddr.get? addr = some e) : s.waiters addr = e.waiters := by
  simp only [State.waiters, h]

theorem waiters_setWaiters (h : s'.table = setWaiters s.table addr e n) (a : UInt32) :
    s'.waiters a = if a = addr then n else s.waiters a := by
  simp only [State.waiters, h, setWaiters_get?]
  by_cases ha : a = addr
  · by_cases hn : n = 0
    · simp [ha, hn]
    · simp [ha, hn]
  · simp [ha]

theorem waiters_releaseWait (s : State) (i : Nat) (p : Phase) (a : UInt32) :
    (s.releaseWait i p).waiters a ≤ s.waiters a := by
  cases he : s.table.byAddr.get? (s.waits.read i).addr with
  | none =>
    refine Nat.le_of_eq ?_
    simp only [State.waiters, releaseWait, setPhase_table, releaseWaiter, he]
  | some e =>
    have htable : (s.releaseWait i p).table =
        setWaiters s.table (s.waits.read i).addr e (e.waiters - 1) := by
      simp only [releaseWait, setPhase_table, releaseWaiter, he]
    rw [waiters_setWaiters htable]
    split
    · rename_i ha
      rw [ha, waiters_of_get? he]
      exact Nat.sub_le _ _
    · exact le_refl _

theorem Covered.releaseWait (h : s.Covered base) : (s.releaseWait i p).Covered base := by
  intro a
  have hreg : (s.releaseWait i p).registeredAt a = s.registeredAt a :=
    (sameFibers_setPhase i p).registeredAt a
  have hclaimed : (s.releaseWait i p).claimedAt a = s.claimedAt a := rfl
  have hle := s.waiters_releaseWait i p a
  have := h a
  rw [hreg, hclaimed]
  omega

theorem Covered.futexWake (h : s.Covered base) : (s.futexWake addr val).Covered base := by
  unfold State.futexWake claim
  cases he : s.table.byAddr.get? addr with
  | none => exact h
  | some e =>
    refine (sameFibers_notifyMany _ _ _).covered fun a => ?_
    have := h a
    rw [waiters_setWaiters (s := s) rfl]
    simp only [claimedAt, State.registeredAt, List.filter_append, List.map_append,
      List.sum_append] at this ⊢
    by_cases ha : a = addr
    · subst ha
      rw [waiters_of_get? he] at this
      simp
      omega
    · simp [ha, Ne.symm ha]
      omega

theorem Covered.step (h : s.Covered base) (hn : s.next a = some s') : s'.Covered base := by
  cases a with
  | register addr deadline =>
    obtain rfl := Option.some.inj hn
    exact h.registerWait
  | poll i =>
    simp only [State.next] at hn
    split at hn
    · obtain rfl := Option.some.inj hn
      exact (sameFibers_pollWait i).covered h
    · cases hn
  | expire i =>
    simp only [State.next] at hn
    split at hn
    · obtain rfl := Option.some.inj hn
      exact (sameFibers_set ..).covered h
    · cases hn
  | release i =>
    simp only [State.next] at hn
    split at hn
    · split at hn
      · obtain rfl := Option.some.inj hn
        exact h.releaseWait
      · obtain rfl := Option.some.inj hn
        exact h.releaseWait
      · cases hn
    · cases hn
  | wake addr val =>
    obtain rfl := Option.some.inj hn
    exact h.futexWake

theorem wakeResult_eq (s : State) (addr : UInt32) (val : Int) :
    s.wakeResult addr val = min (max val 0).toNat (s.waiters addr) := by
  unfold wakeResult claim State.waiters
  cases s.table.byAddr.get? addr with
  | none => simp
  | some e => simp

theorem covered_ofKernel (k : Kernel) : (ofKernel k).Covered (ofKernel k).waiters := by
  intro addr
  exact le_refl _

end State

/-- After any steps, the count at an address is at most what it was at the start
and the fibers registered since, less those that wakes have claimed. -/
theorem reaches_covered {k : Kernel} (h : Reaches State.next (fun _ _ => True) (State.ofKernel k) s) :
    s.Covered (State.ofKernel k).waiters :=
  h.invariant (State.covered_ofKernel k) fun _ _ _ hi _ hn => hi.step hn

-- ---------------------------------------------------------------------------
-- The table of a restored kernel
-- ---------------------------------------------------------------------------

/-- The count of an address as a snapshot keeps it. -/
def savedWaiters (t : FutexTable) (addr : UInt32) : Nat :=
  ((t.byAddr.get? addr).map fun e => (UInt32.ofNat e.waiters).toNat).getD 0

theorem mem_futex_snapshot {t : FutexTable} : f ∈ t.snapshot ↔
    ∃ e, t.byAddr.get? f.addr = some e ∧ f.waiters = UInt32.ofNat e.waiters := by
  rw [futex_snapshot_eq, mem_sortByKey, List.mem_map]
  constructor
  · rintro ⟨p, hp, rfl⟩
    exact ⟨p.2, HashMap.get?_eq_some_iff.mpr hp, rfl⟩
  · rintro ⟨e, he, hw⟩
    refine ⟨(f.addr, e), HashMap.get?_eq_some_iff.mp he, ?_⟩
    rw [addrSnapshot, ← hw]

theorem rebuildEntries_get? (l : List FutexAddrSnapshot) (hnodup : (l.map (·.addr)).Nodup)
    (m : HashMap UInt32 FutexEntry) (c : Cells) (addr : UInt32) :
    ((rebuildEntries l m c).1.get? addr).map (fun e => e.waiters) =
      ((l.find? fun f => f.addr = addr).map fun f => f.waiters.toNat).or
        ((m.get? addr).map fun e => e.waiters) := by
  induction l generalizing m c with
  | nil => rfl
  | cons f rest ih =>
    rw [List.map_cons, List.nodup_cons] at hnodup
    simp only [rebuildEntries, ih hnodup.2, HashMap.get?_insert, List.find?_cons]
    by_cases h : f.addr = addr
    · have hnone : rest.find? (fun f => f.addr = addr) = none := by
        rw [List.find?_eq_none]
        intro f' hf'
        simp only [decide_eq_true_eq]
        exact fun heq => hnodup.1 (List.mem_map.mpr ⟨f', hf', heq.trans h.symm⟩)
      simp [h, hnone]
    · simp [h, Ne.symm h]

theorem find_futex_snapshot (t : FutexTable) (addr : UInt32) :
    ((t.snapshot.find? fun f => f.addr = addr).map fun f => f.waiters.toNat).getD 0 =
      savedWaiters t addr := by
  unfold savedWaiters
  cases he : t.byAddr.get? addr with
  | none =>
    have hnone : t.snapshot.find? (fun f => f.addr = addr) = none := by
      rw [List.find?_eq_none]
      intro f hf
      obtain ⟨e, hget, -⟩ := mem_futex_snapshot.mp hf
      simp only [decide_eq_true_eq]
      rintro rfl
      rw [he] at hget
      cases hget
    simp [hnone]
  | some e =>
    have hmem : { addr, waiters := UInt32.ofNat e.waiters } ∈ t.snapshot :=
      mem_futex_snapshot.mpr ⟨e, he, rfl⟩
    cases hfind : t.snapshot.find? (fun f => f.addr = addr) with
    | none => simpa using List.find?_eq_none.mp hfind _ hmem
    | some f =>
      have haddr : f.addr = addr := by simpa using List.find?_some hfind
      obtain ⟨e', hget, hw⟩ := mem_futex_snapshot.mp (List.mem_of_find?_eq_some hfind)
      rw [haddr, he] at hget
      cases hget
      simp [hw]

theorem waiters_restored {k target k' : Kernel}
    (h : applySnapshotKernelState host (buildKernelSnapshot k pages) target = .ok k')
    (addr : UInt32) : (State.ofKernel k').waiters addr = savedWaiters k.futexTable addr := by
  obtain ⟨-, fds, cells, -, rfl⟩ := applySnapshotKernelState_eq_ok.mp h
  have hget := rebuildEntries_get? k.futexTable.snapshot (futex_snapshot_nodup k.futexTable) .empty
    target.cells addr
  have hwaiters : ∀ s : State, s.waiters addr =
      ((s.table.byAddr.get? addr).map fun e => e.waiters).getD 0 := by
    intro s
    unfold State.waiters
    cases s.table.byAddr.get? addr with
    | none => rfl
    | some e => rfl
  rw [hwaiters, ← find_futex_snapshot]
  refine (congrArg (fun o => o.getD 0) hget).trans ?_
  simp

/-- Wakes on a restored kernel report only fibers that registered on it, exactly
when every count in the frozen table was zero as a `u32`. -/
theorem restored_wakes_real_iff (host : Host) (k target k' : Kernel) (pages : List MemoryPageSnapshot)
    (h : applySnapshotKernelState host (buildKernelSnapshot k pages) target = .ok k') :
    (∀ s, Reaches State.next (fun _ _ => True) (State.ofKernel k') s →
      ∀ addr val, s.wakeResult addr val ≤ s.registeredAt addr - s.claimedAt addr) ↔
    ∀ addr e, k.futexTable.byAddr.get? addr = some e → UInt32.ofNat e.waiters = 0 := by
  constructor
  · intro hreal addr e he
    have hone := hreal _ .start addr 1
    rw [State.wakeResult_eq, waiters_restored h, savedWaiters, he] at hone
    have hnone : (State.ofKernel k').registeredAt addr = 0 := rfl
    rw [hnone] at hone
    refine UInt32.toNat_inj.mp ?_
    simp only [Option.map_some, Option.getD_some] at hone
    show (UInt32.ofNat e.waiters).toNat = 0
    omega
  · intro hzero s hs addr val
    have hbase : (State.ofKernel k').waiters addr = 0 := by
      rw [waiters_restored h, savedWaiters]
      cases he : k.futexTable.byAddr.get? addr with
      | none => rfl
      | some e =>
        rw [Option.map_some, Option.getD_some, hzero addr e he]
        rfl
    have hcovered := reaches_covered hs addr
    rw [hbase] at hcovered
    rw [State.wakeResult_eq]
    omega

theorem otherKernel_inKernel : ∀ p ∈ otherKernel.fds.table.entries, InKernel p.2 := by decide

theorem restored_wakes_real_iff_other :
    ∃ k', applySnapshotKernelState refusingHost (buildKernelSnapshot otherKernel []) otherKernel =
        .ok k' ∧
      ∀ s, Reaches State.next (fun _ _ => True) (State.ofKernel k') s →
        ∀ addr val, s.wakeResult addr val ≤ s.registeredAt addr - s.claimedAt addr := by
  obtain ⟨fds, cells, -, h⟩ := applySnapshotKernelState_inKernel refusingHost otherKernel otherKernel []
    otherKernel_inKernel
  refine ⟨_, h, (restored_wakes_real_iff _ _ _ _ _ h).mpr ?_⟩
  intro addr e he
  cases he

/-- A fiber parks and the kernel is frozen. On the restored kernel, where no
fiber has registered, a wake says that it woke one. -/
theorem restored_wake_counts_nobody :
    ∃ s k', Reaches State.next (fun _ _ => True) State.init s ∧ (s.waits.read 0).phase = .parked ∧
      applySnapshotKernelState refusingHost
        (buildKernelSnapshot { otherKernel with futexTable := s.table } []) otherKernel = .ok k' ∧
      (State.ofKernel k').wakeResult 8 1 = 1 ∧ (State.ofKernel k').registeredAt 8 = 0 := by
  let acts : List Act := [.register 8 false, .poll 0]
  have hsome : (runFrom State.next State.init acts).isSome := by decide
  obtain ⟨s, hs⟩ := Option.isSome_iff_exists.mp hsome
  have hall : ∀ s' ∈ runFrom State.next State.init acts,
      (s'.waits.read 0).phase = .parked ∧ savedWaiters s'.table 8 = 1 := by decide
  obtain ⟨hparked, hsaved⟩ := hall s hs
  obtain ⟨fds, cells, -, h⟩ := applySnapshotKernelState_inKernel refusingHost
    { otherKernel with futexTable := s.table } otherKernel [] otherKernel_inKernel
  refine ⟨s, _, .runFrom .start (runMeets_of_forall fun _ _ => trivial) hs, hparked, h, ?_, rfl⟩
  rw [State.wakeResult_eq, waiters_restored h, hsaved]
  rfl

end EdgeLibos.Futex
