import EdgeLibos.Kernel

/-!
# Futexes as interleaved steps

A fiber runs `futex_wait` in four steps: it registers under the table's lock,
polls the `Notify` it was given for the first time, is woken or its deadline
passes, and releases its place under the lock again. `futex_wake` is one step.
A `Notify` behaves as documented: `notify_one` completes the waiter that has
been parked longest, and when none is parked it stores a permit, at most one,
which the next first poll takes.

Each call of `futex_wait` is a cell of `waits` and each `futex_wake` that found
an entry is recorded in `wakes`; the number of a wake is the tag of the
notifications it sent.
-/

namespace EdgeLibos.Futex

open Lib Errno

-- ---------------------------------------------------------------------------
-- The table
-- ---------------------------------------------------------------------------

/-- Phase 2 of `futex_wait`: one more waiter on the entry, which is created
with the `Notify` at hand when there is none. -/
def register (t : FutexTable) (addr : UInt32) (fresh : Nat) : FutexEntry × FutexTable :=
  let entry := (t.byAddr.get? addr).getD { notify := fresh, waiters := 0 }
  let entry := { entry with waiters := entry.waiters + 1 }
  (entry, { byAddr := t.byAddr.insert addr entry })

/-- The entry with a new count, or no entry when that is zero. -/
def setWaiters (t : FutexTable) (addr : UInt32) (entry : FutexEntry) (waiters : Nat) : FutexTable :=
  if waiters = 0 then { byAddr := t.byAddr.erase addr }
  else { byAddr := t.byAddr.insert addr { entry with waiters } }

def releaseWaiter (t : FutexTable) (addr : UInt32) : FutexTable :=
  match t.byAddr.get? addr with
  | none => t
  | some entry => setWaiters t addr entry (entry.waiters - 1)

/-- The locked part of `futex_wake`: the `Notify` and how often to notify it. -/
def claim (t : FutexTable) (addr : UInt32) (val : Int) : Option (Nat × Nat) × FutexTable :=
  match t.byAddr.get? addr with
  | none => (none, t)
  | some entry =>
    let toWake := min (max val 0).toNat entry.waiters
    (some (entry.notify, toWake), setWaiters t addr entry (entry.waiters - toWake))

-- ---------------------------------------------------------------------------
-- States
-- ---------------------------------------------------------------------------

inductive Phase
  | registered
  | parked
  | woken (wake : Nat)
  | expired
  | returned (wake : Nat)
  | timedOut
  deriving DecidableEq, Repr, Inhabited

def Phase.result : Phase → Option Int
  | .returned _ => some 0
  | .timedOut => some (-ETIMEDOUT)
  | _ => none

/-- The wake whose notification the fiber has received. -/
def Phase.wake : Phase → Option Nat
  | .woken t => some t
  | .returned t => some t
  | _ => none

@[simp] theorem Phase.wake_woken : (Phase.woken t).wake = some t := rfl
@[simp] theorem Phase.wake_returned : (Phase.returned t).wake = some t := rfl
@[simp] theorem Phase.wake_registered : Phase.registered.wake = none := rfl
@[simp] theorem Phase.wake_parked : Phase.parked.wake = none := rfl
@[simp] theorem Phase.wake_expired : Phase.expired.wake = none := rfl
@[simp] theorem Phase.wake_timedOut : Phase.timedOut.wake = none := rfl

structure Wait where
  addr : UInt32
  notify : Nat
  deadline : Bool
  phase : Phase
  deriving DecidableEq, Repr, Inhabited

structure Notify where
  addr : UInt32
  queue : List Nat
  permit : Option Nat
  deriving DecidableEq, Repr, Inhabited

structure Wake where
  addr : UInt32
  notify : Nat
  /-- What `futex_wake` returned. -/
  toWake : Nat
  /-- The waits registered before it are those with a smaller number. -/
  before : Nat
  deriving DecidableEq, Repr

structure State where
  table : FutexTable
  notifies : Heap Notify
  waits : Heap Wait
  wakes : List Wake

namespace State

def init : State := { table := .default, notifies := .empty, waits := .empty, wakes := [] }

def setPhase (s : State) (i : Nat) (phase : Phase) : State :=
  { s with waits := s.waits.write i { s.waits.read i with phase } }

def setNotify (s : State) (n : Nat) (cell : Notify) : State :=
  { s with notifies := s.notifies.write n cell }

-- ---------------------------------------------------------------------------
-- Steps
-- ---------------------------------------------------------------------------

def notifyOne (tag n : Nat) (s : State) : State :=
  let cell := s.notifies.read n
  match cell.queue with
  | i :: rest => (s.setNotify n { cell with queue := rest }).setPhase i (.woken tag)
  | [] => s.setNotify n { cell with permit := cell.permit.or (some tag) }

def notifyMany (tag n : Nat) : Nat → State → State
  | 0, s => s
  | k + 1, s => notifyMany tag n k (notifyOne tag n s)

def registerWait (s : State) (addr : UInt32) (deadline : Bool) : State :=
  let (fresh, notifies) := match s.table.byAddr.get? addr with
    | some entry => (entry.notify, s.notifies)
    | none => s.notifies.alloc { addr, queue := [], permit := none }
  let (entry, table) := register s.table addr fresh
  let wait := { addr, notify := entry.notify, deadline, phase := .registered }
  { s with table, notifies, waits := (s.waits.alloc wait).2 }

def pollWait (s : State) (i : Nat) : State :=
  let n := (s.waits.read i).notify
  let cell := s.notifies.read n
  match cell.permit with
  | some tag => (s.setNotify n { cell with permit := none }).setPhase i (.woken tag)
  | none => (s.setNotify n { cell with queue := cell.queue ++ [i] }).setPhase i .parked

def expireWait (s : State) (i : Nat) : State :=
  let n := (s.waits.read i).notify
  let cell := s.notifies.read n
  (s.setNotify n { cell with queue := cell.queue.erase i }).setPhase i .expired

def releaseWait (s : State) (i : Nat) (phase : Phase) : State :=
  ({ s with table := releaseWaiter s.table (s.waits.read i).addr }).setPhase i phase

def futexWake (s : State) (addr : UInt32) (val : Int) : State :=
  match claim s.table addr val with
  | (none, _) => s
  | (some (notify, toWake), table) =>
    let wake := { addr, notify, toWake, before := s.waits.next }
    notifyMany s.wakes.length notify toWake { s with table, wakes := s.wakes ++ [wake] }

end State

inductive Act
  | register (addr : UInt32) (deadline : Bool)
  | poll (i : Nat)
  | expire (i : Nat)
  | release (i : Nat)
  | wake (addr : UInt32) (val : Int)
  deriving DecidableEq, Repr

def State.next (s : State) : Act → Option State
  | .register addr deadline => some (s.registerWait addr deadline)
  | .poll i =>
    if i < s.waits.next ∧ (s.waits.read i).phase = .registered then some (s.pollWait i) else none
  | .expire i =>
    if i < s.waits.next ∧ (s.waits.read i).phase = .parked ∧ (s.waits.read i).deadline = true then
      some (s.expireWait i)
    else none
  | .release i =>
    if i < s.waits.next then
      match (s.waits.read i).phase with
      | .woken tag => some (s.releaseWait i (.returned tag))
      | .expired => some (s.releaseWait i .timedOut)
      | _ => none
    else none
  | .wake addr val => some (s.futexWake addr val)

-- ---------------------------------------------------------------------------
-- What the steps leave alone
-- ---------------------------------------------------------------------------

namespace State

variable {s : State}

@[simp] theorem setPhase_table : (s.setPhase i p).table = s.table := rfl
@[simp] theorem setPhase_notifies : (s.setPhase i p).notifies = s.notifies := rfl
@[simp] theorem setPhase_wakes : (s.setPhase i p).wakes = s.wakes := rfl
@[simp] theorem setPhase_next : (s.setPhase i p).waits.next = s.waits.next := rfl
@[simp] theorem setNotify_table : (s.setNotify n c).table = s.table := rfl
@[simp] theorem setNotify_waits : (s.setNotify n c).waits = s.waits := rfl
@[simp] theorem setNotify_wakes : (s.setNotify n c).wakes = s.wakes := rfl
@[simp] theorem setNotify_next : (s.setNotify n c).notifies.next = s.notifies.next := rfl

theorem setPhase_read (j : Nat) :
    (s.setPhase i p).waits.read j =
      if j = i then { s.waits.read i with phase := p } else s.waits.read j := by
  simp [setPhase, Heap.read_write]

theorem setNotify_read (m : Nat) :
    (s.setNotify n c).notifies.read m = if m = n then c else s.notifies.read m := by
  simp [setNotify, Heap.read_write]

theorem setNotify_self (n : Nat) : s.setNotify n (s.notifies.read n) = s := by
  simp [setNotify, Heap.write]

theorem registerWait_old (h : s.table.byAddr.get? addr = some e) :
    s.registerWait addr deadline =
      { s with
        table := { byAddr := s.table.byAddr.insert addr { e with waiters := e.waiters + 1 } }
        waits := (s.waits.alloc { addr, notify := e.notify, deadline, phase := .registered }).2 } := by
  simp only [registerWait, register, h, Option.getD_some]

theorem registerWait_new (h : s.table.byAddr.get? addr = none) :
    s.registerWait addr deadline =
      { s with
        table := { byAddr := s.table.byAddr.insert addr { notify := s.notifies.next, waiters := 1 } }
        notifies := (s.notifies.alloc { addr, queue := [], permit := none }).2
        waits := (s.waits.alloc
          { addr, notify := s.notifies.next, deadline, phase := .registered }).2 } := by
  simp only [registerWait, register, h, Option.getD_none, Heap.alloc_fst]

theorem pollWait_permit (h : (s.notifies.read (s.waits.read i).notify).permit = some tag) :
    s.pollWait i = (s.setNotify (s.waits.read i).notify
      { s.notifies.read (s.waits.read i).notify with permit := none }).setPhase i (.woken tag) := by
  simp only [pollWait, h]

theorem pollWait_park (h : (s.notifies.read (s.waits.read i).notify).permit = none) :
    s.pollWait i = (s.setNotify (s.waits.read i).notify
      { s.notifies.read (s.waits.read i).notify with
        queue := (s.notifies.read (s.waits.read i).notify).queue ++ [i] }).setPhase i .parked := by
  simp only [pollWait, h]

end State

theorem setWaiters_get? (t : FutexTable) (addr a : UInt32) (entry : FutexEntry) (waiters : Nat) :
    (setWaiters t addr entry waiters).byAddr.get? a =
      if a = addr then (if waiters = 0 then none else some { entry with waiters })
      else t.byAddr.get? a := by
  unfold setWaiters
  split
  · rename_i h0
    simp only [HashMap.get?_erase]
  · rename_i h0
    simp only [HashMap.get?_insert]

end EdgeLibos.Futex
