import EdgeLibos.Snapshot.Build
import EdgeLibos.Snapshot.Wire

/-!
# A snapshot does not depend on hash order

Two kernels are in the same state when every map of one agrees with the other's
at every key. Where their lists of entries differ in order, nothing in the
snapshot does.
-/

namespace EdgeLibos

open Lib Snapshot

/-- The same registration; the `Notify` it wakes has no value. -/
def EpollEntry.Same (e e' : EpollEntry) : Prop :=
  e.fd = e'.fd ∧ e.events = e'.events ∧ e.data = e'.data

/-- Resources that hold the same values, whichever cells they keep them in. -/
inductive Resource.Same (c c' : Cells) : Resource → Resource → Prop
  | stdin : c.pipes.read r.pipe = c'.pipes.read r'.pipe → Same c c' (.stdin r) (.stdin r')
  | stdout : c.pipes.read w.pipe = c'.pipes.read w'.pipe → Same c c' (.stdout w) (.stdout w')
  | stderr : c.pipes.read w.pipe = c'.pipes.read w'.pipe → Same c c' (.stderr w) (.stderr w')
  | pipeRead : c.pipes.read r.pipe = c'.pipes.read r'.pipe →
      Same c c' (.pipeRead r) (.pipeRead r')
  | pipeWrite : c.pipes.read w.pipe = c'.pipes.read w'.pipe →
      Same c c' (.pipeWrite w) (.pipeWrite w')
  | file : c.files.read ref = c'.files.read ref' → Same c c' (.file ref) (.file ref')
  | socket : c.sockets.read ref = c'.sockets.read ref' → Same c c' (.socket ref) (.socket ref')
  | epoll : (∀ fd, Option.Rel EpollEntry.Same (e.entries.get? fd) (e'.entries.get? fd)) →
      e.selfEventFd = e'.selfEventFd → Same c c' (.epoll e) (.epoll e')
  | eventFd : e.counter = e'.counter → e.nonblock = e'.nonblock → Same c c' (.eventFd e) (.eventFd e')

structure Kernel.SameState (k k' : Kernel) : Prop where
  table : ∀ fd, Option.Rel (Resource.Same k.cells k'.cells) (k.fds.table.get? fd)
    (k'.fds.table.get? fd)
  nextFd : k.fds.nextFd = k'.fds.nextFd
  cloexec : ∀ fd, k.fds.cloexec.get? fd = k'.fds.cloexec.get? fd
  mm : k.mm = k'.mm
  vfs : k.vfs = k'.vfs
  clock : k.clock = k'.clock
  brk : k.brk = k'.brk
  args : k.args = k'.args
  env : k.env = k'.env
  rngSeed : k.rngSeed = k'.rngSeed
  actions : ∀ signum, k.signals.actions.get? signum = k'.signals.actions.get? signum
  mask : k.signals.mask = k'.signals.mask
  altStack : k.signals.altStack = k'.signals.altStack
  exitCode : k.exitCode = k'.exitCode
  comm : k.comm = k'.comm
  futexes : ∀ addr, Option.Rel (fun e e' => e.waiters = e'.waiters)
    (k.futexTable.byAddr.get? addr) (k'.futexTable.byAddr.get? addr)
  cpuNs : k.cpuNs = k'.cpuNs

namespace Snapshot

theorem epoll_snapshot_same {e e' : EpollInner}
    (h : ∀ fd, Option.Rel EpollEntry.Same (e.entries.get? fd) (e'.entries.get? fd))
    (hself : e.selfEventFd = e'.selfEventFd) : e.snapshot = e'.snapshot := by
  have hperm : (e.entries.entries.map fun p => (p.1, entrySnapshot p.2)).Perm
      (e'.entries.entries.map fun p => (p.1, entrySnapshot p.2)) := by
    refine HashMap.map_perm_of_rel (f := Prod.fst) h ?_ (fun _ => rfl) (fun _ => rfl)
    rintro fd e e' ⟨hfd, hevents, hdata⟩
    simp only [entrySnapshot, hfd, hevents, hdata]
  have hsorted := sortByKey_eq_of_perm (f := fun p : UInt32 × EpollEntrySnapshot => p.1.toNat)
    hperm (nodup_map_toNat (by
      rw [List.map_map]
      exact e.entries.nodup))
  simp only [EpollInner.snapshot, hself, EpollSnapshot.mk.injEq, and_true]
  exact congrArg (List.map Prod.snd) hsorted

theorem resourceSnapshot_same (h : Resource.Same c c' r r') :
    resourceSnapshot c r = resourceSnapshot c' r' := by
  cases h with
  | stdin h | pipeRead h => simp only [resourceSnapshot, PipeRead.snapshot, h]
  | stdout h | stderr h | pipeWrite h => simp only [resourceSnapshot, PipeWrite.snapshot, h]
  | file h => simp only [resourceSnapshot, h]
  | socket h => simp only [resourceSnapshot, h]
  | epoll h hself => simp only [resourceSnapshot, epoll_snapshot_same h hself]
  | eventFd hc hn => simp only [resourceSnapshot, EventFdInner.snapshot, hc, hn]

theorem fdSnapshot_same (h : Kernel.SameState k k') :
    fdSnapshot k.cells k.fds = fdSnapshot k'.cells k'.fds := by
  have hentries : (fdSnapshot k.cells k.fds).entries = (fdSnapshot k'.cells k'.fds).entries := by
    rw [fdSnapshot_entries, fdSnapshot_entries]
    refine sortByKey_eq_of_perm ?_ (nodup_map_toNat (by
      rw [List.map_map]
      exact k.fds.table.nodup))
    refine HashMap.map_perm_of_rel (f := FdEntrySnapshot.fd) h.table ?_ (fun _ => rfl) fun _ => rfl
    intro fd r r' hr
    simp only [entryOf, resourceSnapshot_same hr]
  have hcloexec : (fdSnapshot k.cells k.fds).cloexec = (fdSnapshot k'.cells k'.fds).cloexec := by
    refine sortByKey_eq_of_perm ((HashMap.perm_of_get? h.cloexec).map _) ?_
    exact nodup_map_toNat (f := id) (by simpa [HashMap.keys] using k.fds.cloexec.nodup)
  show FdSnapshot.mk _ k.fds.nextFd _ = FdSnapshot.mk _ k'.fds.nextFd _
  rw [h.nextFd]
  exact congrArg₂ (FdSnapshot.mk · k'.fds.nextFd ·) hentries hcloexec

theorem signals_snapshot_same (h : Kernel.SameState k k') :
    k.signals.snapshot = k'.signals.snapshot := by
  have hkeys := k.signals.actions.nodup.map (f := Int32.toInt) fun a b => Int32.toInt_inj.mp
  rw [List.map_map] at hkeys
  have hactions := sortByKey_eq_of_perm (f := fun p : Int32 × SigAction => p.1.toInt)
    (HashMap.perm_of_get? h.actions) hkeys
  simp only [SignalState.snapshot, hactions, h.mask, h.altStack]

theorem futex_snapshot_same (h : Kernel.SameState k k') :
    k.futexTable.snapshot = k'.futexTable.snapshot := by
  rw [futex_snapshot_eq, futex_snapshot_eq]
  refine sortByKey_eq_of_perm ?_ (nodup_map_toNat (by
    rw [List.map_map]
    exact k.futexTable.byAddr.nodup))
  refine HashMap.map_perm_of_rel (f := FutexAddrSnapshot.addr) h.futexes ?_ (fun _ => rfl)
    fun _ => rfl
  intro addr e e' hw
  simp only [addrSnapshot, hw]

theorem buildKernelSnapshot_same (k k' : Kernel) (pages : List MemoryPageSnapshot)
    (h : Kernel.SameState k k') :
    buildKernelSnapshot k pages = buildKernelSnapshot k' pages ∧
      encodeSnapshot (buildKernelSnapshot k pages) = encodeSnapshot (buildKernelSnapshot k' pages) := by
  have heq : buildKernelSnapshot k pages = buildKernelSnapshot k' pages := by
    simp only [buildKernelSnapshot, fdSnapshot_same h, signals_snapshot_same h,
      futex_snapshot_same h, h.mm, h.vfs, h.clock, h.brk, h.args, h.env, h.rngSeed, h.exitCode,
      h.comm, h.cpuNs]
  exact ⟨heq, congrArg encodeSnapshot heq⟩

def twoWatches (entries : HashMap UInt32 EpollEntry) (swap : Bool) : Kernel :=
  let k := Kernel.new ["app"] [("K", "V")] { root := "/", cwd := "/" } (Vector.replicate 32 7)
  let epoll := Resource.epoll { entries, cancel := 0, selfEventFd := none }
  let counter := Resource.eventFd { counter := 1, notify := 1, nonblock := false }
  let table := if swap then (HashMap.empty.insert 4 epoll).insert 3 counter
    else (HashMap.empty.insert 3 counter).insert 4 epoll
  { k with fds := { k.fds with table, nextFd := 5 } }

def watchZero : EpollEntry := { fd := 0, events := 4, data := 8, wake := 2 }

def watchThree : EpollEntry := { fd := 3, events := 1, data := 9, wake := 3 }

def zeroFirst : HashMap UInt32 EpollEntry := (HashMap.empty.insert 3 watchThree).insert 0 watchZero

def threeFirst : HashMap UInt32 EpollEntry := (HashMap.empty.insert 0 watchZero).insert 3 watchThree

theorem twoWatches_sameState :
    (twoWatches zeroFirst true).SameState (twoWatches threeFirst false) := by
  have hepoll : ∀ fd, Option.Rel EpollEntry.Same (zeroFirst.get? fd) (threeFirst.get? fd) := by
    intro fd
    simp only [zeroFirst, threeFirst, HashMap.get?_insert, HashMap.get?_empty]
    split <;> split
    · simp_all
    · exact .some ⟨rfl, rfl, rfl⟩
    · exact .some ⟨rfl, rfl, rfl⟩
    · exact .none
  refine ⟨?_, rfl, fun _ => rfl, rfl, rfl, rfl, rfl, rfl, rfl, rfl, fun _ => rfl, rfl, rfl, rfl, rfl,
    fun _ => .none, rfl⟩
  intro fd
  simp only [twoWatches, if_true, Bool.false_eq_true, if_false, HashMap.get?_insert, HashMap.get?_empty]
  split <;> split
  · simp_all
  · exact .some (.eventFd rfl rfl)
  · exact .some (.epoll hepoll rfl)
  · exact .none

theorem buildKernelSnapshot_same_twoWatches :
    (twoWatches zeroFirst true).fds.table.entries ≠ (twoWatches threeFirst false).fds.table.entries ∧
      buildKernelSnapshot (twoWatches zeroFirst true) [] =
        buildKernelSnapshot (twoWatches threeFirst false) [] ∧
      encodeSnapshot (buildKernelSnapshot (twoWatches zeroFirst true) []) =
        encodeSnapshot (buildKernelSnapshot (twoWatches threeFirst false) []) :=
  ⟨by decide, buildKernelSnapshot_same _ _ [] twoWatches_sameState⟩

end Snapshot

end EdgeLibos
