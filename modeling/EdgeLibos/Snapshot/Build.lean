import EdgeLibos.Snapshot.Types

/-!
# Taking a snapshot

`build_kernel_snapshot`: every hash-ordered container is sorted by its key on
the way out, and what descriptors share is copied out once for each of them.
-/

namespace EdgeLibos

open Lib Snapshot

def PipeRead.snapshot (c : Cells) (r : PipeRead) : PipeSnapshot :=
  let p := c.pipes.read r.pipe
  { buf := p.buf, closed := p.closed, nonblock := p.nonblock }

def PipeWrite.snapshot (c : Cells) (w : PipeWrite) : PipeSnapshot :=
  let p := c.pipes.read w.pipe
  { buf := p.buf, closed := p.closed, nonblock := p.nonblock }

def FilePos.snapshot (f : FilePos) : FileSnapshot :=
  { path := f.path, pos := f.pos, isDir := f.isDir, dirCache := f.dirCache }

def SocketInner.snapshot (s : SocketInner) : SocketSnapshot where
  sockKind := s.kind
  nonblock := s.nonblock
  bound := s.bound
  listenBacklog := s.listenBacklog
  soReuseaddr := s.soReuseaddr
  soKeepalive := s.soKeepalive
  tcpNodelay := s.tcpNodelay
  peerAddrPresent := s.peerAddr.isSome
  lastError := s.lastError
  shutdownFlags := s.shutdownFlags
  isAcceptor := s.isAcceptor
  peekBuf := s.peekBuf
  familyUnix := s.familyUnix
  unixInner := s.unix.map fun u => { path := u.path, peerAddrPresent := u.peerAddr.isSome }
  inherited := s.inherited

def recordPort (s : SocketInner) (snap : SocketSnapshot) : SocketSnapshot :=
  match s.listener.bind (·.localPort), snap.bound with
  | some actual, some (.v4 port addr) =>
    if port = 0 then { snap with bound := some (.v4 actual addr) } else snap
  | _, _ => snap

def EpollInner.snapshot (e : EpollInner) : EpollSnapshot :=
  let v := e.entries.entries.map fun (fd, e) =>
    (fd, ({ fd := e.fd, events := e.events, data := e.data } : EpollEntrySnapshot))
  let v := sortByKey (fun p => p.1.toNat) v
  { entries := v.map Prod.snd, selfEventFd := e.selfEventFd }

def EventFdInner.snapshot (e : EventFdInner) : EventFdSnapshot :=
  { counter := e.counter, nonblock := e.nonblock }

/-- `entry.waiters as u32`. -/
def FutexTable.snapshot (t : FutexTable) : List FutexAddrSnapshot :=
  let v := t.byAddr.entries.map fun (addr, entry) =>
    ({ addr, waiters := UInt32.ofNat entry.waiters } : FutexAddrSnapshot)
  sortByKey (fun f => f.addr.toNat) v

def SignalState.snapshot (s : SignalState) : SignalStateSnapshot :=
  { actions := sortByKey (fun p => p.1.toInt) s.actions.entries
    mask := s.mask
    altStack := s.altStack }

namespace Mm

def LinearAllocator.snapshot (mm : LinearAllocator) : LinearAllocatorSnapshot :=
  { arenas := mm.arenas, highWater := mm.highWater }

def LinearAllocator.replaceFromSnapshot (_mm : LinearAllocator) (snap : LinearAllocatorSnapshot) :
    LinearAllocator := { arenas := snap.arenas, highWater := snap.highWater }

end Mm

namespace Snapshot

def resourceSnapshot (c : Cells) : Resource → ResourceSnapshot
  | .stdin p => .fromPipe .stdin (p.snapshot c)
  | .stdout p => .fromPipe .stdout (p.snapshot c)
  | .stderr p => .fromPipe .stderr (p.snapshot c)
  | .pipeRead p => .fromPipe .pipeRead (p.snapshot c)
  | .pipeWrite p => .fromPipe .pipeWrite (p.snapshot c)
  | .file ref => .fromFile (c.files.read ref).snapshot
  | .socket ref => .fromSocket (recordPort (c.sockets.read ref) (c.sockets.read ref).snapshot)
  | .epoll e => .fromEpoll e.snapshot
  | .eventFd e => .fromEventfd e.snapshot

def fdSnapshot (c : Cells) (t : FdTable) : FdSnapshot where
  entries := (sortByKey (fun p => p.1.toNat) t.table.entries).map fun (fd, r) =>
    { fd, kind := resourceSnapshot c r }
  nextFd := t.nextFd
  cloexec := sortByKey (fun fd => fd.toNat) t.cloexec.keys

def buildKernelSnapshot (k : Kernel) (pages : List MemoryPageSnapshot) : KernelSnapshot where
  formatVersion := SNAPSHOT_FORMAT_VERSION
  pages := pages
  fds := fdSnapshot k.cells k.fds
  mm := k.mm.snapshot
  vfs := { root := k.vfs.root, cwd := k.vfs.cwd }
  clock := { bootMonotonicNs := k.clock.bootMonotonicNs }
  brk := k.brk
  args := k.args
  env := k.env
  rngSeed := k.rngSeed
  signals := k.signals.snapshot
  exitCode := k.exitCode
  comm := k.comm
  futexTable := k.futexTable.snapshot
  cpuNs := k.cpuNs
  moduleSha256 := Vector.replicate 32 0

@[simp] theorem buildKernelSnapshot_pages (k : Kernel) (pages : List MemoryPageSnapshot) :
    (buildKernelSnapshot k pages).pages = pages := rfl

-- ---------------------------------------------------------------------------
-- Each container is the sorted list of its entries
-- ---------------------------------------------------------------------------

/-- `EpollInner::snapshot` of one registration. -/
def entrySnapshot (e : EpollEntry) : EpollEntrySnapshot :=
  { fd := e.fd, events := e.events, data := e.data }

theorem nodup_map_toNat {f : α → UInt32} {l : List α} (h : (l.map f).Nodup) :
    (l.map fun a => (f a).toNat).Nodup := by
  have := h.map (f := UInt32.toNat) fun a b => UInt32.toNat_inj.mp
  rwa [List.map_map] at this

theorem epoll_entries_eq (e : EpollInner) : e.snapshot.entries =
    (sortByKey (fun p => p.1.toNat) e.entries.entries).map fun p => entrySnapshot p.2 := by
  simp only [EpollInner.snapshot]
  rw [sortByKey_map (f := fun p : UInt32 × EpollEntry => p.1.toNat)
    (g := fun p : UInt32 × EpollEntrySnapshot => p.1.toNat) (fun _ => rfl), List.map_map]
  rfl

def entryOf (c : Cells) (p : UInt32 × Resource) : FdEntrySnapshot :=
  { fd := p.1, kind := resourceSnapshot c p.2 }

theorem fdSnapshot_entries (c : Cells) (t : FdTable) :
    (fdSnapshot c t).entries = sortByKey (fun e => e.fd.toNat) (t.table.entries.map (entryOf c)) := by
  rw [sortByKey_map (f := fun p : UInt32 × Resource => p.1.toNat)
    (g := fun e : FdEntrySnapshot => e.fd.toNat) fun _ => rfl]
  rfl

theorem mem_fdSnapshot_iff : e ∈ (fdSnapshot c t).entries ↔
    ∃ r, t.table.get? e.fd = some r ∧ e.kind = resourceSnapshot c r := by
  rw [fdSnapshot_entries, mem_sortByKey, List.mem_map]
  constructor
  · rintro ⟨p, hp, rfl⟩
    exact ⟨p.2, HashMap.get?_eq_some_iff.mpr hp, rfl⟩
  · rintro ⟨r, hr, hkind⟩
    refine ⟨(e.fd, r), HashMap.get?_eq_some_iff.mp hr, ?_⟩
    rw [entryOf, ← hkind]

/-- `FutexTable::snapshot` of one entry. -/
def addrSnapshot (p : UInt32 × FutexEntry) : FutexAddrSnapshot :=
  { addr := p.1, waiters := UInt32.ofNat p.2.waiters }

theorem futex_snapshot_eq (t : FutexTable) :
    t.snapshot = sortByKey (fun f => f.addr.toNat) (t.byAddr.entries.map addrSnapshot) := rfl

end Snapshot

end EdgeLibos
