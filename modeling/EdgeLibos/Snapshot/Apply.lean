import EdgeLibos.Snapshot.Build

/-!
# Applying a snapshot

`apply_snapshot_kernel_state`. Everything behind an `Arc` is allocated afresh
for each entry. What the host answers is a parameter: the outcome of each host
call made for the entry at a descriptor. An error leaves the loop at once; the
half-applied kernel is not returned.
-/

namespace EdgeLibos.Snapshot

open Errno Lib

structure Host where
  /-- `OpenOptions::new().read(true).write(true).open(path)`. -/
  openReadWrite : UInt32 → PathBuf → Except IoError HostFile
  /-- Whether `metadata(path)` shows a socket, when it succeeds. -/
  isSocket : UInt32 → PathBuf → Option Bool
  bindUnix : UInt32 → PathBuf → Except IoError Unit
  bindTcp : UInt32 → UInt16 → Vector UInt8 4 → Except IoError TcpListener
  setsockoptReuseaddr : UInt32 → Except IoError Unit
  fromStd : UInt32 → Except IoError Unit

/-- `seek(SeekFrom::Start(pos))`. -/
def seekStart (f : HostFile) (pos : UInt64) : Except IoError HostFile :=
  if pos.toNat < f.limit.first then .ok { f with cursor := pos.toNat } else .error (.os EINVAL)

/-- `map_err(|e| SnapshotError::IoError(e, ctx))`. -/
def withCtx (ctx : String) : Except IoError α → Except SnapshotError α
  | .ok v => .ok v
  | .error e => .error (.ioError e ctx)

def restorePipe (c : Cells) (body : ResourceBody) : Except SnapshotError ((Nat × Nat) × Cells) :=
  match body.pipe with
  | none => .error .unknownResource
  | some snap =>
    let (pipe, c) := c.newPipe { buf := snap.buf, closed := snap.closed, nonblock := snap.nonblock }
    let (notify, c) := c.newNotify
    .ok ((pipe, notify), c)

def restoreFile (host : Host) (c : Cells) (fd : UInt32) (body : ResourceBody) :
    Except SnapshotError (Resource × Cells) := do
  let some fsnap := body.file | .error .unknownResource
  if fsnap.isDir then
    .error (.unsupported "Resource::File (directory) reopen on apply_snapshot")
  else
    let some path := fsnap.path | .error (.missingPath "<unknown: no path captured>")
    let f ← withCtx ("open " ++ path) (host.openReadWrite fd path)
    let f ← withCtx ("seek " ++ path) (seekStart f fsnap.pos)
    let fp := { FilePos.new f with path := some path, pos := fsnap.pos, dirCache := fsnap.dirCache }
    let (ref, files) := c.files.alloc fp
    .ok (.file ref, { c with files })

/-- A path a socket can be bound to; `None` or a leading NUL is abstract. -/
def filesystemPath (sock : SocketSnapshot) : Option PathBuf :=
  match sock.unixInner.bind (·.path) with
  | some p => if p.toList.head? = some (Char.ofNat 0) then none else some p
  | none => none

def restoreUnixListener (host : Host) (c : Cells) (fd : UInt32) (sock : SocketSnapshot) :
    Except SnapshotError (Resource × Cells) := do
  let some path := filesystemPath sock | .error .abstractUnixNamespace
  -- A stale socket is unlinked; anything else at the path is refused.
  if host.isSocket fd path = some false then
    .error (.ioError (.os EADDRINUSE) ("path " ++ path.quote ++ " exists and is not a socket"))
  else
    let _ ← withCtx ("bind " ++ path.quote) (host.bindUnix fd path)
    let (ref, sockets) := c.sockets.alloc (.fromUnixListener path sock.nonblock)
    .ok (.socket ref, { c with sockets })

def showV4 (port : UInt16) (addr : Vector UInt8 4) : String :=
  ".".intercalate (addr.toList.map fun b => toString b.toNat) ++ ":" ++ toString port.toNat

def restoreTcpListener (host : Host) (c : Cells) (fd : UInt32) (sock : SocketSnapshot) :
    Except SnapshotError (Resource × Cells) := do
  if !sock.isAcceptor then .error (.unsupported "unconnected TCP client not yet supported")
  else
    let some bound := sock.bound | .error (.unsupported "missing bound for TCP listener")
    let .v4 port addr := bound | .error (.unsupported "only IPv4 socket reopen supported")
    let listener ← withCtx ("bind " ++ showV4 port addr) (host.bindTcp fd port addr)
    if sock.soReuseaddr then
      let _ ← withCtx "set SO_REUSEADDR" (host.setsockoptReuseaddr fd)
    let _ ← withCtx "tokio::TcpListener::from_std" (host.fromStd fd)
    let (ref, sockets) := c.sockets.alloc
      (.fromTcpListener listener (.v4 port addr) sock.soReuseaddr sock.nonblock)
    .ok (.socket ref, { c with sockets })

def restoreSocket (host : Host) (c : Cells) (fd : UInt32) (body : ResourceBody) :
    Except SnapshotError (Resource × Cells) :=
  match body.socket with
  | none => .error .unknownResource
  | some sock =>
    if sock.isAcceptor && sock.peerAddrPresent then .error .acceptedStreamOnListener
    else if sock.familyUnix then restoreUnixListener host c fd sock
    else restoreTcpListener host c fd sock

/-- The registrations, each with a `Notify` of its own. -/
def restoreEpollEntries (c : Cells) : List EpollEntrySnapshot → List (UInt32 × EpollEntry) × Cells
  | [] => ([], c)
  | e :: rest =>
    let (wake, c) := c.newNotify
    let (rest, c) := restoreEpollEntries c rest
    ((e.fd, { fd := e.fd, events := e.events, data := e.data, wake }) :: rest, c)

def restoreEpoll (c : Cells) (body : ResourceBody) : Except SnapshotError (Resource × Cells) :=
  match body.epoll with
  | none => .error .unknownResource
  | some esnap =>
    let (entries, c) := restoreEpollEntries c esnap.entries
    let (cancel, c) := c.newNotify
    .ok (.epoll { entries := .ofList entries, cancel, selfEventFd := esnap.selfEventFd }, c)

def restoreEventFd (c : Cells) (body : ResourceBody) : Except SnapshotError (Resource × Cells) :=
  match body.eventfd with
  | none => .error .unknownResource
  | some esnap =>
    let (notify, c) := c.newNotify
    .ok (.eventFd { counter := esnap.counter, notify, nonblock := esnap.nonblock }, c)

def restoreResource (host : Host) (c : Cells) (fd : UInt32) (s : ResourceSnapshot) :
    Except SnapshotError (Resource × Cells) :=
  let pipe (make : Nat → Nat → Resource) :=
    (restorePipe c s.body).map fun ((pipe, notify), c) => (make pipe notify, c)
  match s.kind with
  | .stdin => pipe fun pipe notify => .stdin { pipe, notify }
  | .stdout => pipe fun pipe notify => .stdout { pipe, notify }
  | .stderr => pipe fun pipe notify => .stderr { pipe, notify }
  | .pipeRead => pipe fun pipe notify => .pipeRead { pipe, notify }
  | .pipeWrite => pipe fun pipe notify => .pipeWrite { pipe, notify }
  | .file => restoreFile host c fd s.body
  | .socket => restoreSocket host c fd s.body
  | .epoll => restoreEpoll c s.body
  | .eventFd => restoreEventFd c s.body

/-- Listeners inherited from the parent are left to the caller to re-attach. -/
def isInherited (s : ResourceSnapshot) : Bool :=
  s.kind = .socket && (s.body.socket.map (·.inherited)).getD false

def restoreEntry (host : Host) (st : FdTable × Cells) (entry : FdEntrySnapshot) :
    Except SnapshotError (FdTable × Cells) :=
  if isInherited entry.kind then .ok st
  else
    match restoreResource host st.2 entry.fd entry.kind with
    | .error e => .error e
    | .ok (resource, cells) =>
      match st.1.insertAt entry.fd resource with
      | .error e =>
        .error (.ioError (.other ("fd " ++ toString entry.fd.toNat ++ " conflict: " ++ toString e))
          "fd insert_at")
      | .ok (_, fds) => .ok (fds, cells)

def restoreEntries (host : Host) : List FdEntrySnapshot → FdTable × Cells →
    Except SnapshotError (FdTable × Cells)
  | [], st => .ok st
  | entry :: rest, st =>
    match restoreEntry host st entry with
    | .error e => .error e
    | .ok st => restoreEntries host rest st

def restoreFds (host : Host) (snap : FdSnapshot) (c : Cells) :
    Except SnapshotError (FdTable × Cells) :=
  match restoreEntries host (sortByKey (fun e => e.fd.toNat) snap.entries) (.empty, c) with
  | .error e => .error e
  | .ok (fds, c) =>
    let fds := snap.cloexec.foldl (fun t fd => t.setCloexec fd true) fds
    .ok ({ fds with nextFd := snap.nextFd }, c)

def rebuildEntries : List FutexAddrSnapshot → HashMap UInt32 FutexEntry → Cells →
    HashMap UInt32 FutexEntry × Cells
  | [], m, c => (m, c)
  | f :: rest, m, c =>
    let (notify, c) := c.newNotify
    rebuildEntries rest (m.insert f.addr { notify, waiters := f.waiters.toNat }) c

def rebuildFromSnapshot (snap : List FutexAddrSnapshot) (c : Cells) : FutexTable × Cells :=
  let (byAddr, c) := rebuildEntries snap .empty c
  ({ byAddr }, c)

def restoredKernel (snap : KernelSnapshot) (kernel : Kernel) (futexTable : FutexTable)
    (fds : FdTable) (cells : Cells) : Kernel :=
  { kernel with
    args := snap.args
    env := snap.env
    comm := snap.comm
    exitCode := snap.exitCode
    brk := snap.brk
    rngSeed := snap.rngSeed
    rng := .fromSeed snap.rngSeed
    vfs := { root := snap.vfs.root, cwd := snap.vfs.cwd }
    clock := { bootMonotonicNs := snap.clock.bootMonotonicNs }
    signals := { actions := .ofList snap.signals.actions, mask := snap.signals.mask,
                 altStack := snap.signals.altStack }
    mm := kernel.mm.replaceFromSnapshot snap.mm
    futexTable
    cpuNs := snap.cpuNs
    fds
    cells }

def applySnapshotKernelState (host : Host) (snap : KernelSnapshot) (kernel : Kernel) :
    Except SnapshotError Kernel :=
  if snap.formatVersion ≠ SNAPSHOT_FORMAT_VERSION then
    .error (.formatVersionMismatch snap.formatVersion SNAPSHOT_FORMAT_VERSION)
  else
    let (futexTable, cells) := rebuildFromSnapshot snap.futexTable kernel.cells
    match restoreFds host snap.fds cells with
    | .error e => .error e
    | .ok (fds, cells) => .ok (restoredKernel snap kernel futexTable fds cells)

theorem applySnapshotKernelState_eq_ok :
    applySnapshotKernelState host snap kernel = .ok k' ↔
      snap.formatVersion = SNAPSHOT_FORMAT_VERSION ∧
      ∃ fds cells, restoreFds host snap.fds (rebuildFromSnapshot snap.futexTable kernel.cells).2 =
          .ok (fds, cells) ∧
        k' = restoredKernel snap kernel (rebuildFromSnapshot snap.futexTable kernel.cells).1 fds
          cells := by
  unfold applySnapshotKernelState
  split
  · rename_i hv
    simp [hv]
  · rename_i hv
    have hv := not_not.mp hv
    simp only [hv, true_and]
    cases restoreFds host snap.fds (rebuildFromSnapshot snap.futexTable kernel.cells).2 with
    | error e => simp
    | ok st =>
      obtain ⟨fds, cells⟩ := st
      simp [eq_comm]

end EdgeLibos.Snapshot
