import EdgeLibos.Snapshot.Types

/-!
# The wire format of a snapshot

`encode_snapshot` and `decode_snapshot`: the codec of each snapshot type, its
fields in the order the source declares them. `decode_snapshot` does not look
at bytes after the value.
-/

namespace EdgeLibos.Snapshot

open Lib Lib.Postcard Mm

namespace Wire

open Codec

def path : Codec PathBuf := string

def memoryPage : Codec MemoryPageSnapshot :=
  (leU32.pair bytes).iso (fun (i, b) => ⟨i, b⟩) (fun p => (p.pageIndex, p.bytes))
    (fun _ => rfl) (fun _ _ => rfl)

def pipe : Codec PipeSnapshot :=
  (bytes.pair (bool.pair bool)).iso (fun (b, c, n) => ⟨b, c, n⟩)
    (fun p => (p.buf, p.closed, p.nonblock)) (fun _ => rfl) (fun _ _ => rfl)

def file : Codec FileSnapshot :=
  (path.option.pair (leU64.pair (bool.pair bytes.option))).iso (fun (p, n, d, c) => ⟨p, n, d, c⟩)
    (fun f => (f.path, f.pos, f.isDir, f.dirCache)) (fun _ => rfl) (fun _ _ => rfl)

-- ---------------------------------------------------------------------------
-- Sockets
-- ---------------------------------------------------------------------------

def socketKindIndex : SocketKind → Fin 2
  | .stream => 0
  | .datagram => 1

def socketKindAt : Fin 2 → SocketKind
  | 0 => .stream
  | 1 => .datagram

def socketKind : Codec SocketKind :=
  (tag 2 (by decide)).iso socketKindAt socketKindIndex (fun k => by cases k <;> rfl)
    (fun i _ => by match i with | 0 | 1 => rfl)

def SockAddrFields : Fin 3 → Type
  | 0 => UInt16 × Vector UInt8 4
  | 1 => UInt16 × Vector UInt8 16
  | 2 => PathBuf

def sockAddrFields : ∀ i, Codec (SockAddrFields i)
  | 0 => u16.pair (byte.array 4)
  | 1 => u16.pair (byte.array 16)
  | 2 => path

def sockAddrAt : (Σ i, SockAddrFields i) → SockAddr
  | ⟨0, port, addr⟩ => .v4 port addr
  | ⟨1, port, addr⟩ => .v6 port addr
  | ⟨2, path⟩ => .unix path

def sockAddrView : SockAddr → Σ i, SockAddrFields i
  | .v4 port addr => ⟨0, port, addr⟩
  | .v6 port addr => ⟨1, port, addr⟩
  | .unix path => ⟨2, path⟩

def sockAddr : Codec SockAddr :=
  (variants (by decide) sockAddrFields).iso sockAddrAt sockAddrView
    (fun a => by cases a <;> rfl) (fun ⟨i, x⟩ _ => by
      match i, x with
      | 0, (port, addr) => rfl
      | 1, (port, addr) => rfl
      | 2, path => rfl)

def unixSock : Codec UnixSockSnapshot :=
  (path.option.pair bool).iso (fun (p, b) => ⟨p, b⟩) (fun u => (u.path, u.peerAddrPresent))
    (fun _ => rfl) (fun _ _ => rfl)

abbrev SocketBase := SocketKind × Bool × Option SockAddr × Option Int32 × Bool × Bool × Bool ×
  Bool × Int32 × UInt8 × Bool × List UInt8 × Bool × Option UnixSockSnapshot

def socketBase : Codec SocketBase :=
  socketKind.pair (bool.pair (sockAddr.option.pair (leI32.option.pair (bool.pair (bool.pair
    (bool.pair (bool.pair (leI32.pair (byte.pair (bool.pair (bytes.pair (bool.pair
      unixSock.option))))))))))))

def socket : Codec SocketSnapshot :=
  (socketBase.pair bool).iso
    (fun ((k, n, b, l, ra, ka, nd, pp, e, s, a, pb, u, ui), i) =>
      ⟨k, n, b, l, ra, ka, nd, pp, e, s, a, pb, u, ui, i⟩)
    (fun s => ((s.sockKind, s.nonblock, s.bound, s.listenBacklog, s.soReuseaddr, s.soKeepalive,
      s.tcpNodelay, s.peerAddrPresent, s.lastError, s.shutdownFlags, s.isAcceptor, s.peekBuf,
      s.familyUnix, s.unixInner), s.inherited))
    (fun _ => rfl) (fun _ _ => rfl)

-- ---------------------------------------------------------------------------
-- The descriptor table
-- ---------------------------------------------------------------------------

def epollEntry : Codec EpollEntrySnapshot :=
  (leU32.pair (leU32.pair leU64)).iso (fun (fd, events, data) => ⟨fd, events, data⟩)
    (fun e => (e.fd, e.events, e.data)) (fun _ => rfl) (fun _ _ => rfl)

def epoll : Codec EpollSnapshot :=
  (epollEntry.seq.pair leU32.option).iso (fun (es, fd) => ⟨es, fd⟩)
    (fun e => (e.entries, e.selfEventFd)) (fun _ => rfl) (fun _ _ => rfl)

def eventFd : Codec EventFdSnapshot :=
  (leU64.pair bool).iso (fun (c, n) => ⟨c, n⟩) (fun e => (e.counter, e.nonblock))
    (fun _ => rfl) (fun _ _ => rfl)

def resourceKindIndex : ResourceKind → Fin 9
  | .stdin => 0
  | .stdout => 1
  | .stderr => 2
  | .pipeRead => 3
  | .pipeWrite => 4
  | .file => 5
  | .socket => 6
  | .epoll => 7
  | .eventFd => 8

def resourceKindAt : Fin 9 → ResourceKind
  | 0 => .stdin
  | 1 => .stdout
  | 2 => .stderr
  | 3 => .pipeRead
  | 4 => .pipeWrite
  | 5 => .file
  | 6 => .socket
  | 7 => .epoll
  | 8 => .eventFd

def resourceKind : Codec ResourceKind :=
  (tag 9 (by decide)).iso resourceKindAt resourceKindIndex (fun k => by cases k <;> rfl)
    (fun i _ => by match i with | 0 | 1 | 2 | 3 | 4 | 5 | 6 | 7 | 8 => rfl)

def resourceBody : Codec ResourceBody :=
  (pipe.option.pair (file.option.pair (socket.option.pair (epoll.option.pair eventFd.option)))).iso
    (fun (p, f, s, e, v) => ⟨p, f, s, e, v⟩) (fun b => (b.pipe, b.file, b.socket, b.epoll, b.eventfd))
    (fun _ => rfl) (fun _ _ => rfl)

def resource : Codec ResourceSnapshot :=
  (resourceKind.pair resourceBody).iso (fun (k, b) => ⟨k, b⟩) (fun r => (r.kind, r.body))
    (fun _ => rfl) (fun _ _ => rfl)

def fdEntry : Codec FdEntrySnapshot :=
  (leU32.pair resource).iso (fun (fd, k) => ⟨fd, k⟩) (fun e => (e.fd, e.kind))
    (fun _ => rfl) (fun _ _ => rfl)

def fds : Codec FdSnapshot :=
  (fdEntry.seq.pair (leU32.pair leU32.seq)).iso (fun (es, n, c) => ⟨es, n, c⟩)
    (fun f => (f.entries, f.nextFd, f.cloexec)) (fun _ => rfl) (fun _ _ => rfl)

-- ---------------------------------------------------------------------------
-- The rest of the kernel
-- ---------------------------------------------------------------------------

def arena : Codec Arena :=
  (varintU32.pair (usize.pair (usize.pair usize).seq)).iso (fun (b, u, l) => ⟨b, u, l⟩)
    (fun a => (a.base, a.used, a.freeList)) (fun _ => rfl) (fun _ _ => rfl)

def linearAllocator : Codec LinearAllocatorSnapshot :=
  (arena.seq.pair (fixintLe 4)).iso (fun (as, h) => ⟨as, h⟩) (fun m => (m.arenas, m.highWater))
    (fun _ => rfl) (fun _ _ => rfl)

def vfs : Codec VfsSnapshot :=
  (path.pair path).iso (fun (r, c) => ⟨r, c⟩) (fun v => (v.root, v.cwd))
    (fun _ => rfl) (fun _ _ => rfl)

def clockState : Codec ClockStateSnapshot :=
  leU64.iso ClockStateSnapshot.mk (·.bootMonotonicNs) (fun _ => rfl) (fun _ _ => rfl)

def sigAction : Codec SigAction :=
  (u64.pair (u64.pair (u64.pair u64))).iso (fun (h, f, r, m) => ⟨h, f, r, m⟩)
    (fun a => (a.handler, a.flags, a.restorer, a.mask)) (fun _ => rfl) (fun _ _ => rfl)

def signalState : Codec SignalStateSnapshot :=
  ((btreeMap (i32.pair sigAction) Int32.toInt fun _ _ => Int32.toInt_inj.mp).pair
    (leU64.pair bytes.option)).iso (fun (as, m, s) => ⟨as, m, s⟩)
    (fun s => (s.actions, s.mask, s.altStack)) (fun _ => rfl) (fun _ _ => rfl)

def futexAddr : Codec FutexAddrSnapshot :=
  (leU32.pair leU32).iso (fun (a, w) => ⟨a, w⟩) (fun f => (f.addr, f.waiters))
    (fun _ => rfl) (fun _ _ => rfl)

abbrev KernelRest := LinearAllocatorSnapshot × VfsSnapshot × ClockStateSnapshot × UInt32 ×
  List String × List (String × String) × RngSeed × SignalStateSnapshot × Option Int32 ×
  Vector UInt8 16 × List FutexAddrSnapshot × UInt64

def kernelRest : Codec KernelRest :=
  linearAllocator.pair (vfs.pair (clockState.pair (leU32.pair (string.seq.pair
    ((string.pair string).seq.pair ((byte.array 32).pair (signalState.pair (leI32.option.pair
      ((byte.array 16).pair (futexAddr.seq.pair leU64))))))))))

def kernel : Codec KernelSnapshot :=
  (leU32.pair (memoryPage.seq.pair (fds.pair (kernelRest.pair (byte.array 32))))).iso
    (fun (v, ps, fd, (mm, vf, cl, br, ar, en, rs, sg, ex, co, fu, cp), sha) =>
      ⟨v, ps, fd, mm, vf, cl, br, ar, en, rs, sg, ex, co, fu, cp, sha⟩)
    (fun s => (s.formatVersion, s.pages, s.fds, (s.mm, s.vfs, s.clock, s.brk, s.args, s.env,
      s.rngSeed, s.signals, s.exitCode, s.comm, s.futexTable, s.cpuNs), s.moduleSha256))
    (fun _ => rfl) (fun _ _ => rfl)

end Wire

def encodeSnapshot (snap : KernelSnapshot) : List UInt8 := Wire.kernel.enc snap

def decodeSnapshot (bytes : List UInt8) : Except SnapshotError KernelSnapshot :=
  match Wire.kernel.dec bytes with
  | .ok (snap, _) => .ok snap
  | .error e => .error (.postcard e)

/-- The lengths, and the allocator's addresses, fit their types on the wire. -/
def Encodable (snap : KernelSnapshot) : Prop := Wire.kernel.valid snap

theorem decodeSnapshot_encodeSnapshot (h : Encodable snap) :
    decodeSnapshot (encodeSnapshot snap) = .ok snap := by
  have := Wire.kernel.dec_enc snap [] h
  rw [List.append_nil] at this
  simp only [decodeSnapshot, encodeSnapshot, this]

/-- A snapshot is never decoded from fewer bytes than it encodes to. -/
theorem decodeSnapshot_length (h : decodeSnapshot bytes = .ok snap) :
    (encodeSnapshot snap).length ≤ bytes.length := by
  unfold decodeSnapshot at h
  split at h
  · rename_i rest hdec
    cases h
    have := (Wire.kernel.dec_ok _ _ _ hdec).2
    unfold encodeSnapshot
    omega
  · cases h

end EdgeLibos.Snapshot
