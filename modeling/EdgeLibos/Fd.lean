import EdgeLibos.Errno
import EdgeLibos.Lib.HashMap
import EdgeLibos.Lib.Heap

/-!
# File descriptors

The resources behind descriptors and the descriptor table. What the source
keeps behind an `Arc` is a reference here: `make_pipe` gives both ends the
same three cells, so a pipe is one cell that both ends name, and a duplicated
file or socket descriptor names the cell of the original. An `Arc<Notify>` is
known by its number only.
-/

namespace EdgeLibos

open Errno Lib

abbrev PathBuf := String

/-- The three `Arc`s that the two ends of a pipe share. -/
structure Pipe where
  buf : List UInt8
  closed : Bool
  nonblock : Bool
  deriving DecidableEq, Repr, Inhabited

structure PipeRead where
  pipe : Nat
  notify : Nat
  deriving DecidableEq, Repr

structure PipeWrite where
  pipe : Nat
  notify : Nat
  deriving DecidableEq, Repr

/-- The first offset that a signed 64-bit word cannot hold. -/
def HostFile.OFFSET_LIMIT : Nat := 2 ^ 63

/-- The first offset that the file system of the host does not let a file have. There is room
for two bytes before it. -/
structure OffsetLimit where
  first : Nat
  room : 2 < first
  signed : first ≤ HostFile.OFFSET_LIMIT
  deriving DecidableEq, Repr

def OffsetLimit.largest : OffsetLimit := ⟨HostFile.OFFSET_LIMIT, by decide, Nat.le_refl _⟩

instance : Inhabited OffsetLimit := ⟨.largest⟩

/-- An open host file: the node it names, the cursor the host keeps for it,
how it was opened, and how far its offsets go. -/
@[ext] structure HostFile where
  node : Nat
  cursor : Nat
  readable : Bool
  writable : Bool
  append : Bool
  limit : OffsetLimit := .largest
  deriving DecidableEq, Repr, Inhabited

@[ext] structure FilePos where
  inner : HostFile
  pos : UInt64
  path : Option PathBuf
  isDir : Bool
  dirCache : Option (List UInt8)
  deriving DecidableEq, Repr, Inhabited

def FilePos.new (f : HostFile) : FilePos :=
  { inner := f, pos := 0, path := none, isDir := false, dirCache := none }

inductive SocketKind
  | stream
  | datagram
  deriving DecidableEq, Repr, Inhabited

inductive SockAddr
  | v4 (port : UInt16) (addr : Vector UInt8 4)
  | v6 (port : UInt16) (addr : Vector UInt8 16)
  | unix (path : PathBuf)
  deriving DecidableEq, Repr

/-- A host listener, known by the port its `local_addr` reports. -/
structure TcpListener where
  localPort : Option UInt16
  deriving DecidableEq, Repr

structure UnixSockInner where
  path : Option PathBuf
  listener : Bool
  peerAddr : Option PathBuf
  deriving DecidableEq, Repr

/-- The state of a socket that a snapshot reads or a restore sets. -/
structure SocketInner where
  kind : SocketKind
  nonblock : Bool
  bound : Option SockAddr
  listenBacklog : Option Int32
  soReuseaddr : Bool
  soKeepalive : Bool
  tcpNodelay : Bool
  listener : Option TcpListener
  peerAddr : Option SockAddr
  lastError : Int32
  shutdownFlags : UInt8
  isAcceptor : Bool
  peekBuf : List UInt8
  unix : Option UnixSockInner
  familyUnix : Bool
  inherited : Bool
  deriving DecidableEq, Repr

def SocketInner.new (kind : SocketKind) (nonblock : Bool) : SocketInner :=
  { kind, nonblock, bound := none, listenBacklog := none, soReuseaddr := false,
    soKeepalive := false, tcpNodelay := false, listener := none, peerAddr := none,
    lastError := 0, shutdownFlags := 0, isAcceptor := false, peekBuf := [], unix := none,
    familyUnix := false, inherited := false }

instance : Inhabited SocketInner := ⟨.new .stream false⟩

def SocketInner.newUnix (kind : SocketKind) (nonblock : Bool) : SocketInner :=
  { SocketInner.new kind nonblock with
    unix := some { path := none, listener := false, peerAddr := none }
    familyUnix := true }

def SocketInner.fromTcpListener (listener : TcpListener) (bound : SockAddr)
    (soReuseaddr nonblock : Bool) : SocketInner :=
  { SocketInner.new .stream nonblock with
    listener := some listener
    bound := some bound
    listenBacklog := some 0
    soReuseaddr
    isAcceptor := true }

def SocketInner.fromUnixListener (path : PathBuf) (nonblock : Bool) : SocketInner :=
  { SocketInner.newUnix .stream nonblock with
    bound := some (.unix path)
    listenBacklog := some 0
    isAcceptor := true
    unix := some { path := some path, listener := true, peerAddr := none } }

structure EpollEntry where
  fd : UInt32
  events : UInt32
  data : UInt64
  wake : Nat
  deriving DecidableEq, Repr

structure EpollInner where
  entries : HashMap UInt32 EpollEntry
  cancel : Nat
  selfEventFd : Option UInt32
  deriving DecidableEq

structure EventFdInner where
  counter : UInt64
  notify : Nat
  nonblock : Bool
  deriving DecidableEq, Repr

inductive Resource
  | stdin (r : PipeRead)
  | stdout (w : PipeWrite)
  | stderr (w : PipeWrite)
  | file (ref : Nat)
  | pipeRead (r : PipeRead)
  | pipeWrite (w : PipeWrite)
  | socket (ref : Nat)
  | epoll (e : EpollInner)
  | eventFd (e : EventFdInner)
  deriving DecidableEq

namespace Resource

def reads? : Resource → Option Nat
  | .stdin r | .pipeRead r => some r.pipe
  | _ => none

def writes? : Resource → Option Nat
  | .stdout w | .stderr w | .pipeWrite w => some w.pipe
  | _ => none

def pipe? : Resource → Option Nat
  | .stdin r | .pipeRead r => some r.pipe
  | .stdout w | .stderr w | .pipeWrite w => some w.pipe
  | _ => none

def file? : Resource → Option Nat
  | .file ref => some ref
  | _ => none

def socket? : Resource → Option Nat
  | .socket ref => some ref
  | _ => none

end Resource

/-- Everything the kernel's resources hold behind an `Arc`. -/
structure Cells where
  pipes : Heap Pipe
  files : Heap FilePos
  sockets : Heap SocketInner
  notifies : Nat

def Cells.empty : Cells := { pipes := .empty, files := .empty, sockets := .empty, notifies := 0 }

/-- `Arc::new(Notify::new())`. -/
def Cells.newNotify (c : Cells) : Nat × Cells := (c.notifies, { c with notifies := c.notifies + 1 })

def Cells.newPipe (c : Cells) (p : Pipe) : Nat × Cells :=
  let (ref, pipes) := c.pipes.alloc p
  (ref, { c with pipes })

def makePipe (c : Cells) : (PipeRead × PipeWrite) × Cells :=
  let (pipe, c) := c.newPipe { buf := [], closed := false, nonblock := false }
  let (notifyRd, c) := c.newNotify
  let (notifyWr, c) := c.newNotify
  (({ pipe, notify := notifyRd }, { pipe, notify := notifyWr }), c)

-- ---------------------------------------------------------------------------
-- The table
-- ---------------------------------------------------------------------------

structure FdTable where
  table : HashMap UInt32 Resource
  nextFd : UInt32
  cloexec : HashSet UInt32

namespace FdTable

def STDIN : UInt32 := 0
def STDOUT : UInt32 := 1
def STDERR : UInt32 := 2

def empty : FdTable := { table := .empty, nextFd := 3, cloexec := .empty }

/-- Standard input and output are the two ends of one pipe. -/
def withBufferedStdio (c : Cells) : FdTable × Cells :=
  let ((rd, wrOut), c) := makePipe c
  let ((_, wrErr), c) := makePipe c
  let table := HashMap.empty.insert STDIN (.stdin rd)
  let table := table.insert STDOUT (.stdout wrOut)
  let table := table.insert STDERR (.stderr wrErr)
  ({ table, nextFd := 3, cloexec := .empty }, c)

def insert (t : FdTable) (r : Resource) : UInt32 × FdTable :=
  (t.nextFd, { t with nextFd := t.nextFd + 1, table := t.table.insert t.nextFd r })

def insertAt (t : FdTable) (fd : UInt32) (r : Resource) : Except Int (UInt32 × FdTable) :=
  if t.table.containsKey fd then .error (-EBADF)
  else
    let nextFd := if fd ≥ t.nextFd then fd + 1 else t.nextFd
    .ok (fd, { t with nextFd, table := t.table.insert fd r })

theorem toNat_succ {fd : UInt32} (h : fd.toNat ≠ 2 ^ 32 - 1) : (fd + 1).toNat = fd.toNat + 1 := by
  have hlt := fd.toNat_lt
  rw [UInt32.toNat_add, UInt32.toNat_one, Nat.mod_eq_of_lt (by omega)]

/-- The loop of `insert_at_least`: the first unbound descriptor from `fd` on. It
never ends when there is none, since the sum saturates. -/
def firstFree (t : FdTable) (fd : UInt32) : Option UInt32 :=
  if t.table.containsKey fd then
    if fd.toNat = 2 ^ 32 - 1 then none else firstFree t (fd + 1)
  else some fd
termination_by 2 ^ 32 - 1 - fd.toNat
decreasing_by
  have hlt := fd.toNat_lt
  rw [toNat_succ (by assumption)]
  omega

def insertAtLeast (t : FdTable) (min : UInt32) (r : Resource) : Option (UInt32 × FdTable) := do
  let fd ← t.firstFree min
  let nextFd := if fd ≥ t.nextFd then fd + 1 else t.nextFd
  return (fd, { t with nextFd, table := t.table.insert fd r })

def setCloexec (t : FdTable) (fd : UInt32) (on : Bool) : FdTable :=
  { t with cloexec := if on then t.cloexec.insert fd () else t.cloexec.erase fd }

def getCloexec (t : FdTable) (fd : UInt32) : Bool := t.cloexec.containsKey fd

def get (t : FdTable) (fd : UInt32) : Except Int Resource :=
  match t.table.get? fd with
  | some r => .ok r
  | none => .error (-EBADF)

def close (t : FdTable) (fd : UInt32) : Except Int FdTable :=
  if t.table.containsKey fd then
    .ok { t with table := t.table.erase fd, cloexec := t.cloexec.erase fd }
  else .error (-EBADF)

theorem get_ok {t : FdTable} : t.get fd = .ok r ↔ t.table.get? fd = some r := by
  unfold get
  split
  · rename_i h
    simp [h]
  · rename_i h
    simp [h]

end FdTable

end EdgeLibos
