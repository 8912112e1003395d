import EdgeLibos.Kernel
import EdgeLibos.Lib.Postcard

/-!
# Snapshot types

The serialisable copy of a kernel's state, field for field. The fixed-width
little-endian wrappers are the integers they wrap, and a `BTreeMap` is the list
of its entries in ascending key order.
-/

namespace EdgeLibos.Snapshot

open Mm

def SNAPSHOT_FORMAT_VERSION : UInt32 := 1

def PAGE_SIZE_BYTES : Nat := 64 * 1024

structure MemoryPageSnapshot where
  pageIndex : UInt32
  bytes : List UInt8
  deriving DecidableEq, Repr

structure PipeSnapshot where
  buf : List UInt8
  closed : Bool
  nonblock : Bool
  deriving DecidableEq, Repr

structure FileSnapshot where
  path : Option PathBuf
  pos : UInt64
  isDir : Bool
  dirCache : Option (List UInt8)
  deriving DecidableEq, Repr

structure UnixSockSnapshot where
  path : Option PathBuf
  peerAddrPresent : Bool
  deriving DecidableEq, Repr

structure SocketSnapshot where
  sockKind : SocketKind
  nonblock : Bool
  bound : Option SockAddr
  listenBacklog : Option Int32
  soReuseaddr : Bool
  soKeepalive : Bool
  tcpNodelay : Bool
  peerAddrPresent : Bool
  lastError : Int32
  shutdownFlags : UInt8
  isAcceptor : Bool
  peekBuf : List UInt8
  familyUnix : Bool
  unixInner : Option UnixSockSnapshot
  inherited : Bool
  deriving DecidableEq, Repr

structure EpollEntrySnapshot where
  fd : UInt32
  events : UInt32
  data : UInt64
  deriving DecidableEq, Repr

structure EpollSnapshot where
  entries : List EpollEntrySnapshot
  selfEventFd : Option UInt32
  deriving DecidableEq, Repr

structure EventFdSnapshot where
  counter : UInt64
  nonblock : Bool
  deriving DecidableEq, Repr

inductive ResourceKind
  | stdin
  | stdout
  | stderr
  | pipeRead
  | pipeWrite
  | file
  | socket
  | epoll
  | eventFd
  deriving DecidableEq, Repr

structure ResourceBody where
  pipe : Option PipeSnapshot
  file : Option FileSnapshot
  socket : Option SocketSnapshot
  epoll : Option EpollSnapshot
  eventfd : Option EventFdSnapshot
  deriving DecidableEq, Repr

def ResourceBody.default : ResourceBody :=
  { pipe := none, file := none, socket := none, epoll := none, eventfd := none }

structure ResourceSnapshot where
  kind : ResourceKind
  body : ResourceBody
  deriving DecidableEq, Repr

namespace ResourceSnapshot

def fromPipe (kind : ResourceKind) (pipe : PipeSnapshot) : ResourceSnapshot :=
  { kind, body := { ResourceBody.default with pipe := some pipe } }

def fromFile (file : FileSnapshot) : ResourceSnapshot :=
  { kind := .file, body := { ResourceBody.default with file := some file } }

def fromSocket (socket : SocketSnapshot) : ResourceSnapshot :=
  { kind := .socket, body := { ResourceBody.default with socket := some socket } }

def fromEpoll (epoll : EpollSnapshot) : ResourceSnapshot :=
  { kind := .epoll, body := { ResourceBody.default with epoll := some epoll } }

def fromEventfd (eventfd : EventFdSnapshot) : ResourceSnapshot :=
  { kind := .eventFd, body := { ResourceBody.default with eventfd := some eventfd } }

end ResourceSnapshot

structure FdEntrySnapshot where
  fd : UInt32
  kind : ResourceSnapshot
  deriving DecidableEq, Repr

structure FdSnapshot where
  entries : List FdEntrySnapshot
  nextFd : UInt32
  cloexec : List UInt32
  deriving DecidableEq, Repr

structure LinearAllocatorSnapshot where
  arenas : List Arena
  highWater : Nat
  deriving DecidableEq, Repr

structure ClockStateSnapshot where
  bootMonotonicNs : UInt64
  deriving DecidableEq, Repr

structure SignalStateSnapshot where
  actions : List (Int32 × SigAction)
  mask : UInt64
  altStack : Option (List UInt8)
  deriving DecidableEq, Repr

structure VfsSnapshot where
  root : PathBuf
  cwd : PathBuf
  deriving DecidableEq, Repr

structure FutexAddrSnapshot where
  addr : UInt32
  waiters : UInt32
  deriving DecidableEq, Repr

structure KernelSnapshot where
  formatVersion : UInt32
  pages : List MemoryPageSnapshot
  fds : FdSnapshot
  mm : LinearAllocatorSnapshot
  vfs : VfsSnapshot
  clock : ClockStateSnapshot
  brk : UInt32
  args : List String
  env : List (String × String)
  rngSeed : RngSeed
  signals : SignalStateSnapshot
  exitCode : Option Int32
  comm : Vector UInt8 16
  futexTable : List FutexAddrSnapshot
  cpuNs : UInt64
  moduleSha256 : Vector UInt8 32

/-- What the operating system reports, or an error made up by the caller. -/
inductive IoError
  | os (errno : Int)
  | other (message : String)
  deriving DecidableEq, Repr

inductive SnapshotError
  | formatVersionMismatch (found supported : UInt32)
  | ioError (e : IoError) (ctx : String)
  | missingPath (path : String)
  | unsupported (what : String)
  | acceptedStreamOnListener
  | abstractUnixNamespace
  | unknownResource
  | postcard (e : Lib.Postcard.Error)
  | invalid (what : String)
  deriving DecidableEq, Repr

end EdgeLibos.Snapshot
