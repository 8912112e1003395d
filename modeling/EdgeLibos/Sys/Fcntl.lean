import EdgeLibos.Sys.DupLaws
import EdgeLibos.Sys.PathCalls
import EdgeLibos.Sys.Poll
import EdgeLibos.Sys.Socket

/-!
# `fcntl`, and the calls that make descriptors

All commands of `fcntl`, and the calls that make a descriptor beside `socket`, `pipe2`
and `epoll_create1`. Whether a descriptor is closed on exec is kept in a set beside the
table; `F_GETFD` and `F_SETFD` work on the set alone.
-/

namespace EdgeLibos.Sys

open Errno Lib
open Paths (O_RDONLY O_WRONLY O_RDWR)

def F_DUPFD : BitVec 32 := 0
def F_GETFD : BitVec 32 := 1
def F_SETFD : BitVec 32 := 2
def F_GETFL : BitVec 32 := 3
def F_SETFL : BitVec 32 := 4
def F_DUPFD_CLOEXEC : BitVec 32 := 1030

-- ---------------------------------------------------------------------------
-- fcntl
-- ---------------------------------------------------------------------------

def statusFlags (mode : BitVec 32) (nonblock : Bool) : Int :=
  (if nonblock then mode ||| O_NONBLOCK else mode).toInt

def fcntlGetfl (w : World) (fd : UInt32) : Int :=
  match w.kernel.fds.get fd with
  | .error e => e
  | .ok (.stdin r) | .ok (.pipeRead r) =>
    statusFlags O_RDONLY (w.kernel.cells.pipes.read r.pipe).nonblock
  | .ok (.stdout p) | .ok (.stderr p) | .ok (.pipeWrite p) =>
    statusFlags O_WRONLY (w.kernel.cells.pipes.read p.pipe).nonblock
  | .ok (.socket ref) => statusFlags O_RDWR (w.kernel.cells.sockets.read ref).nonblock
  | .ok (.file _) | .ok (.epoll _) | .ok (.eventFd _) => statusFlags O_RDWR false

/-- The bit is also written to where the argument points; an error there is ignored. -/
def fcntlGetfd (w : World) (fd : UInt32) (arg : Int) : Int × World :=
  let on := w.kernel.fds.getCloexec fd
  let memory := writeOut w.kernel.memory arg 4 (le32 (if on then 1 else 0))
  (if on then 1 else 0, { w with kernel.memory := memory })

def fcntlSetfd (w : World) (fd : UInt32) (arg : Int) : Int × World :=
  (0, { w with kernel.fds := w.kernel.fds.setCloexec fd (BitVec.ofInt 32 arg &&& 1 ≠ 0) })

/-- `none` when the search for a number never ends. -/
def fcntl (w : World) (fd cmd arg : Int) : Option (Int × World) :=
  match u32Fd fd with
  | none => some (-EBADF, w)
  | some f =>
    let cmd := BitVec.ofInt 32 cmd
    if cmd = F_GETFL then some (fcntlGetfl w f, w)
    else if cmd = F_SETFL then some (fcntlSetfl w fd arg)
    else if cmd = F_GETFD then some (fcntlGetfd w f arg)
    else if cmd = F_SETFD then some (fcntlSetfd w f arg)
    else if cmd = F_DUPFD ∨ cmd = F_DUPFD_CLOEXEC then
      (fcntlDupfd w.kernel.fds fd arg (cmd = F_DUPFD_CLOEXEC)).map fun x =>
        (x.1, { w with kernel.fds := x.2 })
    else some (-EINVAL, w)

-- ---------------------------------------------------------------------------
-- New descriptors
-- ---------------------------------------------------------------------------

def EFD_NONBLOCK : BitVec 32 := 0o4000
def EFD_CLOEXEC : BitVec 32 := 0o2000000
def EPOLL_CLOEXEC : BitVec 32 := 0o2000000
def SOCK_CLOEXEC : BitVec 32 := 0o2000000

/-- `openat` from the opened file on. -/
def openat (k : Kernel) : Except Int FilePos → Int × Kernel
  | .error e => (e, k)
  | .ok fp =>
    let (ref, files) := k.cells.files.alloc fp
    let (fd, fds) := k.fds.insert (.file ref)
    (fd.toNat, { k with fds, cells.files := files })

def eventfd2 (k : Kernel) (initval flags : Int) : Int × Kernel :=
  let (notify, cells) := k.cells.newNotify
  let inner := {
    counter := UInt64.ofBitVec (BitVec.ofInt 64 initval)
    notify
    nonblock := BitVec.ofInt 32 flags &&& EFD_NONBLOCK ≠ 0 }
  let (fd, fds) := k.fds.insert (.eventFd inner)
  (fd.toNat, { k with fds, cells })

/-- What the host says to an `accept4`: whether a Unix listener can be cloned, the
listener it binds, and who connects. -/
structure AcceptHost where
  cloned : Bool
  listener : Option TcpListener
  peer : Option SockAddr
  unixPeer : Option (Option PathBuf)

def Accept.answered (host : AcceptHost) : Accept → Accept
  | .returns value k => .returns value k
  | .waits (.bind call _ _) k => acceptBound k call host.listener
  | .waits (.accept call listener) k =>
    let (value, k) := acceptConnected k call listener host.peer
    .returns value k
  | .waits (.acceptUnix call) k =>
    let (value, k) := acceptConnectedUnix k call host.unixPeer
    .returns value k

end EdgeLibos.Sys
