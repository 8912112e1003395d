import EdgeLibos.Sys.Dup
import EdgeLibos.Sys.HostPaths

/-!
# Listening sockets

`socket`, `bind`, `listen` and `accept4`. What the host answers is an argument. An
`accept4` has two places where it waits for the host: for a listener to be bound, when
its socket has none yet, and for a connection. While it waits for a connection it holds
the listener itself, and the socket has none.
-/

namespace EdgeLibos.Sys

open Errno Lib
open Paths (parseSockaddr AF_UNIX AF_INET AF_INET6 SOCKADDR_IN_SIZE SOCKADDR_UN_SIZE)

def setSocket (k : Kernel) (ref : Nat) (s : SocketInner) : Kernel :=
  { k with cells.sockets := k.cells.sockets.write ref s }

def insertSocket (k : Kernel) (s : SocketInner) : UInt32 × Kernel :=
  let (ref, sockets) := k.cells.sockets.alloc s
  let (fd, fds) := k.fds.insert (.socket ref)
  (fd, { k with fds, cells.sockets := sockets })

-- ---------------------------------------------------------------------------
-- socket, bind, listen
-- ---------------------------------------------------------------------------

def SOCK_STREAM : Nat := 1
def SOCK_DGRAM : Nat := 2
def SOCK_NONBLOCK : BitVec 32 := 0o4000

def socketKind (family : Int) (sockType : Nat) : Except Int SocketKind :=
  if family = AF_INET ∨ family = AF_INET6 ∨ family = AF_UNIX then
    if sockType = SOCK_STREAM then .ok .stream
    else if sockType = SOCK_DGRAM then .ok .datagram
    else .error (-EPROTONOSUPPORT)
  else .error (-EAFNOSUPPORT)

def socket (k : Kernel) (family typeAndFlags : Int) : Int × Kernel :=
  let family := (BitVec.ofInt 32 family).toInt
  let flags := BitVec.ofInt 32 typeAndFlags
  let nonblock : Bool := flags &&& SOCK_NONBLOCK ≠ 0
  match socketKind family (flags &&& 0xf).toNat with
  | .error e => (e, k)
  | .ok kind =>
    let inner := if family = AF_UNIX then SocketInner.newUnix kind nonblock
      else SocketInner.new kind nonblock
    let (fd, k) := insertSocket k inner
    (fd.toNat, k)

/-- What the host says to a `bind`: whether it has a listener at a Unix path, or the
number the call returns without one, and what address a datagram socket got. -/
structure BindHost where
  unix : Except Int Unit
  datagram : Except Int SockAddr

/-- A Unix address needs a Unix socket; the address of any other stream socket is only
recorded. -/
def bind (k : Kernel) (fd addrPtr addrLen : Int) (host : BindHost) : Int × Kernel :=
  match u32Fd fd with
  | none => (-EBADF, k)
  | some fd =>
    match parseSockaddr k.memory addrPtr addrLen with
    | .error e => (e, k)
    | .ok (.unix path) =>
      match k.fds.get fd with
      | .ok (.socket ref) =>
        let s := k.cells.sockets.read ref
        if s.familyUnix then
          match host.unix with
          | .error e => (e, k)
          | .ok _ =>
            let unix := s.unix.map fun u => { u with path := some path, listener := true }
            (0, setSocket k ref { s with bound := some (.unix path), unix })
        else (-EOPNOTSUPP, k)
      | _ => (-EOPNOTSUPP, k)
    | .ok addr =>
      match k.fds.get fd with
      | .error e => (e, k)
      | .ok (.socket ref) =>
        let s := k.cells.sockets.read ref
        match s.kind with
        | .datagram =>
          match host.datagram with
          | .error e => (e, k)
          | .ok actual => (0, setSocket k ref { s with bound := some actual })
        | .stream => (0, setSocket k ref { s with bound := some addr })
      | .ok _ => (-EBADF, k)

def listen (k : Kernel) (fd backlog : Int) : Int × Kernel :=
  match u32Fd fd with
  | none => (-EBADF, k)
  | some fd =>
    if backlog < 0 then (-EINVAL, k)
    else
      match k.fds.get fd with
      | .error e => (e, k)
      | .ok (.socket ref) =>
        let s := k.cells.sockets.read ref
        if s.bound.isNone then (-EDESTADDRREQ, k)
        else (0, setSocket k ref { s with listenBacklog := some (Int32.ofInt backlog) })
      | .ok _ => (-EBADF, k)

-- ---------------------------------------------------------------------------
-- accept4
-- ---------------------------------------------------------------------------

/-- What an `accept4` keeps while it waits. -/
structure AcceptCall where
  fd : UInt32
  addrPtr : Int
  addrlenPtr : Int
  kind : SocketKind
  nonblock : Bool
  deriving DecidableEq, Repr

inductive Waiting
  | bind (call : AcceptCall) (port : UInt16) (addr : Vector UInt8 4)
  | accept (call : AcceptCall) (listener : TcpListener)
  | acceptUnix (call : AcceptCall)
  deriving DecidableEq, Repr

inductive Accept
  | returns (value : Int) (k : Kernel)
  | waits (on : Waiting) (k : Kernel)

/-- An output pointer is checked unless it is null. -/
def checkOut (memory : Option MemoryKind) (ptr len : Int) : Except Int Unit :=
  if ptr = 0 then .ok ()
  else
    match guestSlice memory ptr len with
    | .error e => .error e
    | .ok _ => .ok ()

def writeOut (memory : Option MemoryKind) (ptr len : Int) (bytes : List UInt8) : Option MemoryKind :=
  if ptr = 0 then memory
  else
    match guestCopy memory ptr len bytes with
    | .error _ => memory
    | .ok memory => memory

/-- Phase 1b: the listener is taken out of the socket. -/
def takeListener (k : Kernel) (call : AcceptCall) : Accept :=
  match k.fds.get call.fd with
  | .error e => .returns e k
  | .ok (.socket ref) =>
    let s := k.cells.sockets.read ref
    match s.listener with
    | some listener => .waits (.accept call listener) (setSocket k ref { s with listener := none })
    | none => .returns (-EINVAL) k
  | .ok _ => .returns (-EBADF) k

/-- `accept4_unix`; a listener that cannot be cloned is lost. -/
def accept4Unix (k : Kernel) (call : AcceptCall) (ref : Nat) (cloned : Bool) : Accept :=
  let s := k.cells.sockets.read ref
  match checkOut k.memory call.addrPtr SOCKADDR_UN_SIZE, checkOut k.memory call.addrlenPtr 4 with
  | .error e, _ | .ok _, .error e => .returns e k
  | .ok _, .ok _ =>
    match isListening s, s.unix with
    | true, some u =>
      if u.listener then
        if cloned then .waits (.acceptUnix call) k
        else .returns (-ENOMEM) (setSocket k ref { s with unix := some { u with listener := false } })
      else .returns (-EINVAL) k
    | _, _ => .returns (-EINVAL) k

/-- Up to the first place where it waits. -/
def accept4 (k : Kernel) (sockfd addrPtr addrlenPtr flags : Int) (cloned : Bool) : Accept :=
  match u32Fd sockfd with
  | none => .returns (-EBADF) k
  | some fd =>
    match checkOut k.memory addrPtr SOCKADDR_IN_SIZE, checkOut k.memory addrlenPtr 4 with
    | .error e, _ | .ok _, .error e => .returns e k
    | .ok _, .ok _ =>
      match k.fds.get fd with
      | .error e => .returns e k
      | .ok (.socket ref) =>
        let s := k.cells.sockets.read ref
        let nonblock : Bool := BitVec.ofInt 32 flags &&& SOCK_NONBLOCK ≠ 0
        if s.familyUnix then
          accept4Unix k { fd, addrPtr, addrlenPtr, kind := .stream, nonblock } ref cloned
        else if !isListening s then .returns (-EINVAL) k
        else
          match s.bound with
          | some (.v4 port addr) =>
            let call := { fd, addrPtr, addrlenPtr, kind := s.kind, nonblock := nonblock || s.nonblock }
            if s.listener.isNone then .waits (.bind call port addr) k else takeListener k call
          | some _ => .returns (-EOPNOTSUPP) k
          | none => .returns (-EINVAL) k
      | .ok _ => .returns (-EBADF) k

/-- Phase 1a: the new listener is installed, unless the socket has one by now. -/
def acceptBound (k : Kernel) (call : AcceptCall) : Option TcpListener → Accept
  | none => .returns (-EADDRINUSE) k
  | some listener =>
    match k.fds.get call.fd with
    | .error e => .returns e k
    | .ok (.socket ref) =>
      let s := k.cells.sockets.read ref
      if s.listener.isNone then
        takeListener (setSocket k ref { s with listener := some listener, isAcceptor := true }) call
      else takeListener k call
    | .ok _ => .returns (-EBADF) k

/-- `127.0.0.1` -/
def LOCALHOST : Vector UInt8 4 := #v[127, 0, 0, 1]

def sockaddrIn (port : UInt16) (addr : Vector UInt8 4) : List UInt8 :=
  le16 (UInt16.ofNat AF_INET) ++ be16 port ++ addr.toList ++ List.replicate 8 0

/-- Phase 4: the listener goes back to the socket. -/
def putListener (k : Kernel) (fd : UInt32) (listener : TcpListener) : Kernel :=
  match k.fds.get fd with
  | .ok (.socket ref) =>
    let s := k.cells.sockets.read ref
    if s.listener.isNone then setSocket k ref { s with listener := some listener } else k
  | _ => k

/-- Phases 2 to 5, from the host's answer on: an error, or a connection and its peer. -/
def acceptConnected (k : Kernel) (call : AcceptCall) (listener : TcpListener) :
    Option SockAddr → Int × Kernel
  | none => (- Errno.EIO, k)
  | some peer =>
    let wanted : Bool := call.addrPtr ≠ 0 ∧ (checkOut k.memory call.addrPtr SOCKADDR_IN_SIZE).isOk
    match wanted, peer with
    | true, .v6 _ _ | true, .unix _ => (-EOPNOTSUPP, k)
    | wanted, peer =>
      let memory := match wanted, peer with
        | true, .v4 port addr => writeOut k.memory call.addrPtr SOCKADDR_IN_SIZE (sockaddrIn port addr)
        | _, _ => k.memory
      let memory := writeOut memory call.addrlenPtr 4 (le32 16)
      let k := putListener { k with memory } call.fd listener
      let (fd, k) := insertSocket k { SocketInner.new call.kind call.nonblock with peerAddr := some peer }
      (fd.toNat, k)

def sockaddrUn (path : Option PathBuf) : List UInt8 :=
  le16 (UInt16.ofNat AF_UNIX) ++ ((path.elim [] Paths.bytesOf).take 108 ++ List.replicate 108 0).take 108

/-- The rest of `accept4_unix`: an error, or a connection and the path of its peer. -/
def acceptConnectedUnix (k : Kernel) (call : AcceptCall) : Option (Option PathBuf) → Int × Kernel
  | none => (- Errno.EIO, k)
  | some path =>
    let len := path.elim 2 fun p => UInt32.ofNat (2 + (Paths.bytesOf p).length + 1)
    let memory := writeOut k.memory call.addrPtr SOCKADDR_UN_SIZE (sockaddrUn path)
    let memory := writeOut memory call.addrlenPtr 4 (le32 len)
    let (fd, k) := insertSocket { k with memory } (SocketInner.newUnix .stream call.nonblock)
    (fd.toNat, k)

end EdgeLibos.Sys
