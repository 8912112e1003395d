import EdgeLibos.Lib.History
import EdgeLibos.Sys.Fcntl
import EdgeLibos.Sys.SockAddrs

/-!
# Socket options

`setsockopt` turns an option on, whatever value it is given. A `connect` that the host
refuses leaves its error with the socket, and `getsockopt` tells it once. A `connect` and an
`accept4` wait for the host; other calls run meanwhile, and the answer goes to the socket
that the descriptor names by then.
-/

namespace EdgeLibos.Sys.Options

open Errno Lib
open FdSets (Fits)
open SockAddrs (slice_copy_disjoint copy_read copy_room zeroPage_fits)
open Paths (parseSockaddr AF_UNIX AF_INET)

def ECONNREFUSED : Int := 111
def EISCONN : Int := 106

def SOL_SOCKET : Int := 1
def IPPROTO_TCP : Int := 6
def SO_REUSEADDR : Int := 2
def SO_TYPE : Int := 3
def SO_ERROR : Int := 4
def SO_KEEPALIVE : Int := 9
def SO_ACCEPTCONN : Int := 30
def SO_DOMAIN : Int := 39
def TCP_NODELAY : Int := 1

/-- The options that are recorded. -/
inductive Opt
  | reuseaddr
  | keepalive
  | nodelay
  deriving DecidableEq, Repr

inductive Query
  | type
  | domain
  | error
  | acceptconn
  | opt (o : Opt)
  | other
  deriving DecidableEq, Repr

def i32 (n : Int) : Int := (BitVec.ofInt 32 n).toInt

def query (level optname : Int) : Query :=
  if level = SOL_SOCKET then
    if optname = SO_TYPE then .type
    else if optname = SO_DOMAIN then .domain
    else if optname = SO_ERROR then .error
    else if optname = SO_ACCEPTCONN then .acceptconn
    else if optname = SO_REUSEADDR then .opt .reuseaddr
    else if optname = SO_KEEPALIVE then .opt .keepalive
    else .other
  else if level = IPPROTO_TCP ∧ optname = TCP_NODELAY then .opt .nodelay
  else .other

def known (level optname : Int) : Option Opt :=
  match query level optname with
  | .opt o => some o
  | _ => none

def flag (s : SocketInner) : Opt → Bool
  | .reuseaddr => s.soReuseaddr
  | .keepalive => s.soKeepalive
  | .nodelay => s.tcpNodelay

def turnOn (s : SocketInner) : Opt → SocketInner
  | .reuseaddr => { s with soReuseaddr := true }
  | .keepalive => { s with soKeepalive := true }
  | .nodelay => { s with tcpNodelay := true }

/-- A `connect` that waits for the host. -/
structure Connecting where
  fd : UInt32
  addr : SockAddr
  deriving DecidableEq, Repr

/-- The connections of the sockets and the calls that wait stand beside the kernel. -/
structure Net where
  kernel : Kernel
  stream : Nat → Bool
  streamUnix : Nat → Bool
  connecting : List Connecting
  accepting : List Waiting

namespace Net

def read (st : Net) (ref : Nat) : SocketInner := st.kernel.cells.sockets.read ref

def write (st : Net) (ref : Nat) (s : SocketInner) : Net := { st with kernel := setSocket st.kernel ref s }

/-- The sockets that are new in `kernel` have these connections. -/
def grow (st : Net) (kernel : Kernel) (stream streamUnix : Bool) : Net :=
  { st with
    kernel
    stream := fun r => if r < st.kernel.cells.sockets.next then st.stream r else stream
    streamUnix := fun r => if r < st.kernel.cells.sockets.next then st.streamUnix r else streamUnix }

end Net

-- ---------------------------------------------------------------------------
-- connect
-- ---------------------------------------------------------------------------

inductive ConnectError
  | notFound
  | connectionRefused
  | addrInUse
  | timedOut
  | other
  deriving DecidableEq, Repr

def ConnectError.errno : ConnectError → Int
  | .connectionRefused => ECONNREFUSED
  | .addrInUse => EADDRINUSE
  | .timedOut => ETIMEDOUT
  | _ => Errno.EIO

def connectV4 (st : Net) (fd : UInt32) : SockAddr → Except Int Connecting
  | .v4 port addr =>
    match st.kernel.fds.get fd with
    | .ok (.socket ref) => if st.stream ref then .error (-EISCONN) else .ok { fd, addr := .v4 port addr }
    | .ok _ => .error (-EBADF)
    | .error e => .error e
  | _ => .error (-EOPNOTSUPP)

/-- Up to where it waits for the host. -/
def connect (st : Net) (fd addrPtr addrLen : Int) : Except Int Connecting :=
  match u32Fd fd with
  | none => .error (-EBADF)
  | some fd =>
    match parseSockaddr st.kernel.memory addrPtr addrLen with
    | .error e => .error e
    | .ok (.unix path) =>
      match st.kernel.fds.get fd with
      | .ok (.socket ref) =>
        if !(st.read ref).familyUnix then .error (-EOPNOTSUPP)
        else if st.streamUnix ref then .error (-EISCONN)
        else .ok { fd, addr := .unix path }
      | .ok _ => .error (-EBADF)
      | .error e => .error e
    | .ok addr => connectV4 st fd addr

def connected (st : Net) (c : Connecting) : Int × Net :=
  match st.kernel.fds.get c.fd with
  | .ok (.socket ref) =>
    match c.addr with
    | .unix path =>
      let st := st.write ref { st.read ref with bound := some (.unix path) }
      (0, { st with streamUnix := Function.update st.streamUnix ref true })
    | addr =>
      let st := st.write ref { st.read ref with peerAddr := some addr }
      (0, { st with stream := Function.update st.stream ref true })
  | .ok _ => (-EBADF, st)
  | .error e => (e, st)

/-- The host has not; only an IPv4 socket remembers it. -/
def refused (st : Net) (c : Connecting) (e : ConnectError) : Int × Net :=
  match c.addr with
  | .unix _ => (if e = .notFound then -ECONNREFUSED else - Errno.EIO, st)
  | _ =>
    match st.kernel.fds.get c.fd with
    | .ok (.socket ref) => (-e.errno, st.write ref { st.read ref with lastError := Int32.ofInt e.errno })
    | _ => (-e.errno, st)

def answer (st : Net) (c : Connecting) : Except ConnectError Unit → Int × Net
  | .ok _ => connected st c
  | .error e => refused st c e

-- ---------------------------------------------------------------------------
-- socket, socketpair
-- ---------------------------------------------------------------------------

def socket (st : Net) (family typeAndFlags : Int) : Int × Net :=
  let (fd, kernel) := Sys.socket st.kernel family typeAndFlags
  (fd, st.grow kernel false false)

/-- `pair` says whether the host has made one. -/
def socketpair (st : Net) (family typeAndFlags sv : Int) (pair : Bool) : Int × Net :=
  let sockType := (BitVec.ofInt 32 typeAndFlags &&& 0xf).toNat
  if i32 family ≠ AF_UNIX then (-EAFNOSUPPORT, st)
  else if sockType ≠ SOCK_STREAM ∧ sockType ≠ SOCK_DGRAM then (-EPROTONOSUPPORT, st)
  else if sv = 0 then (-EFAULT, st)
  else
    match guestSlice st.kernel.memory sv 8 with
    | .error e => (e, st)
    | .ok _ =>
      if pair then
        let inner := SocketInner.newUnix (if sockType = SOCK_DGRAM then .datagram else .stream) false
        let (a, kernel) := insertSocket st.kernel inner
        let (b, kernel) := insertSocket kernel inner
        let memory := writeOut kernel.memory sv 8 (le32 a ++ le32 b)
        (0, st.grow { kernel with memory } false true)
      else (- Errno.EIO, st)

-- ---------------------------------------------------------------------------
-- setsockopt, getsockopt
-- ---------------------------------------------------------------------------

/-- The value is not looked at. -/
def setsockopt (st : Net) (fd level optname optval optlen : Int) : Int × Net :=
  match u32Fd fd with
  | none => (-EBADF, st)
  | some fd =>
    match if optval ≠ 0 ∧ 0 < optlen then guestSlice st.kernel.memory optval optlen else .ok [] with
    | .error e => (e, st)
    | .ok _ =>
      match st.kernel.fds.get fd with
      | .ok (.socket ref) => (0, (known (i32 level) (i32 optname)).elim st fun o => st.write ref (turnOn (st.read ref) o))
      | .ok _ => (-EBADF, st)
      | .error e => (e, st)

def valueOf (s : SocketInner) : Query → Int32
  | .type => 1
  | .domain => 2
  | .error => s.lastError
  | .acceptconn => if s.isAcceptor then 1 else 0
  | .opt o => if flag s o then 1 else 0
  | .other => 0

/-- An error is taken out as it is looked at. -/
def looked (s : SocketInner) : Query → SocketInner
  | .error => { s with lastError := 0 }
  | _ => s

def getsockopt (st : Net) (fd level optname optval optlen : Int) : Int × Net :=
  match u32Fd fd with
  | none => (-EBADF, st)
  | some fd =>
    if optval = 0 then (-EFAULT, st)
    else
      match st.kernel.fds.get fd with
      | .ok (.socket ref) =>
        let q := query (i32 level) (i32 optname)
        let value := valueOf (st.read ref) q
        let st := st.write ref (looked (st.read ref) q)
        match guestCopy st.kernel.memory optval 4 (le32 value.toUInt32) with
        | .error e => (e, st)
        | .ok memory => (0, { st with kernel.memory := writeOut memory optlen 4 (le32 4) })
      | _ => (-EBADF, st)

-- ---------------------------------------------------------------------------
-- Runs
-- ---------------------------------------------------------------------------

/-- `accept4` goes on or waits; `.accepted` and `.connected` are the host's answer to the
call that waits at a place of the list. -/
inductive Call
  | store (memory : MemoryKind)
  | socket (family typeAndFlags : Int)
  | socketpair (family typeAndFlags sv : Int) (pair : Bool)
  | bind (fd addrPtr addrLen : Int) (host : BindHost)
  | listen (fd backlog : Int)
  | connect (fd addrPtr addrLen : Int)
  | connected (i : Nat) (host : Except ConnectError Unit)
  | accept4 (fd addrPtr addrlenPtr flags : Int) (cloned : Bool)
  | accepted (i : Nat) (host : AcceptHost)
  | setsockopt (fd level optname optval optlen : Int)
  | getsockopt (fd level optname optval optlen : Int)
  | dup (fd : Int)
  | dup2 (oldfd newfd : Int)
  | close (fd : Int)

def Net.setFds (st : Net) (fds : FdTable) : Net := { st with kernel.fds := fds }

/-- Where an `accept4` has come to. A connection is one of the new socket. -/
def Net.after (st : Net) (unix : Bool) : Accept → Net
  | .returns _ k => st.grow k (!unix) unix
  | .waits on k => { st with kernel := k, accepting := st.accepting ++ [on] }

def isUnix : Waiting → Bool
  | .acceptUnix _ => true
  | _ => false

/-- `none` when nothing waits there, or when the search for a number never ends. -/
def next (st : Net) : Call → Option Net
  | .store memory => some { st with kernel.memory := some memory }
  | .socket family typeAndFlags => some (socket st family typeAndFlags).2
  | .socketpair family typeAndFlags sv pair => some (socketpair st family typeAndFlags sv pair).2
  | .bind fd addrPtr addrLen host => some { st with kernel := (bind st.kernel fd addrPtr addrLen host).2 }
  | .listen fd backlog => some { st with kernel := (listen st.kernel fd backlog).2 }
  | .connect fd addrPtr addrLen =>
    match connect st fd addrPtr addrLen with
    | .error _ => some st
    | .ok c => some { st with connecting := st.connecting ++ [c] }
  | .connected i host =>
    (st.connecting[i]?).map fun c => (answer { st with connecting := st.connecting.eraseIdx i } c host).2
  | .accept4 fd addrPtr addrlenPtr flags cloned =>
    some (st.after false (accept4 st.kernel fd addrPtr addrlenPtr flags cloned))
  | .accepted i host => (st.accepting[i]?).map fun on =>
    Net.after { st with accepting := st.accepting.eraseIdx i } (isUnix on)
      ((Accept.waits on st.kernel).answered host)
  | .setsockopt fd level optname optval optlen => some (setsockopt st fd level optname optval optlen).2
  | .getsockopt fd level optname optval optlen => some (getsockopt st fd level optname optval optlen).2
  | .dup fd => (dup st.kernel.fds fd).map fun (_, fds) => st.setFds fds
  | .dup2 oldfd newfd => (dup2 st.kernel.fds oldfd newfd).map fun (_, fds) => st.setFds fds
  | .close fd => some (st.setFds (close st.kernel.fds fd).2)

-- ---------------------------------------------------------------------------
-- What a socket can be asked
-- ---------------------------------------------------------------------------

/-- A switch that stays on for each option, and the error that has not been told. -/
structure Opts where
  on : Opt → Bool
  acceptor : Bool
  error : Int32

namespace Opts

def new : Opts := { on := fun _ => false, acceptor := false, error := 0 }

def value (s : Opts) : Query → Int32
  | .type => 1
  | .domain => 2
  | .error => s.error
  | .acceptconn => if s.acceptor then 1 else 0
  | .opt o => if s.on o then 1 else 0
  | .other => 0

end Opts

/-- What happens to a socket. An answer is what then stands at the pointer of the guest;
there is none when the call fails, or has the length written over the value. -/
inductive Event
  | made
  | accepting
  | failed (e : Int32)
  | set (o : Opt)
  | asked (q : Query) (answer : Option (List UInt8))
  deriving DecidableEq, Repr

def Opts.take (s : Opts) : Event → Option Opts
  | .made => some .new
  | .accepting => some { s with acceptor := true }
  | .failed e => some { s with error := e }
  | .set o => some { s with on := Function.update s.on o true }
  | .asked q answer =>
    if answer.all (· = le32 (s.value q).toUInt32) then
      some (if q = .error then { s with error := 0 } else s)
    else none

/-- An error that is told, as it stands in memory. -/
def told : Event → Option (List UInt8)
  | .asked .error (some bytes) => if bytes = le32 0 then none else some bytes
  | _ => none

def failure : Event → Option (List UInt8)
  | .failed e => some (le32 e.toUInt32)
  | _ => none

def Opts.pending (s : Opts) : List (List UInt8) := if s.error = 0 then [] else [le32 s.error.toUInt32]

def optsOf (s : SocketInner) : Opts := { on := flag s, acceptor := s.isAcceptor, error := s.lastError }

def Net.opts (st : Net) (ref : Nat) : Opts := optsOf (st.read ref)

def refAt (t : FdTable) (fd : UInt32) : Option Nat :=
  match t.get fd with
  | .ok (.socket ref) => some ref
  | _ => none

/-- A listener was bound for the socket. -/
def BindsFor (k : Kernel) (call : AcceptCall) (listener : Option TcpListener) (ref : Nat) : Prop :=
  listener.isSome ∧ refAt k.fds call.fd = some ref ∧ (k.cells.sockets.read ref).listener.isNone

instance BindsFor.decidable (k : Kernel) (call : AcceptCall) (listener : Option TcpListener) (ref : Nat) :
    Decidable (BindsFor k call listener ref) := by
  unfold BindsFor
  infer_instance

def made (ref : Nat) (st st' : Net) : List Event :=
  if st.kernel.cells.sockets.next ≤ ref ∧ ref < st'.kernel.cells.sockets.next then [.made] else []

def unixAddr : SockAddr → Bool
  | .unix _ => true
  | _ => false

/-- What a call that is not a new socket's does to the socket `ref`. -/
def heard (ref : Nat) (st : Net) : Call → List Event
  | .connected i (.error e) =>
    match st.connecting[i]? with
    | some c =>
      if unixAddr c.addr = false ∧ refAt st.kernel.fds c.fd = some ref then [.failed (Int32.ofInt e.errno)] else []
    | none => []
  | .accepted i host =>
    match st.accepting[i]? with
    | some (.bind call _ _) => if BindsFor st.kernel call host.listener ref then [.accepting] else []
    | _ => []
  | .setsockopt fd level optname optval optlen =>
    match known (i32 level) (i32 optname) with
    | some o =>
      if (setsockopt st fd level optname optval optlen).1 = 0 ∧ (u32Fd fd).bind (refAt st.kernel.fds) = some ref then
        [.set o]
      else []
    | none => []
  | .getsockopt fd level optname optval optlen =>
    if optval ≠ 0 ∧ (u32Fd fd).bind (refAt st.kernel.fds) = some ref then
      let (n, st') := getsockopt st fd level optname optval optlen
      let seen : Bool := n = 0 ∧ (optlen = 0 ∨ optval + 4 ≤ optlen ∨ optlen + 4 ≤ optval)
      [.asked (query (i32 level) (i32 optname))
        (if seen then (guestSlice st'.kernel.memory optval 4).toOption else none)]
    else []
  | _ => []

def events (ref : Nat) (st : Net) (c : Call) : List Event :=
  (next st c).elim [] (made ref st) ++ heard ref st c

-- ---------------------------------------------------------------------------
-- Calls that leave the options alone
-- ---------------------------------------------------------------------------

section
variable {k k' k₁ : Kernel} {ref : Nat}

/-- The sockets there were have the options they had, and there is no other. -/
structure Kept (k k' : Kernel) : Prop where
  next : k'.cells.sockets.next = k.cells.sockets.next
  opts : ∀ ref, optsOf (k'.cells.sockets.read ref) = optsOf (k.cells.sockets.read ref)

theorem Kept.refl (k : Kernel) : Kept k k := ⟨rfl, fun _ => rfl⟩

theorem Kept.trans (h : Kept k k₁) (h' : Kept k₁ k') : Kept k k' :=
  ⟨h'.next.trans h.next, fun ref => (h'.opts ref).trans (h.opts ref)⟩

theorem Kept.of_cells (h : k'.cells.sockets = k.cells.sockets) : Kept k k' := ⟨by rw [h], fun ref => by rw [h]⟩

theorem setSocket_kept {s : SocketInner} (h : optsOf s = optsOf (k.cells.sockets.read ref)) :
    Kept k (setSocket k ref s) := by
  refine ⟨rfl, fun r => ?_⟩
  simp only [setSocket, Heap.read_write]
  split
  · rename_i hr
    rw [h, hr]
  · rfl

/-- The sockets that are new have no option set. -/
structure Grown (k k' : Kernel) : Prop where
  le : k.cells.sockets.next ≤ k'.cells.sockets.next
  old : ∀ ref, ¬ (k.cells.sockets.next ≤ ref ∧ ref < k'.cells.sockets.next) →
    optsOf (k'.cells.sockets.read ref) = optsOf (k.cells.sockets.read ref)
  new : ∀ ref, k.cells.sockets.next ≤ ref → ref < k'.cells.sockets.next →
    optsOf (k'.cells.sockets.read ref) = .new

theorem Kept.grown (h : Kept k k') : Grown k k' where
  le := h.next.ge
  old ref _ := h.opts ref
  new ref hle hlt := absurd hlt (by rw [h.next]; omega)

theorem Grown.of_cells (h : k'.cells.sockets = k.cells.sockets) : Grown k k' := (Kept.of_cells h).grown

theorem Grown.trans (h : Grown k k₁) (h' : Grown k₁ k') : Grown k k' where
  le := h.le.trans h'.le
  old ref hr := by
    have hle := h.le
    have hle' := h'.le
    rw [h'.old ref (by omega), h.old ref (by omega)]
  new ref hle hlt := by
    by_cases hr : k₁.cells.sockets.next ≤ ref
    · exact h'.new ref hr hlt
    · rw [h'.old ref (by omega), h.new ref hle (by omega)]

theorem insertSocket_grown {s : SocketInner} (h : optsOf s = .new) : Grown k (insertSocket k s).2 := by
  have hnext : (insertSocket k s).2.cells.sockets.next = k.cells.sockets.next + 1 := rfl
  have hread : ∀ r, (insertSocket k s).2.cells.sockets.read r =
      if r = k.cells.sockets.next then s else k.cells.sockets.read r := fun r => Heap.read_alloc _ s r
  refine ⟨?_, fun r hr => ?_, fun r hle hlt => ?_⟩
  · simp [hnext]
  · rw [hnext] at hr
    rw [hread, if_neg (by omega)]
  · rw [hnext] at hlt
    rw [hread, if_pos (by omega), h]

theorem optsOf_new (kind : SocketKind) (nonblock : Bool) : optsOf (.new kind nonblock) = .new := by
  simp only [optsOf, SocketInner.new, Opts.new, Opts.mk.injEq, and_true]
  funext o
  cases o <;> rfl

theorem optsOf_newUnix (kind : SocketKind) (nonblock : Bool) : optsOf (.newUnix kind nonblock) = .new :=
  optsOf_new kind nonblock

theorem socket_grown (family typeAndFlags : Int) : Grown k (Sys.socket k family typeAndFlags).2 := by
  simp only [Sys.socket]
  split
  · exact (Kept.refl k).grown
  · split
    · exact insertSocket_grown (optsOf_newUnix _ _)
    · exact insertSocket_grown (optsOf_new _ _)

theorem bind_kept (fd addrPtr addrLen : Int) (host : BindHost) : Kept k (bind k fd addrPtr addrLen host).2 := by
  simp only [bind]
  split
  · exact .refl k
  · split
    · exact .refl k
    · split
      · split
        · split
          · exact .refl k
          · exact setSocket_kept rfl
        · exact .refl k
      · exact .refl k
    · split
      · exact .refl k
      · split
        · split
          · exact .refl k
          · exact setSocket_kept rfl
        · exact setSocket_kept rfl
      · exact .refl k

theorem listen_kept (fd backlog : Int) : Kept k (listen k fd backlog).2 := by
  simp only [listen]
  split
  · exact .refl k
  · split
    · exact .refl k
    · split
      · exact .refl k
      · split
        · exact .refl k
        · exact setSocket_kept rfl
      · exact .refl k

-- ---------------------------------------------------------------------------
-- accept4
-- ---------------------------------------------------------------------------

def Accept.kernel : Accept → Kernel
  | .returns _ k => k
  | .waits _ k => k

theorem takeListener_kept (call : AcceptCall) : Kept k (Accept.kernel (takeListener k call)) := by
  simp only [takeListener]
  split
  · exact .refl k
  · split
    · exact setSocket_kept rfl
    · exact .refl k
  · exact .refl k

theorem accept4Unix_kept (call : AcceptCall) (cloned : Bool) :
    Kept k (Accept.kernel (accept4Unix k call ref cloned)) := by
  simp only [accept4Unix]
  split
  · exact .refl k
  · exact .refl k
  · split
    · split
      · split
        · exact .refl k
        · exact setSocket_kept rfl
      · exact .refl k
    · exact .refl k

theorem accept4_kept (fd addrPtr addrlenPtr flags : Int) (cloned : Bool) :
    Kept k (Accept.kernel (accept4 k fd addrPtr addrlenPtr flags cloned)) := by
  simp only [accept4]
  split
  · exact .refl k
  · split
    · exact .refl k
    · exact .refl k
    · split
      · exact .refl k
      · split
        · exact accept4Unix_kept _ cloned
        · split
          · exact .refl k
          · split
            · split
              · exact .refl k
              · exact takeListener_kept _
            · exact .refl k
            · exact .refl k
      · exact .refl k

theorem putListener_kept (fd : UInt32) (listener : TcpListener) : Kept k (putListener k fd listener) := by
  simp only [putListener]
  split
  · split
    · exact setSocket_kept rfl
    · exact .refl k
  · exact .refl k

theorem acceptConnected_grown (call : AcceptCall) (listener : TcpListener) (peer : Option SockAddr) :
    Grown k (acceptConnected k call listener peer).2 := by
  have hwritten (memory : Option MemoryKind) (s : SocketInner) (hs : optsOf s = .new) :
      Grown k (insertSocket (putListener { k with memory } call.fd listener) s).2 := by
    have hmemory : Kept k { k with memory } := .of_cells rfl
    have hkept := hmemory.trans (putListener_kept call.fd listener)
    exact hkept.grown.trans (insertSocket_grown hs)
  cases peer with
  | none => exact (Kept.refl k).grown
  | some peer =>
    simp only [acceptConnected]
    split
    · exact (Kept.refl k).grown
    · exact (Kept.refl k).grown
    · exact hwritten _ _ (optsOf_new call.kind call.nonblock)

theorem acceptConnectedUnix_grown (call : AcceptCall) (peer : Option (Option PathBuf)) :
    Grown k (acceptConnectedUnix k call peer).2 := by
  cases peer with
  | none => exact (Kept.refl k).grown
  | some path =>
    simp only [acceptConnectedUnix]
    generalize writeOut _ call.addrlenPtr 4 _ = memory
    have hkept : Kept k { k with memory } := .of_cells rfl
    exact hkept.grown.trans (insertSocket_grown (optsOf_newUnix _ _))

theorem acceptBound_next (call : AcceptCall) (listener : Option TcpListener) :
    (Accept.kernel (acceptBound k call listener)).cells.sockets.next = k.cells.sockets.next := by
  cases listener with
  | none => rfl
  | some l =>
    simp only [acceptBound]
    split
    · rfl
    · split <;> exact (takeListener_kept call).next
    · rfl

theorem acceptBound_opts (call : AcceptCall) (listener : Option TcpListener) (ref : Nat) :
    optsOf ((Accept.kernel (acceptBound k call listener)).cells.sockets.read ref) =
      if BindsFor k call listener ref then { optsOf (k.cells.sockets.read ref) with acceptor := true }
      else optsOf (k.cells.sockets.read ref) := by
  cases listener with
  | none => simp [acceptBound, BindsFor, Accept.kernel]
  | some l =>
    simp only [acceptBound]
    split
    · rename_i e hget
      simp [BindsFor, refAt, hget, Accept.kernel]
    · rename_i ref' hget
      split
      · rename_i hnone
        rw [(takeListener_kept call).opts ref]
        simp only [setSocket, Heap.read_write]
        by_cases hr : ref = ref'
        · subst hr
          simp [BindsFor, refAt, hget, hnone, optsOf]
          rfl
        · simp [BindsFor, refAt, hget, hr, Ne.symm hr]
      · rename_i hsome
        rw [(takeListener_kept call).opts ref, if_neg]
        rintro ⟨-, href, hnone⟩
        simp only [refAt, hget, Option.some.injEq] at href
        exact hsome (href ▸ hnone)
    · rename_i r hr hget
      rw [if_neg]
      · rfl
      · rintro ⟨-, href, -⟩
        simp only [refAt] at href
        split at href
        · rename_i ref' hget'
          exact hr ref' (Except.ok.inj (hget.symm.trans hget'))
        · cases href

end

-- ---------------------------------------------------------------------------
-- One call
-- ---------------------------------------------------------------------------

section
variable {st st' : Net} {ref : Nat}

theorem made_none (h : st'.kernel.cells.sockets.next = st.kernel.cells.sockets.next) : made ref st st' = [] := by
  rw [made, if_neg]
  omega

theorem made_taken (h : Grown st.kernel st'.kernel) :
    (made ref st st').foldlM Opts.take (st.opts ref) = some (st'.opts ref) := by
  simp only [made]
  split
  · rename_i hr
    have hnew := h.new ref hr.1 hr.2
    simp [Opts.take, Net.opts, Net.read, hnew]
  · rename_i hr
    have hold := h.old ref hr
    simp [Net.opts, Net.read, hold]

theorem events_grown {c : Call} (hnext : next st c = some st') (h : Grown st.kernel st'.kernel)
    (hheard : heard ref st c = []) : (events ref st c).foldlM Opts.take (st.opts ref) = some (st'.opts ref) := by
  rw [events, hnext, hheard, List.append_nil]
  exact made_taken h

theorem events_heard {c : Call} (hnext : next st c = some st')
    (h : st'.kernel.cells.sockets.next = st.kernel.cells.sockets.next) : events ref st c = heard ref st c := by
  rw [events, hnext, Option.elim_some, made_none h, List.nil_append]

@[simp] theorem write_opts (s : SocketInner) (r : Nat) :
    (st.write r s).opts ref = if ref = r then optsOf s else st.opts ref := by
  simp only [Net.opts, Net.read, Net.write, setSocket, Heap.read_write]
  exact apply_ite optsOf ..

theorem refAt_ok {t : FdTable} (h : t.get fd = .ok (.socket r)) : refAt t fd = some r := by simp [refAt, h]

theorem refAt_none {t : FdTable} {fd : UInt32} (h : ∀ r, t.get fd ≠ .ok (.socket r)) : refAt t fd = none := by
  cases hget : t.get fd with
  | error e => simp [refAt, hget]
  | ok r =>
    cases r with
    | socket ref => exact absurd hget (h ref)
    | _ => simp [refAt, hget]

theorem connected_kept (c : Connecting) : Kept st.kernel (connected st c).2.kernel := by
  simp only [connected]
  split
  · split
    · exact setSocket_kept rfl
    · exact setSocket_kept rfl
  · exact .refl _
  · exact .refl _

theorem refused_next (c : Connecting) (e : ConnectError) :
    (refused st c e).2.kernel.cells.sockets.next = st.kernel.cells.sockets.next := by
  simp only [refused]
  split
  · rfl
  · split <;> rfl

theorem refused_opts (c : Connecting) (e : ConnectError) :
    (refused st c e).2.opts ref =
      if unixAddr c.addr = false ∧ refAt st.kernel.fds c.fd = some ref then
        { st.opts ref with error := Int32.ofInt e.errno }
      else st.opts ref := by
  obtain ⟨fd, addr⟩ := c
  cases hunix : unixAddr addr with
  | true =>
    cases addr with
    | unix path => simp [refused]
    | _ => cases hunix
  | false =>
    have hstep : (refused st { fd, addr } e).2 =
        match st.kernel.fds.get fd with
        | .ok (.socket ref) => st.write ref { st.read ref with lastError := Int32.ofInt e.errno }
        | _ => st := by
      cases addr with
      | unix path => cases hunix
      | v4 port a =>
        simp only [refused]
        split <;> rfl
      | v6 port a =>
        simp only [refused]
        split <;> rfl
    rw [hstep]
    split
    · rename_i r hget
      simp only [refAt_ok hget, write_opts, true_and, Option.some.injEq, eq_comm (a := r)]
      split
      · rename_i hr
        rw [hr]
        rfl
      · rfl
    · rename_i hget
      simp [refAt_none hget]

theorem setsockopt_cases (st : Net) (fd level optname optval optlen : Int) :
    ((setsockopt st fd level optname optval optlen).1 ≠ 0 ∧ (setsockopt st fd level optname optval optlen).2 = st) ∨
      ∃ r, (u32Fd fd).bind (refAt st.kernel.fds) = some r ∧ setsockopt st fd level optname optval optlen =
        (0, (known (i32 level) (i32 optname)).elim st fun o => st.write r (turnOn (st.read r) o)) := by
  have hebadf : -EBADF ≠ 0 := by decide
  simp only [setsockopt]
  cases u32Fd fd with
  | none => exact .inl ⟨hebadf, rfl⟩
  | some fd =>
    simp only [Option.bind_some]
    split
    · rename_i e he
      split at he
      · exact .inl ⟨(guestSlice_error_neg he).ne, rfl⟩
      · cases he
    · split
      · rename_i r hget
        exact .inr ⟨r, refAt_ok hget, rfl⟩
      · exact .inl ⟨hebadf, rfl⟩
      · rename_i e hget
        exact .inl ⟨(get_error_neg hget).ne, rfl⟩

theorem turnOn_opts (s : SocketInner) (o : Opt) :
    optsOf (turnOn s o) = { optsOf s with on := Function.update (optsOf s).on o true } := by
  simp only [optsOf, turnOn, Opts.mk.injEq]
  cases o <;> refine ⟨?_, rfl, rfl⟩ <;> funext o' <;> cases o' <;> rfl

theorem setsockopt_taken (fd level optname optval optlen : Int) :
    (events ref st (.setsockopt fd level optname optval optlen)).foldlM Opts.take (st.opts ref) =
      some ((setsockopt st fd level optname optval optlen).2.opts ref) := by
  have hnext : (setsockopt st fd level optname optval optlen).2.kernel.cells.sockets.next =
      st.kernel.cells.sockets.next := by
    rcases setsockopt_cases st fd level optname optval optlen with ⟨-, hst⟩ | ⟨r, -, h⟩
    · rw [hst]
    · rw [h]
      cases known (i32 level) (i32 optname) <;> rfl
  rw [events_heard rfl hnext, heard]
  rcases setsockopt_cases st fd level optname optval optlen with ⟨hvalue, hst⟩ | ⟨r, hr, h⟩
  · rw [hst]
    split
    · rw [if_neg (by simp [hvalue])]
      rfl
    · rfl
  · rw [h, hr]
    split
    · rename_i o ho
      simp only [true_and, Option.some.injEq, ho, Option.elim_some, write_opts, eq_comm (a := r)]
      split
      · rename_i hrr
        subst hrr
        simp only [List.foldlM_cons, List.foldlM_nil, Opts.take, turnOn_opts]
        rfl
      · rfl
    · rename_i ho
      rw [ho]
      rfl

theorem looked_opts (s : SocketInner) (q : Query) :
    optsOf (looked s q) = if q = .error then { optsOf s with error := 0 } else optsOf s := by
  cases q <;> rfl

theorem valueOf_eq (s : SocketInner) (q : Query) : valueOf s q = (optsOf s).value q := by cases q <;> rfl

/-- Nothing is looked at, or the named socket is. -/
theorem getsockopt_cases (st : Net) (fd level optname optval optlen : Int) :
    ((∀ r, ¬ (optval ≠ 0 ∧ (u32Fd fd).bind (refAt st.kernel.fds) = some r)) ∧
        (getsockopt st fd level optname optval optlen).2 = st) ∨
      ∃ r, (optval ≠ 0 ∧ (u32Fd fd).bind (refAt st.kernel.fds) = some r) ∧
        getsockopt st fd level optname optval optlen =
          let q := query (i32 level) (i32 optname)
          let looked := st.write r (looked (st.read r) q)
          match guestCopy st.kernel.memory optval 4 (le32 (valueOf (st.read r) q).toUInt32) with
          | .error e => (e, looked)
          | .ok memory => (0, { looked with kernel.memory := writeOut memory optlen 4 (le32 4) }) := by
  simp only [getsockopt]
  cases u32Fd fd with
  | none => exact .inl ⟨by simp, rfl⟩
  | some fd =>
    simp only [Option.bind_some]
    by_cases hptr : optval = 0
    · exact .inl ⟨by simp [hptr], by simp [hptr]⟩
    · rw [if_neg hptr]
      split
      · rename_i r hget
        exact .inr ⟨r, ⟨hptr, refAt_ok hget⟩, rfl⟩
      · rename_i hget
        exact .inl ⟨by simp [refAt_none hget], rfl⟩

theorem writeOut_apart {memory : Option MemoryKind} (h : guestSlice memory ptr len = .ok bytes)
    (happart : p = 0 ∨ ptr + len ≤ p ∨ p + n ≤ ptr) : guestSlice (writeOut memory p n new) ptr len = .ok bytes := by
  simp only [writeOut]
  split
  · exact h
  · rename_i hp
    split
    · exact h
    · rename_i memory' hcopy
      exact slice_copy_disjoint h hcopy (happart.resolve_left hp)

theorem getsockopt_next (fd level optname optval optlen : Int) :
    (getsockopt st fd level optname optval optlen).2.kernel.cells.sockets.next = st.kernel.cells.sockets.next := by
  rcases getsockopt_cases st fd level optname optval optlen with ⟨-, hst⟩ | ⟨r, -, h⟩
  · rw [hst]
  · rw [h]
    dsimp only
    split <;> rfl

/-- What is told is what the socket can be asked, and an error is told once. -/
theorem getsockopt_taken (fd level optname optval optlen : Int) :
    (events ref st (.getsockopt fd level optname optval optlen)).foldlM Opts.take (st.opts ref) =
      some ((getsockopt st fd level optname optval optlen).2.opts ref) := by
  rw [events_heard rfl (getsockopt_next ..), heard]
  rcases getsockopt_cases st fd level optname optval optlen with ⟨hno, hst⟩ | ⟨r, ⟨hptr, hr⟩, h⟩
  · rw [if_neg (hno ref), hst]
    rfl
  · generalize hq : query (i32 level) (i32 optname) = q at h ⊢
    have hafter : (getsockopt st fd level optname optval optlen).2.opts ref =
        (st.write r (looked (st.read r) q)).opts ref := by
      rw [h]
      dsimp only
      split <;> rfl
    rw [hafter, write_opts, looked_opts]
    by_cases hrr : ref = r
    · subst hrr
      rw [if_pos ⟨hptr, hr⟩, if_pos rfl, h]
      have hvalue : (st.opts ref).value q = valueOf (st.read ref) q := (valueOf_eq _ q).symm
      dsimp only
      cases hcopy : guestCopy st.kernel.memory optval 4 (le32 (valueOf (st.read ref) q).toUInt32) with
      | error e =>
        have he : e ≠ 0 := (guestCopy_error_neg hcopy).ne
        simp [he, Opts.take]
        rfl
      | ok memory =>
        have hread : guestSlice memory optval 4 = .ok (le32 (valueOf (st.read ref) q).toUInt32) := by
          have hword := copy_read hcopy
          rw [le32_length] at hword
          exact hword
        by_cases happart : optlen = 0 ∨ optval + 4 ≤ optlen ∨ optlen + 4 ≤ optval
        · have hseen : guestSlice (writeOut memory optlen 4 (le32 4)) optval 4 = _ := writeOut_apart hread happart
          simp [happart, hseen, Except.toOption, Opts.take, hvalue]
          rfl
        · simp [happart, Opts.take]
          rfl
    · rw [if_neg (by rintro ⟨-, hr'⟩; exact hrr (Option.some.inj (hr'.symm.trans hr))), if_neg hrr]
      rfl

end

-- ---------------------------------------------------------------------------
-- Whole runs
-- ---------------------------------------------------------------------------

section
variable {st st' : Net}

theorem insertPair_grown {k : Kernel} {s : SocketInner} (h : optsOf s = .new) (memory : Option MemoryKind) :
    Grown k { (insertSocket (insertSocket k s).2 s).2 with memory } := by
  have hkept : Kept (insertSocket (insertSocket k s).2 s).2
      { (insertSocket (insertSocket k s).2 s).2 with memory } := .of_cells rfl
  have hfirst : Grown k (insertSocket k s).2 := insertSocket_grown h
  exact (hfirst.trans (insertSocket_grown h)).trans hkept.grown

theorem socketpair_grown (family typeAndFlags sv : Int) (pair : Bool) :
    Grown st.kernel (socketpair st family typeAndFlags sv pair).2.kernel := by
  simp only [socketpair]
  split
  · exact (Kept.refl _).grown
  · split
    · exact (Kept.refl _).grown
    · split
      · exact (Kept.refl _).grown
      · split
        · exact (Kept.refl _).grown
        · split
          · exact insertPair_grown (optsOf_newUnix _ _) _
          · exact (Kept.refl _).grown

theorem after_kernel (unix : Bool) (a : Accept) : (st.after unix a).kernel = Accept.kernel a := by
  cases a <;> rfl

theorem step_taken (ref : Nat) (st : Net) (c : Call) (st' : Net) (h : next st c = some st') :
    (events ref st c).foldlM Opts.take (st.opts ref) = some (st'.opts ref) := by
  cases c with
  | store memory =>
    apply events_grown h
    · cases h
      exact Grown.of_cells rfl
    · rfl
  | socket family typeAndFlags =>
    apply events_grown h
    · cases h
      exact socket_grown family typeAndFlags
    · rfl
  | socketpair family typeAndFlags sv pair =>
    apply events_grown h
    · cases h
      exact socketpair_grown family typeAndFlags sv pair
    · rfl
  | bind fd addrPtr addrLen host =>
    apply events_grown h
    · cases h
      exact (bind_kept fd addrPtr addrLen host).grown
    · rfl
  | listen fd backlog =>
    apply events_grown h
    · cases h
      exact (listen_kept fd backlog).grown
    · rfl
  | connect fd addrPtr addrLen =>
    apply events_grown h
    · simp only [next] at h
      split at h <;> cases h <;> exact (Kept.refl _).grown
    · rfl
  | connected i host =>
    obtain ⟨c, hc, hst⟩ := Option.map_eq_some_iff.mp h
    cases host with
    | ok u =>
      apply events_grown h
      · subst hst
        exact (@connected_kept { st with connecting := st.connecting.eraseIdx i } c).grown
      · rfl
    | error e =>
      subst hst
      rw [events_heard h (@refused_next { st with connecting := st.connecting.eraseIdx i } c e), heard, hc]
      simp only [answer, refused_opts]
      split <;> rfl
  | accept4 fd addrPtr addrlenPtr flags cloned =>
    apply events_grown h
    · cases h
      rw [after_kernel]
      exact (accept4_kept fd addrPtr addrlenPtr flags cloned).grown
    · rfl
  | accepted i host =>
    obtain ⟨on, hon, hst⟩ := Option.map_eq_some_iff.mp h
    subst hst
    cases on with
    | bind call port addr =>
      have hafter := @after_kernel { st with accepting := st.accepting.eraseIdx i }
        (isUnix (.bind call port addr)) (acceptBound st.kernel call host.listener)
      rw [events_heard h (by rw [Accept.answered, hafter]; exact acceptBound_next call host.listener), heard, hon]
      simp only [Accept.answered, Net.opts, Net.read, hafter, acceptBound_opts]
      split <;> rfl
    | accept call listener =>
      apply events_grown h
      · exact acceptConnected_grown call listener host.peer
      · simp [heard, hon]
    | acceptUnix call =>
      apply events_grown h
      · exact acceptConnectedUnix_grown call host.unixPeer
      · simp [heard, hon]
  | setsockopt fd level optname optval optlen =>
    cases h
    exact setsockopt_taken fd level optname optval optlen
  | getsockopt fd level optname optval optlen =>
    cases h
    exact getsockopt_taken fd level optname optval optlen
  | dup fd =>
    apply events_grown h
    · obtain ⟨r, hr, hst⟩ := Option.map_eq_some_iff.mp h
      subst hst
      exact Grown.of_cells rfl
    · rfl
  | dup2 oldfd newfd =>
    apply events_grown h
    · obtain ⟨r, hr, hst⟩ := Option.map_eq_some_iff.mp h
      subst hst
      exact Grown.of_cells rfl
    · rfl
  | close fd =>
    apply events_grown h
    · cases h
      exact Grown.of_cells rfl
    · rfl

/-- An error is told at most once, and the errors in the order in which they came. -/
theorem told_sublist {s s' : Opts} {seen : List Event} (h : seen.foldlM Opts.take s = some s') :
    (seen.filterMap told).Sublist (s.pending ++ seen.filterMap failure) := by
  induction seen generalizing s with
  | nil => simp
  | cons e seen ih =>
    rw [List.foldlM_cons] at h
    obtain ⟨s₁, h₁, h⟩ := Option.bind_eq_some_iff.mp h
    have hrest := ih h
    have hlost (h₀ : s₁.error = 0) : (seen.filterMap told).Sublist (seen.filterMap failure) := by
      rwa [Opts.pending, if_pos h₀, List.nil_append] at hrest
    have hsame (h₀ : s₁.error = s.error) : (seen.filterMap told).Sublist (s.pending ++ seen.filterMap failure) := by
      rwa [Opts.pending, h₀] at hrest
    cases e with
    | made =>
      cases h₁
      exact (hlost rfl).trans (List.sublist_append_right ..)
    | accepting =>
      cases h₁
      exact hsame rfl
    | set o =>
      cases h₁
      exact hsame rfl
    | failed e =>
      cases h₁
      refine hrest.trans (List.Sublist.trans ?_ (List.sublist_append_right ..))
      simp only [Opts.pending]
      split
      · exact List.sublist_cons_self ..
      · exact List.Sublist.refl _
    | asked q answer =>
      simp only [Opts.take] at h₁
      split at h₁
      · rename_i hanswer
        cases h₁
        by_cases hq : q = .error
        · subst hq
          cases answer with
          | none => exact (hlost rfl).trans (List.sublist_append_right ..)
          | some bytes =>
            obtain rfl : bytes = le32 s.error.toUInt32 := of_decide_eq_true hanswer
            by_cases h₀ : le32 s.error.toUInt32 = le32 0
            · simp only [List.filterMap_cons, told, h₀, if_true, failure]
              exact (hlost rfl).trans (List.sublist_append_right ..)
            · have herror : s.error ≠ 0 := by
                intro hzero
                exact h₀ (by rw [hzero]; rfl)
              have htold : told (.asked .error (some (le32 s.error.toUInt32))) = some (le32 s.error.toUInt32) :=
                if_neg h₀
              simp only [List.filterMap_cons, htold, failure, Opts.pending, if_neg herror]
              exact (hlost rfl).cons_cons _
        · have htold : told (.asked q answer) = none := by
            cases q <;> first | rfl | exact absurd rfl hq
          rw [if_neg hq] at hsame
          simpa only [List.filterMap_cons, htold, failure] using hsame rfl
      · cases h₁

/-- In every run, whatever descriptors name the socket and whoever waits for the host, what
`getsockopt` tells of a socket is what the calls have made of it: an option is on once it has
been set, and the error is the last one, unless that has been looked at. -/
theorem options_told (ref : Nat) (h : runFrom next st calls = some st') :
    (history next (events ref) st calls).foldlM Opts.take (st.opts ref) = some (st'.opts ref) ∧
      ((history next (events ref) st calls).filterMap told).Sublist
        ((st.opts ref).pending ++ (history next (events ref) st calls).filterMap failure) := by
  have htaken := history_taken (step_taken ref) h
  exact ⟨htaken, told_sublist htaken⟩

end

def waiting : Net :=
  let kernel := (Kernel.new [] [] { root := "/", cwd := "/" } (Vector.replicate 32 0)).attachMemory .zeroPage
  let st := { kernel, stream := fun _ => false, streamUnix := fun _ => false, connecting := [], accepting := [] }
  { (socket st AF_INET SOCK_STREAM).2 with connecting := [{ fd := 3, addr := .v4 80 LOCALHOST }] }

def refusedOnce : List Call :=
  [.dup2 3 4, .setsockopt 4 1 9 0 0, .connected 0 (.error .connectionRefused), .getsockopt 4 1 4 16 0,
    .getsockopt 3 1 4 16 0]

theorem options_told_refused : ∃ st', runFrom next waiting refusedOnce = some st' ∧
    (history next (events 0) waiting refusedOnce).foldlM Opts.take (waiting.opts 0) = some (st'.opts 0) ∧
    ((history next (events 0) waiting refusedOnce).filterMap told).Sublist
      ((waiting.opts 0).pending ++ (history next (events 0) waiting refusedOnce).filterMap failure) := by
  obtain ⟨st', h⟩ : ∃ st', runFrom next waiting refusedOnce = some st' := ⟨_, rfl⟩
  exact ⟨st', h, options_told 0 h⟩

end EdgeLibos.Sys.Options
