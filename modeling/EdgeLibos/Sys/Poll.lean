import EdgeLibos.Sys.Dup

/-!
# Waiting for descriptors

`poll`, `ppoll` and the epoll calls, up to the point where they return or park, and the
`Notify` that a `write` fires. A call that parks is known by what its descriptors were
bound to and by the `Notify` objects it subscribed to. `sides` holds what a socket has
besides the state that a snapshot sees.
-/

namespace EdgeLibos.Sys

open Errno Lib

structure SocketSide where
  notifyRead : Nat
  notifyWrite : Nat
  hasStream : Bool
  deriving DecidableEq, Repr, Inhabited

inductive Polled
  | returns (value : Int) (memory : Option MemoryKind)
  | parks (watched : List Resource) (wakes : List Nat)

section
variable (k : Kernel) (sides : Nat → SocketSide)

-- ---------------------------------------------------------------------------
-- poll
-- ---------------------------------------------------------------------------

def POLLIN : UInt16 := 0x0001
def POLLOUT : UInt16 := 0x0004
def POLLERR : UInt16 := 0x0008
def POLLNVAL : UInt16 := 0x0020

/-- Descriptor, requested events and a place for the events returned. -/
def pollfdsOf : List UInt8 → List (Int × UInt16)
  | f₀ :: f₁ :: f₂ :: f₃ :: e₀ :: e₁ :: _ :: _ :: rest =>
    ((BitVec.ofNat 32 (leValue [f₀, f₁, f₂, f₃])).toInt, UInt16.ofNat (leValue [e₀, e₁])) ::
      pollfdsOf rest
  | _ => []

def readyPipeRead (events : UInt16) (hasDataOrEof : Bool) : UInt16 :=
  (if hasDataOrEof ∧ events &&& POLLIN ≠ 0 then POLLIN else 0) |||
    (if events &&& POLLOUT ≠ 0 then POLLERR else 0)

def readySocket (events : UInt16) (s : SocketInner) (side : SocketSide) : UInt16 :=
  (if events &&& POLLIN ≠ 0 then
    if side.hasStream then POLLIN else if isListening s then POLLNVAL else 0
  else 0) |||
  (if events &&& POLLOUT ≠ 0 then
    if side.hasStream then POLLOUT else if s.bound.isSome then POLLNVAL else 0
  else 0)

def pollOne (fd : Int) (events : UInt16) : UInt16 :=
  match (u32Fd fd).bind k.fds.table.get? with
  | none => POLLNVAL
  | some (.stdin p) =>
    let pipe := k.cells.pipes.read p.pipe
    readyPipeRead events (!pipe.closed || !pipe.buf.isEmpty)
  | some (.stdout _) | some (.stderr _) => POLLOUT &&& events
  | some (.file _) => POLLIN ||| POLLOUT
  | some (.pipeRead p) =>
    let pipe := k.cells.pipes.read p.pipe
    readyPipeRead events (!pipe.buf.isEmpty || pipe.closed)
  | some (.pipeWrite _) => POLLOUT &&& events
  | some (.socket ref) => readySocket events (k.cells.sockets.read ref) (sides ref)
  | some (.epoll _) | some (.eventFd _) => POLLNVAL

/-- What `poll` subscribes to for a resource. -/
def wakeOf : Resource → Option Nat
  | .pipeRead p => some p.notify
  | .pipeWrite p => some p.notify
  | .socket ref => some (sides ref).notifyRead
  | _ => none

def setRevents : List UInt8 → List UInt16 → List UInt8
  | f₀ :: f₁ :: f₂ :: f₃ :: e₀ :: e₁ :: _ :: _ :: rest, r :: readiness =>
    [f₀, f₁, f₂, f₃, e₀, e₁] ++ le16 r ++ setRevents rest readiness
  | bytes, _ => bytes

def writeRevents (fdsPtr : Int) (readiness : List UInt16) : Polled :=
  let total : Int := readiness.length * 8
  match guestSlice k.memory fdsPtr total with
  | .error e => .returns e k.memory
  | .ok bytes =>
    match guestCopy k.memory fdsPtr total (setRevents bytes readiness) with
    | .error e => .returns e k.memory
    | .ok memory => .returns (readiness.countP (· ≠ 0)) memory

def poll (fdsPtr nfds timeoutMs : Int) : Polled :=
  if nfds < 0 then .returns (-EINVAL) k.memory
  else if nfds = 0 then .returns 0 k.memory
  else if nfds * 8 ≥ 2 ^ 64 then .returns (-EINVAL) k.memory
  else
    match guestSlice k.memory fdsPtr (Int.bmod (nfds * 8) (2 ^ 64)) with
    | .error e => .returns e k.memory
    | .ok bytes =>
      let entries := pollfdsOf bytes
      let watched := entries.filterMap fun e => (u32Fd e.1).bind k.fds.table.get?
      let readiness := entries.map fun e => pollOne k sides e.1 e.2
      if readiness.any (· ≠ 0) ∨ timeoutMs = 0 then writeRevents k fdsPtr readiness
      else .parks watched (watched.filterMap (wakeOf sides))

/-- A `struct timespec` in milliseconds; the product saturates and the sum wraps. -/
def timespecMs (bytes : List UInt8) : Option Int :=
  let sec := (BitVec.ofNat 64 (leValue (bytes.take 8))).toInt
  let nsec := (BitVec.ofNat 64 (leValue ((bytes.drop 8).take 8))).toInt
  if sec < 0 ∨ nsec < 0 ∨ 1000000000 ≤ nsec then none
  else some (Int.bmod (min (sec * 1000) (2 ^ 63 - 1) + nsec / 1000000) (2 ^ 64))

def ppoll (fdsPtr nfds tsp : Int) : Polled :=
  if nfds < 0 then .returns (-EINVAL) k.memory
  else if nfds = 0 then .returns 0 k.memory
  else if tsp = 0 then poll k sides fdsPtr nfds (-1)
  else
    match guestSlice k.memory tsp 16 with
    | .error e => .returns e k.memory
    | .ok bytes =>
      match timespecMs bytes with
      | none => .returns (-EINVAL) k.memory
      | some timeoutMs => poll k sides fdsPtr nfds timeoutMs

-- ---------------------------------------------------------------------------
-- epoll
-- ---------------------------------------------------------------------------

def EPOLL_CTL_ADD : Int := 1
def EPOLL_CTL_DEL : Int := 2
def EPOLL_CTL_MOD : Int := 3

def EPOLLIN : UInt32 := 0x001
def EPOLLOUT : UInt32 := 0x004
def EPOLLERR : UInt32 := 0x008
def EPOLLHUP : UInt32 := 0x010

def EPOLL_EVENT_SIZE : Int := 12

def epollCreate1 : Int × Kernel :=
  let (cancel, cells) := k.cells.newNotify
  let (fd, fds) := k.fds.insert (.epoll { entries := .empty, cancel, selfEventFd := none })
  (fd.toNat, { k with fds, cells })

/-- The two `Notify` objects to choose from: those of a socket, or one that nobody
else has. -/
def wakePrimitives (fd : UInt32) : (Nat × Nat) × Cells :=
  match k.fds.table.get? fd with
  | some (.socket ref) => (((sides ref).notifyRead, (sides ref).notifyWrite), k.cells)
  | _ =>
    let (placeholder, cells) := k.cells.newNotify
    ((placeholder, placeholder), cells)

def pickWake (events : UInt32) (wakes : Nat × Nat) (cancel : Nat) : Nat :=
  if events &&& EPOLLIN ≠ 0 then wakes.1
  else if events &&& EPOLLOUT ≠ 0 then wakes.2
  else cancel

def register (epfd fd : UInt32) (e : EpollInner) (event : List UInt8) (wakes : Nat × Nat) : Kernel :=
  let events := ofLe32 (event.take 4)
  let data := fromNeBytes ((event.drop 4).take 8)
  let entry := { fd, events, data, wake := pickWake events wakes e.cancel }
  { k with fds.table := k.fds.table.insert epfd (.epoll { e with entries := e.entries.insert fd entry }) }

/-- The value returned, the kernel and whether `cancel` was fired. -/
def epollCtl (epfd op fd eventPtr : Int) : Int × Kernel × Bool :=
  match u32Fd epfd, u32Fd fd with
  | some epfd, some fd =>
    match k.fds.get epfd with
    | .error e => (e, k, false)
    | .ok (.epoll e) =>
      let contains := e.entries.containsKey fd
      let (wakes, cells) := wakePrimitives k sides fd
      let k := { k with cells }
      let op := (BitVec.ofInt 32 op).toInt
      if op = EPOLL_CTL_ADD ∨ op = EPOLL_CTL_MOD then
        match guestSlice k.memory eventPtr EPOLL_EVENT_SIZE with
        | .error e => (e, k, false)
        | .ok event =>
          if op = EPOLL_CTL_ADD ∧ contains then (-EEXIST, k, false)
          else if op = EPOLL_CTL_MOD ∧ !contains then (-ENOENT, k, false)
          else (0, register k epfd fd e event wakes, true)
      else if op = EPOLL_CTL_DEL then
        if !contains then (-ENOENT, k, false)
        else
          let table := k.fds.table.insert epfd (.epoll { e with entries := e.entries.erase fd })
          (0, { k with fds.table := table }, true)
      else (-EINVAL, k, false)
    | .ok _ => (-EBADF, k, false)
  | _, _ => (-EBADF, k, false)

def computeRevents (fd : UInt32) (requested : UInt32) : UInt32 :=
  let wants := fun (event : UInt32) => requested &&& event ≠ 0
  match k.fds.table.get? fd with
  | none => EPOLLERR ||| EPOLLHUP
  | some (.socket ref) =>
    let readable := (sides ref).hasStream || isListening (k.cells.sockets.read ref)
    (if wants EPOLLIN then if readable then EPOLLIN else EPOLLERR else 0) |||
      (if wants EPOLLOUT then if (sides ref).hasStream then EPOLLOUT else EPOLLERR else 0)
  | some (.pipeRead p) | some (.stdin p) =>
    let pipe := k.cells.pipes.read p.pipe
    if wants EPOLLIN ∧ (!pipe.buf.isEmpty || pipe.closed) then EPOLLIN else 0
  | some (.pipeWrite _) | some (.stdout _) | some (.stderr _) =>
    if wants EPOLLOUT then EPOLLOUT else 0
  | some (.file _) =>
    (if wants EPOLLIN then EPOLLIN else 0) ||| (if wants EPOLLOUT then EPOLLOUT else 0)
  | some (.eventFd _) => if wants EPOLLIN then EPOLLIN else 0
  | some (.epoll _) => EPOLLERR

def snapshotReadiness (entries : HashMap UInt32 EpollEntry) : List (EpollEntry × UInt32) :=
  (entries.entries.map fun e => (e.2, computeRevents k sides e.2.fd e.2.events)).filter fun r => r.2 ≠ 0

def packEvents (eventsPtr : Int) (maxevents : Nat) (ready : List (EpollEntry × UInt32)) : Polled :=
  let ready := ready.take maxevents
  let bytes := ready.flatMap fun (entry, revents) => le32 revents ++ toNeBytes entry.data
  match guestCopy k.memory eventsPtr (ready.length * EPOLL_EVENT_SIZE) bytes with
  | .error e => .returns e k.memory
  | .ok memory => .returns ready.length memory

/-- `wait_any` of the epoll calls starts with the first four of its list. -/
def waitAnyFirst (wakes : List Nat) : List Nat := wakes.take 4

/-- Without registrations it returns after its timeout, or at once when it has none. -/
def epollWait (epfd eventsPtr maxevents : Int) : Polled :=
  match u32Fd epfd with
  | none => .returns (-EBADF) k.memory
  | some epfd =>
    if maxevents ≤ 0 then .returns (-EINVAL) k.memory
    else
      match guestSlice k.memory eventsPtr (Int.bmod (maxevents * EPOLL_EVENT_SIZE) (2 ^ 64)) with
      | .error e => .returns e k.memory
      | .ok _ =>
        match k.fds.get epfd with
        | .error e => .returns e k.memory
        | .ok (.epoll e) =>
          if e.entries.entries.isEmpty then .returns 0 k.memory
          else
            let immediate := snapshotReadiness k sides e.entries
            if !immediate.isEmpty then packEvents k eventsPtr maxevents.toNat immediate
            else
              let entries := e.entries.entries.map Prod.snd
              .parks (entries.filterMap fun e => k.fds.table.get? e.fd)
                (waitAnyFirst (entries.map EpollEntry.wake) ++ [e.cancel])
        | .ok _ => .returns (-EBADF) k.memory

/-- The timeout of `epoll_pwait` is checked first. -/
def epollPwait (epfd eventsPtr maxevents tsp : Int) : Polled :=
  match u32Fd epfd with
  | none => .returns (-EBADF) k.memory
  | some _ =>
    if maxevents ≤ 0 then .returns (-EINVAL) k.memory
    else if tsp = 0 then epollWait k sides epfd eventsPtr maxevents
    else
      match guestSlice k.memory tsp 16 with
      | .error e => .returns e k.memory
      | .ok bytes =>
        match timespecMs bytes with
        | none => .returns (-EINVAL) k.memory
        | some _ => epollWait k sides epfd eventsPtr maxevents

-- ---------------------------------------------------------------------------
-- Pipes
-- ---------------------------------------------------------------------------

def pipe2 (fdarray flags : Int) : Int × Kernel :=
  match guestSlice k.memory fdarray 8 with
  | .error e => (e, k)
  | .ok _ =>
    let ((rd, wr), cells) := makePipe k.cells
    let cells := if BitVec.ofInt 32 flags &&& O_NONBLOCK ≠ 0 then
        { cells with pipes := cells.pipes.write rd.pipe { cells.pipes.read rd.pipe with nonblock := true } }
      else cells
    let (rdFd, fds) := k.fds.insert (.pipeRead rd)
    let (wrFd, fds) := fds.insert (.pipeWrite wr)
    match guestCopy k.memory fdarray 8 (le32 rdFd ++ le32 wrFd) with
    | .error e => (e, { k with fds, cells })
    | .ok memory => (0, { k with fds, cells, memory })

end

/-- The `Notify` that a `write` fires: that of the write end when the pipe was empty, or
that of an event counter. -/
def writeFires (w : World) (fd buf len : Int) : Option Nat :=
  match (u32Fd fd).bind w.kernel.fds.table.get?, guestSlice w.kernel.memory buf len with
  | some (.stdout p), .ok bytes | some (.stderr p), .ok bytes | some (.pipeWrite p), .ok bytes =>
    if bytes.length ≠ 0 ∧ (w.kernel.cells.pipes.read p.pipe).buf.isEmpty then some p.notify else none
  | some (.eventFd e), .ok bytes => if 8 ≤ bytes.length then some e.notify else none
  | _, _ => none

end EdgeLibos.Sys
