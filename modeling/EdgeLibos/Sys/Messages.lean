import EdgeLibos.Sys.Names

/-!
# Calls on a connected socket

`sendto`, `write`, `sendmsg`, `recvfrom`, `read`, `recvmsg` and `shutdown`. A socket keeps
a TCP connection and a Unix connection in different fields; the flat calls look at the one
of its family, `sendmsg`, `recvmsg` and `shutdown` at the first only. How a write to the
host or a read from it goes is part of the call.
-/

namespace EdgeLibos.Sys.Messages

open Errno Lib
open Names (shutRd)

structure HostStream where
  rest : List UInt8
  sent : List UInt8
  deriving DecidableEq, Repr

inductive Slot
  | stream
  | streamUnix
  deriving DecidableEq, Repr

inductive HostWrite
  | fails
  | takes (n : Nat)
  deriving DecidableEq, Repr

namespace HostStream

/-- `stream.write`: some of the bytes, and none only if there are none. -/
def write (s : HostStream) (bytes : List UInt8) : HostWrite → Option (Int × HostStream)
  | .fails => some (- Errno.EIO, s)
  | .takes n =>
    if n ≤ bytes.length ∧ (n = 0 → bytes = []) then some (n, { s with sent := s.sent ++ bytes.take n })
    else none

/-- `stream.read` into `cap` bytes: some of what is left, and none only at the end. -/
def read (s : HostStream) (cap : Nat) : HostRead → Option (Option (List UInt8) × HostStream)
  | .fails => some (none, s)
  | .gives n =>
    if n ≤ cap ∧ n ≤ s.rest.length ∧ (n = 0 → s.rest = []) then
      some (some (s.rest.take n), { s with rest := s.rest.drop n })
    else none

end HostStream

structure MsgState where
  kernel : Kernel
  streams : Slot → Nat → Option HostStream

namespace MsgState

def read (st : MsgState) (ref : Nat) : SocketInner := st.kernel.cells.sockets.read ref

def setSocket (st : MsgState) (ref : Nat) (s : SocketInner) : MsgState :=
  { st with kernel := Sys.setSocket st.kernel ref s }

def setStream (st : MsgState) (slot : Slot) (ref : Nat) (s : Option HostStream) : MsgState :=
  { st with streams := fun k r => if k = slot ∧ r = ref then s else st.streams k r }

def setMemory (st : MsgState) (memory : Option MemoryKind) : MsgState :=
  { st with kernel := { st.kernel with memory } }

def setNonblock (st : MsgState) (ref : Nat) (on : Bool) : MsgState :=
  st.setSocket ref { st.read ref with nonblock := on }

def setPeekBuf (st : MsgState) (ref : Nat) (peekBuf : List UInt8) : MsgState :=
  st.setSocket ref { st.read ref with peekBuf }

def addShutdown (st : MsgState) (ref : Nat) (mask : UInt8) : MsgState :=
  st.setSocket ref { st.read ref with shutdownFlags := (st.read ref).shutdownFlags ||| mask }

end MsgState

def shutWr (s : SocketInner) : Bool := s.shutdownFlags &&& 0b10 ≠ 0

-- ---------------------------------------------------------------------------
-- sendto and write
-- ---------------------------------------------------------------------------

/-- From the checks of the buffer on: the connection is in this field. -/
def sendFlat (st : MsgState) (slot : Slot) (ref : Nat) (buf len : Int) (host : HostWrite) :
    Option (Int × MsgState) :=
  if len < 0 then some (-EFAULT, st)
  else
    match guestSlice st.kernel.memory buf len with
    | .error e => some (e, st)
    | .ok bytes =>
      if shutWr (st.read ref) then some (-EPIPE, st)
      else
        match st.streams slot ref with
        | none => some (-ENOTCONN, st)
        | some s => (s.write bytes host).map fun (n, s) => (n, st.setStream slot ref (some s))

def sendtoUnix (st : MsgState) (ref : Nat) (buf len : Int) (host : HostWrite) : Option (Int × MsgState) :=
  sendFlat st .streamUnix ref buf len host

def sendto (st : MsgState) (fd buf len : Int) (host : HostWrite) : Option (Int × MsgState) :=
  match u32Fd fd with
  | none => some (-EBADF, st)
  | some fd =>
    match st.kernel.fds.get fd with
    | .error e => some (e, st)
    | .ok (.socket ref) =>
      if (st.read ref).familyUnix then sendtoUnix st ref buf len host
      else sendFlat st .stream ref buf len host
    | .ok _ => some (-EBADF, st)

/-- `write` on a socket; `none` on what is not one. -/
def write (st : MsgState) (fd buf len : Int) (host : HostWrite) : Option (Int × MsgState) :=
  match u32Fd fd with
  | none => some (-EBADF, st)
  | some fd' =>
    match guestSlice st.kernel.memory buf len with
    | .error e => some (e, st)
    | .ok bytes =>
      if bytes.isEmpty then some (0, st)
      else
        match st.kernel.fds.get fd' with
        | .error e => some (e, st)
        | .ok (.socket _) => sendto st fd buf len host
        | .ok _ => none

-- ---------------------------------------------------------------------------
-- sendmsg
-- ---------------------------------------------------------------------------

def MSG_DONTWAIT : BitVec 32 := 0x40

def asksDontWait (flags : Int) : Bool := BitVec.ofInt 32 flags &&& MSG_DONTWAIT ≠ 0

/-- The flag is set for the call; what it was is kept. -/
def flipNonblock (st : MsgState) (ref : Nat) (flags : Int) : Option Bool × MsgState :=
  if asksDontWait flags then (some (st.read ref).nonblock, st.setNonblock ref true) else (none, st)

def restoreNonblock (st : MsgState) (ref : Nat) : Option Bool → MsgState
  | some prev => st.setNonblock ref prev
  | none => st

/-- The bytes of the buffers, one after the other; a buffer at 0 has none. -/
def gather (memory : Option MemoryKind) : List (Int × Int) → Except Int (List UInt8)
  | [] => .ok []
  | (base, len) :: rest =>
    if base ≠ 0 ∧ 0 < len then do
      let data ← guestSlice memory base len
      let more ← gather memory rest
      .ok (data ++ more)
    else gather memory rest

/-- `read_msghdr_iov`: a message without buffers is empty. -/
def readMsghdrIov (memory : Option MemoryKind) (msghdr : Int) : Except Int (List UInt8) := do
  let mhdr ← guestSlice memory msghdr MSGHDR_SIZE
  if u32At mhdr MSG_IOVLEN_OFF ≤ 0 ∨ u32At mhdr MSG_IOV_OFF = 0 then .ok []
  else
    let bytes ← guestSlice memory (u32At mhdr MSG_IOV_OFF) (u32At mhdr MSG_IOVLEN_OFF * 8)
    gather memory (iovecsOf bytes)

/-- From the flip on. -/
def sendPayload (st : MsgState) (ref : Nat) (flags : Int) (payload : List UInt8) (host : HostWrite) :
    Option (Int × MsgState) :=
  let (was, st) := flipNonblock st ref flags
  if shutWr (st.read ref) then some (-EPIPE, st)
  else
    match st.streams .stream ref with
    | none => some (-ENOTCONN, st)
    | some s =>
      (s.write payload host).map fun (n, s) =>
        (n, restoreNonblock (st.setStream .stream ref (some s)) ref was)

def sendmsg (st : MsgState) (fd msghdr flags : Int) (host : HostWrite) : Option (Int × MsgState) :=
  match u32Fd fd with
  | none => some (-EBADF, st)
  | some fd =>
    match st.kernel.fds.get fd with
    | .ok (.socket ref) =>
      match readMsghdrIov st.kernel.memory msghdr with
      | .error e => some (e, st)
      | .ok payload => if payload.isEmpty then some (0, st) else sendPayload st ref flags payload host
    | _ => some (-EBADF, st)

-- ---------------------------------------------------------------------------
-- recvfrom and read
-- ---------------------------------------------------------------------------

/-- From the checks of the buffers on: the connection is in this field. -/
def receiveFlat (st : MsgState) (slot : Slot) (ref : Nat) (buf len addr addrlen : Int) (host : HostRead) :
    Option (Received × MsgState) :=
  match recvChecks st.kernel.memory buf len addr addrlen with
  | .error e => some (.nothing e, st)
  | .ok _ =>
    if shutRd (st.read ref) then some (.nothing 0, st)
    else
      match st.streams slot ref with
      | none => some (.nothing (-ENOTCONN), st)
      | some s =>
        match s.read len.toNat host with
        | none => none
        | some (none, _) => some (.nothing (- Errno.EIO), st)
        | some (some data, s) =>
          let st := st.setStream slot ref (some s)
          match guestCopy st.kernel.memory buf data.length data with
          | .error e => some (.nothing e, st)
          | .ok memory =>
            some ({ peek := false, bytes := data, value := data.length },
              st.setMemory (writePeer memory addr addrlen))

/-- The peer of a Unix connection is not reported. -/
def recvfromUnix (st : MsgState) (ref : Nat) (buf len : Int) (host : HostRead) : Option (Received × MsgState) :=
  receiveFlat st .streamUnix ref buf len 0 0 host

def recvfrom (st : MsgState) (fd buf len addr addrlen : Int) (host : HostRead) :
    Option (Received × MsgState) :=
  match u32Fd fd with
  | none => some (.nothing (-EBADF), st)
  | some fd =>
    match st.kernel.fds.get fd with
    | .error e => some (.nothing e, st)
    | .ok (.socket ref) =>
      if (st.read ref).familyUnix then recvfromUnix st ref buf len host
      else receiveFlat st .stream ref buf len addr addrlen host
    | .ok _ => some (.nothing (-EBADF), st)

/-- `read` on a socket; `none` on what is not one. -/
def read (st : MsgState) (fd buf len : Int) (host : HostRead) : Option (Received × MsgState) :=
  match u32Fd fd with
  | none => some (.nothing (-EBADF), st)
  | some fd' =>
    match guestSlice st.kernel.memory buf len with
    | .error e => some (.nothing e, st)
    | .ok _ =>
      if len = 0 then some (.nothing 0, st)
      else
        match st.kernel.fds.get fd' with
        | .error e => some (.nothing e, st)
        | .ok (.socket _) => recvfrom st fd buf len 0 0 host
        | .ok _ => none

-- ---------------------------------------------------------------------------
-- recvmsg
-- ---------------------------------------------------------------------------

def asksPeek (flags : Int) : Bool := BitVec.ofInt 32 flags &&& MSG_PEEK ≠ 0

/-- The bytes go to their buffers, and the header says that there is no control data. -/
def MsgState.deliver (st : MsgState) (peek : Bool) (msghdr : Int) (spans : List (Int × Int))
    (data : List UInt8) : Received × MsgState :=
  let (bytes, memory) := copyBytesToSpans st.kernel.memory spans data
  ({ peek, bytes, value := data.length }, st.setMemory (writeBackMsghdr memory msghdr))

/-- From the flip on; `none` when the host cannot do what it is said to do. -/
def recvSpans (st : MsgState) (ref : Nat) (msghdr flags : Int) (spans : List (Int × Int)) (host : HostRead) :
    Option (Received × MsgState) :=
  let (was, st) := flipNonblock st ref flags
  let queued := (st.read ref).peekBuf
  let cap := capacity spans
  if queued.isEmpty then
    if shutRd (st.read ref) then some (.nothing 0, st)
    else
      match st.streams .stream ref with
      | none => some (.nothing (-ENOTCONN), st)
      | some s =>
        match s.read cap host with
        | none => none
        | some (none, _) => some (.nothing (- Errno.EIO), restoreNonblock st ref was)
        | some (some data, s) =>
          let st := st.setStream .stream ref (some s)
          let st := if asksPeek flags then st.setPeekBuf ref (queued ++ data) else st
          let (o, st) := st.deliver (asksPeek flags) msghdr spans data
          some (o, restoreNonblock st ref was)
  else
    -- A peek takes the queued bytes as well.
    let st := st.setPeekBuf ref (queued.drop cap)
    let (o, st) := st.deliver (asksPeek flags) msghdr spans (queued.take cap)
    some (o, restoreNonblock st ref was)

def recvmsg (st : MsgState) (fd msghdr flags : Int) (host : HostRead) : Option (Received × MsgState) :=
  match u32Fd fd with
  | none => some (.nothing (-EBADF), st)
  | some fd =>
    match st.kernel.fds.get fd with
    | .ok (.socket ref) =>
      match msgSpans st.kernel.memory msghdr with
      | .error e => some (.nothing e, st)
      | .ok spans =>
        if capacity spans = 0 then some (.nothing 0, st) else recvSpans st ref msghdr flags spans host
    | _ => some (.nothing (-EBADF), st)

-- ---------------------------------------------------------------------------
-- shutdown
-- ---------------------------------------------------------------------------

def SHUT_RD : BitVec 32 := 0
def SHUT_WR : BitVec 32 := 1
def SHUT_RDWR : BitVec 32 := 2

def shutMask (how : Int) : Option UInt8 :=
  if BitVec.ofInt 32 how = SHUT_RD then some 0b01
  else if BitVec.ofInt 32 how = SHUT_WR then some 0b10
  else if BitVec.ofInt 32 how = SHUT_RDWR then some 0b11
  else none

/-- What is taken out of the socket to be shut down is not put back. -/
def shutdown (st : MsgState) (fd how : Int) : Int × MsgState :=
  match u32Fd fd with
  | none => (-EBADF, st)
  | some fd =>
    match shutMask how with
    | none => (-EINVAL, st)
    | some mask =>
      match st.kernel.fds.get fd with
      | .error e => (e, st)
      | .ok (.socket ref) =>
        let st := st.addShutdown ref mask
        (0, if mask &&& 0b10 ≠ 0 then st.setStream .stream ref none else st)
      | .ok _ => (-EBADF, st)

-- ---------------------------------------------------------------------------
-- The state and its updates
-- ---------------------------------------------------------------------------

variable {st st' : MsgState} {ref : Nat} {flags msghdr : Int} {spans : List (Int × Int)}

section Updates

variable (st : MsgState) (slot : Slot) (ref : Nat)

@[simp] theorem read_setSocket (s : SocketInner) : (st.setSocket ref s).read ref = s :=
  Accepting.setSocket_read ..

@[simp] theorem read_setStream (r : Nat) (s : Option HostStream) : (st.setStream slot ref s).read r = st.read r := rfl

@[simp] theorem read_setMemory (memory : Option MemoryKind) : (st.setMemory memory).read ref = st.read ref := rfl

@[simp] theorem read_setNonblock (on : Bool) :
    (st.setNonblock ref on).read ref = { st.read ref with nonblock := on } := read_setSocket ..

@[simp] theorem read_setPeekBuf (peekBuf : List UInt8) :
    (st.setPeekBuf ref peekBuf).read ref = { st.read ref with peekBuf } := read_setSocket ..

@[simp] theorem streams_setSocket (s : SocketInner) : (st.setSocket ref s).streams = st.streams := rfl

@[simp] theorem streams_setNonblock (on : Bool) : (st.setNonblock ref on).streams = st.streams := rfl

@[simp] theorem streams_setPeekBuf (peekBuf : List UInt8) : (st.setPeekBuf ref peekBuf).streams = st.streams := rfl

@[simp] theorem streams_setMemory (memory : Option MemoryKind) : (st.setMemory memory).streams = st.streams := rfl

@[simp] theorem streams_setStream (s : Option HostStream) : (st.setStream slot ref s).streams slot ref = s := by
  simp [MsgState.setStream]

end Updates

theorem flip_read (st : MsgState) (ref : Nat) (flags : Int) : (flipNonblock st ref flags).2.read ref =
    { st.read ref with nonblock := asksDontWait flags || (st.read ref).nonblock } := by
  unfold flipNonblock
  split
  · rename_i hasks
    simp [hasks]
  · rename_i hasks
    simp [hasks]

theorem flip_streams (st : MsgState) (ref : Nat) (flags : Int) : (flipNonblock st ref flags).2.streams = st.streams := by
  unfold flipNonblock
  split
  · rfl
  · rfl

theorem shutWr_flip (st : MsgState) (ref : Nat) (flags : Int) :
    shutWr ((flipNonblock st ref flags).2.read ref) = shutWr (st.read ref) := by
  rw [flip_read]
  rfl

theorem shutRd_flip (st : MsgState) (ref : Nat) (flags : Int) :
    shutRd ((flipNonblock st ref flags).2.read ref) = shutRd (st.read ref) := by
  rw [flip_read]
  rfl

theorem peekBuf_flip (st : MsgState) (ref : Nat) (flags : Int) :
    ((flipNonblock st ref flags).2.read ref).peekBuf = (st.read ref).peekBuf := by
  rw [flip_read]

theorem readMsghdrIov_spans (h : msgSpans memory msghdr = .ok spans) :
    readMsghdrIov memory msghdr = gather memory spans := by
  unfold msgSpans at h
  unfold readMsghdrIov
  split at h
  · cases h
  · rename_i mhdr hmhdr
    split at h
    · cases h
    · rename_i hiov
      split at h
      · cases h
      · rename_i bytes hbytes
        cases h
        rw [hmhdr]
        refine (if_neg hiov).trans ?_
        rw [hbytes]
        rfl

-- ---------------------------------------------------------------------------
-- What the calls on one socket see
-- ---------------------------------------------------------------------------

/-- The memory, the descriptors and the parts of one socket that its calls look at. -/
structure Conn where
  memory : Option MemoryKind
  fds : FdTable
  familyUnix : Bool
  shutRd : Bool
  shutWr : Bool
  peekBuf : List UInt8
  streams : Slot → Option HostStream

namespace Conn

def setStream (c : Conn) (slot : Slot) (s : Option HostStream) : Conn :=
  { c with streams := Function.update c.streams slot s }

def setPeekBuf (c : Conn) (peekBuf : List UInt8) : Conn := { c with peekBuf }

def setMemory (c : Conn) (memory : Option MemoryKind) : Conn := { c with memory }

/-- What a message of these bytes shows and leaves. -/
def deliver (c : Conn) (peek : Bool) (msghdr : Int) (spans : List (Int × Int)) (data : List UInt8) :
    Received × Conn :=
  ({ peek, bytes := (copyBytesToSpans c.memory spans data).1, value := data.length },
    c.setMemory (writeBackMsghdr (copyBytesToSpans c.memory spans data).2 msghdr))

end Conn

def MsgState.conn (st : MsgState) (ref : Nat) : Conn where
  memory := st.kernel.memory
  fds := st.kernel.fds
  familyUnix := (st.read ref).familyUnix
  shutRd := Names.shutRd (st.read ref)
  shutWr := Messages.shutWr (st.read ref)
  peekBuf := (st.read ref).peekBuf
  streams := fun slot => st.streams slot ref

section View

variable (st : MsgState) (ref : Nat)

@[simp] theorem conn_setNonblock (on : Bool) : (st.setNonblock ref on).conn ref = st.conn ref := by
  simp only [MsgState.conn, read_setNonblock, streams_setNonblock, shutRd, shutWr]
  rfl

theorem flag_or (f m b : UInt8) : decide ((f ||| m) &&& b ≠ 0) = (decide (f &&& b ≠ 0) || decide (m &&& b ≠ 0)) := by
  have h : (f ||| m) &&& b = (f &&& b) ||| (m &&& b) := by
    apply UInt8.toBitVec_inj.mp
    exact BitVec.and_or_distrib_right
  rw [h]
  by_cases h₁ : f &&& b = 0 <;> by_cases h₂ : m &&& b = 0 <;> simp [UInt8.or_eq_zero_iff, h₁, h₂]

@[simp] theorem conn_addShutdown (mask : UInt8) : (st.addShutdown ref mask).conn ref =
    { st.conn ref with
      shutRd := (st.conn ref).shutRd || decide (mask &&& 0b01 ≠ 0)
      shutWr := (st.conn ref).shutWr || decide (mask &&& 0b10 ≠ 0) } := by
  simp only [MsgState.conn, MsgState.addShutdown, read_setSocket, streams_setSocket, shutRd, shutWr, flag_or]
  rfl

@[simp] theorem conn_setPeekBuf (peekBuf : List UInt8) :
    (st.setPeekBuf ref peekBuf).conn ref = (st.conn ref).setPeekBuf peekBuf := by
  simp only [MsgState.conn, read_setPeekBuf, streams_setPeekBuf, shutRd, shutWr]
  rfl

@[simp] theorem conn_setMemory (memory : Option MemoryKind) :
    (st.setMemory memory).conn ref = (st.conn ref).setMemory memory := rfl

@[simp] theorem conn_setStream (slot : Slot) (s : Option HostStream) :
    (st.setStream slot ref s).conn ref = (st.conn ref).setStream slot s := by
  simp only [MsgState.conn, read_setStream, Conn.setStream, Conn.mk.injEq, true_and]
  refine ⟨rfl, rfl, ?_⟩
  funext k
  by_cases hk : k = slot
  · simp [MsgState.setStream, hk]
  · simp [MsgState.setStream, hk]

@[simp] theorem conn_flip (flags : Int) : (flipNonblock st ref flags).2.conn ref = st.conn ref := by
  unfold flipNonblock
  split
  · exact conn_setNonblock st ref true
  · rfl

@[simp] theorem conn_restore (was : Option Bool) : (restoreNonblock st ref was).conn ref = st.conn ref := by
  cases was with
  | none => rfl
  | some prev => exact conn_setNonblock st ref prev

@[simp] theorem conn_deliver (peek : Bool) (msghdr : Int) (spans : List (Int × Int)) (data : List UInt8) :
    (st.deliver peek msghdr spans data).2.conn ref = ((st.conn ref).deliver peek msghdr spans data).2 := rfl

theorem deliver_shown (peek : Bool) (msghdr : Int) (spans : List (Int × Int)) (data : List UInt8) :
    (st.deliver peek msghdr spans data).1 = ((st.conn ref).deliver peek msghdr spans data).1 := rfl

end View

inductive RecvmsgStep (c : Conn) (msghdr flags : Int) (spans : List (Int × Int)) (host : HostRead) :
    Received × Conn → Prop
  | queued (h : c.peekBuf ≠ []) : RecvmsgStep c msghdr flags spans host
      ((c.setPeekBuf (c.peekBuf.drop (capacity spans))).deliver (asksPeek flags) msghdr spans
        (c.peekBuf.take (capacity spans)))
  | shut (h : c.peekBuf = []) (hshut : c.shutRd = true) : RecvmsgStep c msghdr flags spans host (.nothing 0, c)
  | notConnected (h : c.peekBuf = []) (hshut : c.shutRd = false) (hnone : c.streams .stream = none) :
      RecvmsgStep c msghdr flags spans host (.nothing (-ENOTCONN), c)
  | failed (h : c.peekBuf = []) (hshut : c.shutRd = false) (hs : c.streams .stream = some s)
      (hread : s.read (capacity spans) host = some (none, s')) :
      RecvmsgStep c msghdr flags spans host (.nothing (- Errno.EIO), c)
  | received (h : c.peekBuf = []) (hshut : c.shutRd = false) (hs : c.streams .stream = some s)
      (hread : s.read (capacity spans) host = some (some data, s')) : RecvmsgStep c msghdr flags spans host
      (((c.setStream .stream (some s')).setPeekBuf (if asksPeek flags then data else [])).deliver
        (asksPeek flags) msghdr spans data)

theorem recvSpans_step (h : recvSpans st ref msghdr flags spans host = some (o, st')) :
    RecvmsgStep (st.conn ref) msghdr flags spans host (o, st'.conn ref) := by
  simp only [recvSpans, shutRd_flip, flip_streams, peekBuf_flip] at h
  split at h
  · rename_i hqueued
    have hnil : (st.conn ref).peekBuf = [] := List.isEmpty_iff.mp hqueued
    split at h
    · rename_i hshut
      cases h
      rw [conn_flip]
      exact .shut hnil hshut
    · rename_i hshut
      have hopen : (st.conn ref).shutRd = false := Bool.not_eq_true _ ▸ hshut
      split at h
      · rename_i hnone
        cases h
        rw [conn_flip]
        exact .notConnected hnil hopen hnone
      · rename_i s hs
        split at h
        · cases h
        · rename_i hread
          cases h
          rw [conn_restore, conn_flip]
          exact .failed hnil hopen hs hread
        · rename_i data s' hread
          cases h
          have hstep : RecvmsgStep (st.conn ref) msghdr flags spans host _ := .received hnil hopen hs hread
          have hread_nil : (st.read ref).peekBuf = [] := hnil
          rw [conn_restore, conn_deliver, deliver_shown _ ref]
          cases hpeek : asksPeek flags with
          | true =>
            rw [hpeek] at hstep
            simp only [if_true, conn_setPeekBuf, conn_setStream, conn_flip, hread_nil, List.nil_append]
            exact hstep
          | false =>
            have hkept : ((st.conn ref).setStream .stream (some s')).setPeekBuf [] =
                (st.conn ref).setStream .stream (some s') := by
              rw [← hnil]
              rfl
            simp only [hpeek, Bool.false_eq_true, if_false, hkept] at hstep
            simp only [Bool.false_eq_true, if_false, conn_setStream, conn_flip]
            exact hstep
  · rename_i hqueued
    have hne : (st.conn ref).peekBuf ≠ [] := fun hnil => hqueued (List.isEmpty_iff.mpr hnil)
    have hstep : RecvmsgStep (st.conn ref) msghdr flags spans host _ := .queued hne
    cases h
    rw [conn_restore, conn_deliver, deliver_shown _ ref, conn_setPeekBuf, conn_flip]
    exact hstep

theorem read_some {s s' : HostStream} (h : s.read cap host = some (some data, s')) :
    host = .gives data.length ∧ data.length ≤ cap ∧ s.rest = data ++ s'.rest ∧ s'.sent = s.sent ∧
      (data = [] → s.rest = []) := by
  cases host with
  | fails => cases h
  | gives n =>
    simp only [HostStream.read] at h
    split at h
    · rename_i hn
      cases h
      have hlength : (s.rest.take n).length = n := by
        rw [List.length_take]
        omega
      refine ⟨by rw [hlength], by omega, (List.take_append_drop n s.rest).symm, rfl, fun hnil => ?_⟩
      exact hn.2.2 (by rw [← hlength, hnil, List.length_nil])
    · cases h

inductive FlatStep (c : Conn) (slot : Slot) (buf len addr addrlen : Int) (host : HostRead) :
    Received × Conn → Prop
  | refused (h : recvChecks c.memory buf len addr addrlen = .error e) :
      FlatStep c slot buf len addr addrlen host (.nothing e, c)
  | shut (h : recvChecks c.memory buf len addr addrlen = .ok u) (hshut : c.shutRd = true) :
      FlatStep c slot buf len addr addrlen host (.nothing 0, c)
  | notConnected (h : recvChecks c.memory buf len addr addrlen = .ok u) (hshut : c.shutRd = false)
      (hnone : c.streams slot = none) : FlatStep c slot buf len addr addrlen host (.nothing (-ENOTCONN), c)
  | failed (h : recvChecks c.memory buf len addr addrlen = .ok u) (hshut : c.shutRd = false)
      (hs : c.streams slot = some s) (hread : s.read len.toNat host = some (none, s')) :
      FlatStep c slot buf len addr addrlen host (.nothing (- Errno.EIO), c)
  | received (h : recvChecks c.memory buf len addr addrlen = .ok u) (hshut : c.shutRd = false)
      (hs : c.streams slot = some s) (hread : s.read len.toNat host = some (some data, s'))
      (hcopy : guestCopy c.memory buf data.length data = .ok m) :
      FlatStep c slot buf len addr addrlen host ({ peek := false, bytes := data, value := data.length },
        (c.setStream slot (some s')).setMemory (writePeer m addr addrlen))

theorem recvChecks_copy (h : recvChecks memory buf len addr addrlen = .ok u) (hlen : data.length ≤ len.toNat) :
    ∃ m, guestCopy memory buf data.length data = .ok m := by
  obtain ⟨hpos, hslice⟩ := recvChecks_slice h
  have hfits : (data.length : Int) ≤ len := by omega
  obtain ⟨_, mem', -, -, hcopy⟩ := guestCopy_of_fits hslice hfits
  exact ⟨_, hcopy⟩

theorem recvChecks_of_fits (h : FdSets.Fits memory buf len) (hlen : 0 < len) : recvChecks memory buf len 0 0 = .ok () := by
  obtain ⟨bytes, hbytes⟩ := h.slice
  rw [Names.recvChecks_eq, if_neg (by omega), if_neg (by omega), hbytes]
  simp [checkOut]

theorem receiveFlat_step (h : receiveFlat st slot ref buf len addr addrlen host = some (o, st')) :
    FlatStep (st.conn ref) slot buf len addr addrlen host (o, st'.conn ref) := by
  simp only [receiveFlat] at h
  split at h
  · rename_i hchecks
    cases h
    exact .refused hchecks
  · rename_i hchecks
    split at h
    · rename_i hshut
      cases h
      exact .shut hchecks hshut
    · rename_i hshut
      have hopen : (st.conn ref).shutRd = false := Bool.not_eq_true _ ▸ hshut
      split at h
      · rename_i hnone
        cases h
        exact .notConnected hchecks hopen hnone
      · rename_i s hs
        split at h
        · cases h
        · rename_i hread
          cases h
          exact .failed hchecks hopen hs hread
        · rename_i data s' hread
          obtain ⟨m, hcopy⟩ := recvChecks_copy hchecks (read_some hread).2.1
          have hcopy' : guestCopy (st.setStream slot ref (some s')).kernel.memory buf data.length data = .ok m := hcopy
          rw [hcopy'] at h
          cases h
          rw [conn_setMemory, conn_setStream]
          exact .received hchecks hopen hs hread hcopy

theorem receiveFlat_of_step (h : FlatStep (st.conn ref) slot buf len addr addrlen host (o, c')) :
    ∃ st', receiveFlat st slot ref buf len addr addrlen host = some (o, st') ∧ st'.conn ref = c' := by
  cases h with
  | refused hchecks =>
    have hchecks' : recvChecks st.kernel.memory buf len addr addrlen = _ := hchecks
    exact ⟨st, by simp only [receiveFlat, hchecks'], rfl⟩
  | shut hchecks hshut =>
    have hchecks' : recvChecks st.kernel.memory buf len addr addrlen = _ := hchecks
    have hshut' : shutRd (st.read ref) = true := hshut
    exact ⟨st, by simp only [receiveFlat, hchecks', hshut', if_true], rfl⟩
  | notConnected hchecks hopen hnone =>
    have hchecks' : recvChecks st.kernel.memory buf len addr addrlen = _ := hchecks
    have hopen' : shutRd (st.read ref) = false := hopen
    have hnone' : st.streams slot ref = none := hnone
    exact ⟨st, by simp only [receiveFlat, hchecks', hopen', hnone', Bool.false_eq_true, if_false], rfl⟩
  | failed hchecks hopen hs hread =>
    have hchecks' : recvChecks st.kernel.memory buf len addr addrlen = _ := hchecks
    have hopen' : shutRd (st.read ref) = false := hopen
    have hs' : st.streams slot ref = some _ := hs
    exact ⟨st, by simp only [receiveFlat, hchecks', hopen', hs', hread, Bool.false_eq_true, if_false], rfl⟩
  | @received _ s data s' m hchecks hopen hs hread hcopy =>
    have hchecks' : recvChecks st.kernel.memory buf len addr addrlen = _ := hchecks
    have hopen' : shutRd (st.read ref) = false := hopen
    have hs' : st.streams slot ref = some s := hs
    have hcopy' : guestCopy (st.setStream slot ref (some s')).kernel.memory buf data.length data = .ok m := hcopy
    refine ⟨(st.setStream slot ref (some s')).setMemory (writePeer m addr addrlen), ?_, ?_⟩
    · simp only [receiveFlat, hchecks', hopen', hs', hread, hcopy', Bool.false_eq_true, if_false]
    · rw [conn_setMemory, conn_setStream]

theorem RecvmsgStep.unique (h : RecvmsgStep c msghdr flags spans host r)
    (h' : RecvmsgStep c msghdr flags spans host r') : r = r' := by
  cases h with
  | queued hne => cases h' <;> simp_all
  | shut hnil hshut => cases h' <;> simp_all
  | notConnected hnil hopen hnone => cases h' <;> simp_all
  | failed hnil hopen hs hread => cases h' <;> simp_all
  | received hnil hopen hs hread => cases h' <;> simp_all

theorem recvSpans_none (h : recvSpans st ref msghdr flags spans host = none) :
    ∃ s, (st.conn ref).peekBuf = [] ∧ (st.conn ref).shutRd = false ∧ (st.conn ref).streams .stream = some s ∧
      s.read (capacity spans) host = none := by
  simp only [recvSpans, shutRd_flip, flip_streams, peekBuf_flip] at h
  split at h
  · rename_i hqueued
    split at h
    · cases h
    · rename_i hshut
      split at h
      · cases h
      · rename_i s hs
        split at h
        · rename_i hread
          exact ⟨s, List.isEmpty_iff.mp hqueued, Bool.not_eq_true _ ▸ hshut, hs, hread⟩
        · cases h
        · cases h
  · cases h

theorem recvSpans_of_step (h : RecvmsgStep (st.conn ref) msghdr flags spans host (o, c')) :
    ∃ st', recvSpans st ref msghdr flags spans host = some (o, st') ∧ st'.conn ref = c' := by
  cases hrun : recvSpans st ref msghdr flags spans host with
  | some r =>
    obtain ⟨o', st'⟩ := r
    cases (recvSpans_step hrun).unique h
    exact ⟨st', rfl, rfl⟩
  | none =>
    obtain ⟨s, hnil, hopen, hs, hread⟩ := recvSpans_none hrun
    cases h <;> simp_all

-- ---------------------------------------------------------------------------
-- Calls on a descriptor of the socket
-- ---------------------------------------------------------------------------

def socketAt (t : FdTable) (fd : Int) : Option Nat :=
  match (u32Fd fd).map t.get with
  | some (.ok (.socket ref)) => some ref
  | _ => none

def slotOf (familyUnix : Bool) : Slot := if familyUnix then .streamUnix else .stream

theorem socketAt_some (h : socketAt t fd = some ref) : ∃ fd', u32Fd fd = some fd' ∧ t.get fd' = .ok (.socket ref) := by
  unfold socketAt at h
  split at h
  · rename_i r hmap
    obtain ⟨fd', hfd, hget⟩ := Option.map_eq_some_iff.mp hmap
    cases h
    exact ⟨fd', hfd, hget⟩
  · cases h

theorem recvfrom_at (h : socketAt st.kernel.fds fd = some ref) (buf len addr addrlen : Int) (host : HostRead) :
    recvfrom st fd buf len addr addrlen host =
      receiveFlat st (slotOf (st.conn ref).familyUnix) ref buf len (if (st.conn ref).familyUnix then 0 else addr)
        (if (st.conn ref).familyUnix then 0 else addrlen) host := by
  obtain ⟨fd', hfd, hget⟩ := socketAt_some h
  have hfamily : (st.conn ref).familyUnix = (st.read ref).familyUnix := rfl
  simp only [recvfrom, hfd, hget, hfamily, recvfromUnix, slotOf]
  cases (st.read ref).familyUnix with
  | true => rfl
  | false => rfl

theorem read_at (h : socketAt st.kernel.fds fd = some ref) (buf len : Int) (host : HostRead) :
    read st fd buf len host =
      match guestSlice st.kernel.memory buf len with
      | .error e => some (.nothing e, st)
      | .ok _ =>
        if len = 0 then some (.nothing 0, st)
        else receiveFlat st (slotOf (st.conn ref).familyUnix) ref buf len 0 0 host := by
  obtain ⟨fd', hfd, hget⟩ := socketAt_some h
  simp only [read, hfd, hget, recvfrom_at h, ite_self]

theorem recvmsg_at (h : socketAt st.kernel.fds fd = some ref) (msghdr flags : Int) (host : HostRead) :
    recvmsg st fd msghdr flags host =
      match msgSpans st.kernel.memory msghdr with
      | .error e => some (.nothing e, st)
      | .ok spans =>
        if capacity spans = 0 then some (.nothing 0, st) else recvSpans st ref msghdr flags spans host := by
  obtain ⟨fd', hfd, hget⟩ := socketAt_some h
  simp only [recvmsg, hfd, hget]

theorem shutdown_at (h : socketAt st.kernel.fds fd = some ref) (how : Int) :
    shutdown st fd how =
      match shutMask how with
      | none => (-EINVAL, st)
      | some mask =>
        (0, if mask &&& 0b10 ≠ 0 then (st.addShutdown ref mask).setStream .stream ref none
          else st.addShutdown ref mask) := by
  obtain ⟨fd', hfd, hget⟩ := socketAt_some h
  simp only [shutdown, hfd, hget]

-- ---------------------------------------------------------------------------
-- Sending
-- ---------------------------------------------------------------------------

/-- A send of these bytes on the connection of this field. -/
def Conn.send (c : Conn) (slot : Slot) (bytes : List UInt8) (host : HostWrite) : Option (Int × Conn) :=
  if c.shutWr then some (-EPIPE, c)
  else
    match c.streams slot with
    | none => some (-ENOTCONN, c)
    | some s => (s.write bytes host).map fun (n, s) => (n, c.setStream slot (some s))

/-- What a call does to the part of the state that the socket's calls look at. -/
def onConn (ref : Nat) (r : Option (ω × MsgState)) : Option (ω × Conn) := r.map fun (o, st) => (o, st.conn ref)

theorem sendFlat_send (h : guestSlice st.kernel.memory buf len = .ok bytes) (slot : Slot) (host : HostWrite) :
    onConn ref (sendFlat st slot ref buf len host) = (st.conn ref).send slot bytes host := by
  obtain ⟨mem, -, -, hlen, -⟩ := guestSlice_ok h
  have hshut : (st.conn ref).shutWr = shutWr (st.read ref) := rfl
  have hstream : (st.conn ref).streams slot = st.streams slot ref := rfl
  simp only [sendFlat, if_neg (not_lt.mpr hlen), h, Conn.send, hshut, hstream]
  split
  · rfl
  · split
    · rfl
    · simp [onConn, Option.map_map, Function.comp_def]

theorem sendPayload_send (st : MsgState) (ref : Nat) (flags : Int) (payload : List UInt8) (host : HostWrite) :
    onConn ref (sendPayload st ref flags payload host) = (st.conn ref).send .stream payload host := by
  have hshut : (st.conn ref).shutWr = shutWr (st.read ref) := rfl
  have hstream : (st.conn ref).streams .stream = st.streams .stream ref := rfl
  simp only [sendPayload, shutWr_flip, flip_streams, Conn.send, hshut, hstream]
  split
  · simp [onConn]
  · split
    · simp [onConn]
    · simp [onConn, Option.map_map, Function.comp_def]

theorem sendto_at (h : socketAt st.kernel.fds fd = some ref) (buf len : Int) (host : HostWrite) :
    sendto st fd buf len host = sendFlat st (slotOf (st.conn ref).familyUnix) ref buf len host := by
  obtain ⟨fd', hfd, hget⟩ := socketAt_some h
  have hfamily : (st.conn ref).familyUnix = (st.read ref).familyUnix := rfl
  simp only [sendto, hfd, hget, hfamily, sendtoUnix, slotOf]
  cases (st.read ref).familyUnix with
  | true => rfl
  | false => rfl

theorem write_at (h : socketAt st.kernel.fds fd = some ref) (buf len : Int) (host : HostWrite) :
    write st fd buf len host =
      match guestSlice st.kernel.memory buf len with
      | .error e => some (e, st)
      | .ok bytes =>
        if bytes.isEmpty then some (0, st)
        else sendFlat st (slotOf (st.conn ref).familyUnix) ref buf len host := by
  obtain ⟨fd', hfd, hget⟩ := socketAt_some h
  simp only [write, hfd, hget, sendto_at h]

theorem sendmsg_at (h : socketAt st.kernel.fds fd = some ref) (msghdr flags : Int) (host : HostWrite) :
    sendmsg st fd msghdr flags host =
      match readMsghdrIov st.kernel.memory msghdr with
      | .error e => some (e, st)
      | .ok payload => if payload.isEmpty then some (0, st) else sendPayload st ref flags payload host := by
  obtain ⟨fd', hfd, hget⟩ := socketAt_some h
  simp only [sendmsg, hfd, hget]

-- ---------------------------------------------------------------------------
-- One socket by itself
-- ---------------------------------------------------------------------------

/-- The socket as its receiving calls see it while it has a TCP connection. -/
def Conn.receiver (c : Conn) : Option Receiver :=
  (c.streams .stream).map fun s =>
    { memory := c.memory, fds := c.fds, socket := { rest := s.rest, peekBuf := c.peekBuf, shutRd := c.shutRd } }

/-- What a receiving call shows, and how it leaves the socket. -/
def shown (ref : Nat) (r : Option (Received × MsgState)) : Option (Received × Option Receiver) :=
  (onConn ref r).map fun (o, c) => (o, c.receiver)

theorem hostRead_eq (s : HostStream) (peekBuf : List UInt8) (shut : Bool) (cap : Nat) (host : HostRead) :
    Stream.hostRead { rest := s.rest, peekBuf, shutRd := shut } cap host =
      (s.read cap host).map fun (data, s) => (data, { rest := s.rest, peekBuf, shutRd := shut }) := by
  cases host with
  | fails => rfl
  | gives n =>
    rw [Stream.hostRead, HostStream.read]
    split
    · rfl
    · rfl

theorem RecvmsgStep.receiver {c c' : Conn} {o : Received} {r : Receiver}
    (h : RecvmsgStep c msghdr flags spans host (o, c')) (hr : c.receiver = some r)
    (hspans : msgSpans r.memory msghdr = .ok spans) (hcap : capacity spans ≠ 0) :
    (r.recvmsg msghdr flags host).map (fun (o, r) => (o, some r)) = some (o, c'.receiver) := by
  obtain ⟨s, hstream, rfl⟩ := Option.map_eq_some_iff.mp hr
  unfold Receiver.recvmsg
  simp only [hspans, if_neg hcap]
  cases h with
  | queued hne =>
    rw [if_neg (by rwa [List.isEmpty_iff])]
    simp only [Conn.receiver, Conn.setPeekBuf, Conn.setMemory, hstream]
    rfl
  | shut hnil hshut =>
    rw [if_pos (by rw [hnil]; rfl), if_pos hshut, hr]
    rfl
  | notConnected hnil hopen hnone =>
    rw [hstream] at hnone
    cases hnone
  | failed hnil hopen hs hread =>
    cases hstream.symm.trans hs
    rw [if_pos (by rw [hnil]; rfl), if_neg (by rw [hopen]; decide), hostRead_eq, hread, hr]
    rfl
  | received hnil hopen hs hread =>
    cases hstream.symm.trans hs
    rw [if_pos (by rw [hnil]; rfl), if_neg (by rw [hopen]; decide), hostRead_eq, hread]
    simp only [Option.map_some, Conn.receiver, Conn.setPeekBuf, Conn.setMemory, Conn.setStream,
      Function.update_self, hnil, asksPeek, decide_eq_true_eq]
    by_cases hpeek : BitVec.ofInt 32 flags &&& MSG_PEEK ≠ 0
    · rw [if_pos hpeek, if_pos hpeek]
      rfl
    · rw [if_neg hpeek, if_neg hpeek]
      rfl

theorem recvmsg_receiver (hat : socketAt st.kernel.fds fd = some ref) (hr : (st.conn ref).receiver = some r)
    (msghdr flags : Int) (host : HostRead) :
    shown ref (recvmsg st fd msghdr flags host) = (r.recvmsg msghdr flags host).map fun (o, r) => (o, some r) := by
  have hmemory : r.memory = st.kernel.memory := by
    obtain ⟨s, -, rfl⟩ := Option.map_eq_some_iff.mp hr
    rfl
  rw [recvmsg_at hat]
  cases hspans : msgSpans st.kernel.memory msghdr with
  | error e =>
    rw [Receiver.recvmsg, hmemory, hspans]
    simp only [shown, onConn, Option.map_some, hr]
  | ok spans =>
    dsimp only
    by_cases hcap : capacity spans = 0
    · rw [if_pos hcap, Receiver.recvmsg, hmemory, hspans]
      simp only [hcap, if_true, shown, onConn, Option.map_some, hr]
    · rw [if_neg hcap]
      cases hrun : recvSpans st ref msghdr flags spans host with
      | some p =>
        obtain ⟨o, st'⟩ := p
        exact ((recvSpans_step hrun).receiver hr (hmemory ▸ hspans) hcap).symm
      | none =>
        obtain ⟨s, hnil, hopen, hs, hread⟩ := recvSpans_none hrun
        obtain ⟨s', hs', rfl⟩ := Option.map_eq_some_iff.mp hr
        cases hs.symm.trans hs'
        unfold Receiver.recvmsg
        rw [hmemory, hspans]
        simp only [hcap, if_false]
        rw [if_pos (by rw [hnil]; rfl), if_neg (by rw [hopen]; decide), hostRead_eq, hread]
        rfl

theorem FlatStep.receiver {c c' : Conn} {o : Received} {r : Receiver}
    (h : FlatStep c .stream buf len addr addrlen host (o, c')) (hr : c.receiver = some r) :
    (r.recvfrom buf len addr addrlen host).map (fun (o, r) => (o, some r)) = some (o, c'.receiver) := by
  obtain ⟨s, hstream, rfl⟩ := Option.map_eq_some_iff.mp hr
  unfold Receiver.recvfrom
  cases h with
  | refused hchecks =>
    simp only [hchecks, Option.map_some, hr]
  | shut hchecks hshut =>
    simp only [hchecks, hshut, if_true, Option.map_some, hr]
  | notConnected hchecks hopen hnone =>
    rw [hstream] at hnone
    cases hnone
  | failed hchecks hopen hs hread =>
    cases hstream.symm.trans hs
    simp only [hchecks, hopen, Bool.false_eq_true, if_false, hostRead_eq, hread, Option.map_some, hr]
  | received hchecks hopen hs hread hcopy =>
    cases hstream.symm.trans hs
    simp only [hchecks, hopen, Bool.false_eq_true, if_false, hostRead_eq, hread, hcopy, Option.map_some,
      Conn.receiver, Conn.setMemory, Conn.setStream, Function.update_self]

theorem receiveFlat_none (h : receiveFlat st slot ref buf len addr addrlen host = none) :
    ∃ u s, recvChecks st.kernel.memory buf len addr addrlen = .ok u ∧ (st.conn ref).shutRd = false ∧
      (st.conn ref).streams slot = some s ∧ s.read len.toNat host = none := by
  simp only [receiveFlat] at h
  split at h
  · cases h
  · rename_i u hchecks
    split at h
    · cases h
    · rename_i hshut
      split at h
      · cases h
      · rename_i s hs
        split at h
        · rename_i hread
          exact ⟨u, s, hchecks, Bool.not_eq_true _ ▸ hshut, hs, hread⟩
        · cases h
        · split at h
          · cases h
          · cases h

theorem receiveFlat_receiver (hr : (st.conn ref).receiver = some r) (buf len addr addrlen : Int) (host : HostRead) :
    shown ref (receiveFlat st .stream ref buf len addr addrlen host) =
      (r.recvfrom buf len addr addrlen host).map fun (o, r) => (o, some r) := by
  cases hrun : receiveFlat st .stream ref buf len addr addrlen host with
  | some p =>
    obtain ⟨o, st'⟩ := p
    exact ((receiveFlat_step hrun).receiver hr).symm
  | none =>
    obtain ⟨u, s, hchecks, hopen, hs, hread⟩ := receiveFlat_none hrun
    obtain ⟨s', hs', rfl⟩ := Option.map_eq_some_iff.mp hr
    cases hs.symm.trans hs'
    have hchecks' : recvChecks (st.conn ref).memory buf len addr addrlen = .ok u := hchecks
    unfold Receiver.recvfrom
    simp only [hchecks', hopen, Bool.false_eq_true, if_false, hostRead_eq, hread]
    rfl

/-- What `recvfrom` shows and how it leaves an IPv4 or IPv6 socket that is connected. -/
theorem recvfrom_receiver (hat : socketAt st.kernel.fds fd = some ref) (hinet : (st.conn ref).familyUnix = false)
    (hr : (st.conn ref).receiver = some r) (buf len addr addrlen : Int) (host : HostRead) :
    shown ref (recvfrom st fd buf len addr addrlen host) =
      (r.recvfrom buf len addr addrlen host).map fun (o, r) => (o, some r) := by
  rw [recvfrom_at hat, hinet]
  exact receiveFlat_receiver hr buf len addr addrlen host

theorem read_receiver (hat : socketAt st.kernel.fds fd = some ref) (hinet : (st.conn ref).familyUnix = false)
    (hr : (st.conn ref).receiver = some r) (buf len : Int) (host : HostRead) :
    shown ref (read st fd buf len host) = (r.read buf len host).map fun (o, r) => (o, some r) := by
  have hmemory : r.memory = st.kernel.memory := by
    obtain ⟨s, -, rfl⟩ := Option.map_eq_some_iff.mp hr
    rfl
  rw [read_at hat, hinet, Receiver.read, hmemory]
  cases hs : guestSlice st.kernel.memory buf len with
  | error e => simp only [shown, onConn, Option.map_some, hr]
  | ok old =>
    dsimp only
    split
    · simp only [shown, onConn, Option.map_some, hr]
    · exact receiveFlat_receiver hr buf len 0 0 host

end EdgeLibos.Sys.Messages
