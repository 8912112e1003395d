import EdgeLibos.Kernel
import EdgeLibos.Lib.Words
import EdgeLibos.Sys.Memory

/-!
# File system calls

`read`, `write`, their vectored forms, `lseek` and `fcntl(F_SETFL)`. A file keeps two offsets, the
`pos` of its `FilePos` and the cursor of the host file: a read seeks to the
first and moves the second past the whole 4096-byte chunks it asked for, a write
goes where the second is. The socket arms hand over to the socket calls, which
are a parameter. Waking pollers is left out.
-/

namespace EdgeLibos

open Errno Lib

-- ---------------------------------------------------------------------------
-- Host files
-- ---------------------------------------------------------------------------

/-- The contents of the host's regular files; any other node has none. -/
structure HostFs where
  contents : Nat → Option (List UInt8)

inductive SeekFrom
  | start (pos : UInt64)
  | current (offset : Int)

namespace HostFile

def seekTo (f : HostFile) (target : Int) : Option HostFile :=
  if 0 ≤ target ∧ target < f.limit.first then some { f with cursor := target.toNat } else none

def seek (f : HostFile) : SeekFrom → Option HostFile
  | .start pos => f.seekTo pos.toNat
  | .current offset => f.seekTo (f.cursor + offset)

def read (fs : HostFs) (f : HostFile) (n : Nat) : Option (List UInt8 × HostFile) :=
  match fs.contents f.node with
  | none => none
  | some data =>
    if f.readable then
      let got := (data.drop f.cursor).take n
      some (got, { f with cursor := f.cursor + got.length })
    else none

def writeStart (f : HostFile) (data : List UInt8) : Nat := if f.append then data.length else f.cursor

/-- A write past the end fills the gap with zeros; one that would go past the
limit of the file is cut short, and refused when nothing is left of it. -/
def write (fs : HostFs) (f : HostFile) (bytes : List UInt8) : Option (Nat × HostFile × HostFs) :=
  match fs.contents f.node with
  | none => none
  | some data =>
    let start := f.writeStart data
    let n := min bytes.length (f.limit.first - 1 - start)
    if f.writable && n ≠ 0 then
      let filled := data ++ List.replicate (start - data.length) 0
      let data := LinearMemory.splice start (bytes.take n) filled
      some (n, { f with cursor := start + n },
        { fs with contents := Function.update fs.contents f.node (some data) })
    else none

/-- `metadata().len()`, or 0 when there is none. -/
def len (fs : HostFs) (f : HostFile) : Nat := ((fs.contents f.node).map List.length).getD 0

end HostFile

-- ---------------------------------------------------------------------------
-- What a call does to the object behind a descriptor
-- ---------------------------------------------------------------------------

inductive Outcome
  | ret (value : Int)
  | bytes (tmp : List UInt8)
  deriving DecidableEq, Repr

def Pipe.read (p : Pipe) (len : Nat) : Outcome × Pipe :=
  let tmp := p.buf.take len
  let p := { p with buf := p.buf.drop len }
  let eof := tmp.isEmpty && p.closed
  if tmp.isEmpty && !eof && p.nonblock then (.ret (-EAGAIN), p)
  else if eof then (.ret 0, p)
  else if tmp.isEmpty then (.ret (-EAGAIN), p)
  else (.bytes tmp, p)

def Pipe.write (p : Pipe) (bytes : List UInt8) : Pipe := { p with buf := p.buf ++ bytes }

def CHUNK : Nat := 4096

def readLoop (fs : HostFs) (f : HostFile) (len : Nat) (got : List UInt8) :
    Option (List UInt8) × HostFile :=
  match f.read fs CHUNK with
  | none => (none, f)
  | some (chunk, f) =>
    if chunk.length = 0 then (some got, f)
    else if chunk.length > len - got.length then (some (got ++ chunk.take (len - got.length)), f)
    else if (got ++ chunk).length ≥ len then (some (got ++ chunk), f)
    else readLoop fs f len (got ++ chunk)
termination_by len - got.length
decreasing_by
  simp only [List.length_append] at *
  omega

namespace FilePos

/-- A failed seek is ignored. -/
def read (fs : HostFs) (fp : FilePos) (len : Nat) : Outcome × FilePos :=
  let inner := (fp.inner.seek (.start fp.pos)).getD fp.inner
  match readLoop fs inner len [] with
  | (none, inner) => (.ret (-EACCES), { fp with inner })
  | (some got, inner) =>
    let fp := { fp with inner, pos := fp.pos + UInt64.ofNat got.length }
    if got.isEmpty then (.ret (-EAGAIN), fp) else (.bytes got, fp)

def write (fs : HostFs) (fp : FilePos) (bytes : List UInt8) : Int × FilePos × HostFs :=
  match fp.inner.write fs bytes with
  | some (n, inner, fs) => (n, { fp with inner, pos := fp.pos + UInt64.ofNat n }, fs)
  | none => (- Errno.EIO, fp, fs)

def SEEK_SET : Int := 0
def SEEK_CUR : Int := 1
def SEEK_END : Int := 2

/-- `v.max(0) as u64`. -/
def startAt (v : Int) : SeekFrom := .start (UInt64.ofNat (max v 0).toNat)

/-- Where `lseek` on a regular file goes; the sum for `SEEK_END` wraps in 64 bits. -/
def seekFrom (fs : HostFs) (fp : FilePos) (offset whence : Int) : Option SeekFrom :=
  if whence = SEEK_SET then some (startAt offset)
  else if whence = SEEK_CUR then some (.current offset)
  else if whence = SEEK_END then some (startAt (Int.bmod (fp.inner.len fs + offset) (2 ^ 64)))
  else none

def lseek (fs : HostFs) (fp : FilePos) (offset whence : Int) : Int × FilePos :=
  if fp.isDir then
    if whence = SEEK_SET ∧ offset = 0 then (0, { fp with pos := 0 }) else (-ESPIPE, fp)
  else
    match (fp.seekFrom fs offset whence).bind fp.inner.seek with
    | some inner => (inner.cursor, { fp with inner, pos := UInt64.ofNat inner.cursor })
    | none => (-EINVAL, fp)

end FilePos

/-- The bytes of a word in the order of the little-endian hosts. -/
def toNeBytes (v : UInt64) : List UInt8 :=
  (List.range 8).map fun i => UInt8.ofNat (v.toNat / 256 ^ i)

def fromNeBytes (bytes : List UInt8) : UInt64 :=
  UInt64.ofNat (bytes.foldr (fun b acc => b.toNat + 256 * acc) 0)

namespace EventFdInner

def read (e : EventFdInner) (len : Nat) : Outcome × EventFdInner :=
  if len < 8 then (.ret (-EINVAL), e)
  else if e.counter = 0 then (.ret (if e.nonblock then -EAGAIN else 0), e)
  else (.bytes (toNeBytes e.counter), { e with counter := 0 })

/-- The counter stops at the largest word. -/
def write (e : EventFdInner) (bytes : List UInt8) : Int × EventFdInner :=
  if bytes.length < 8 then (-EINVAL, e)
  else
    let sum := e.counter.toNat + (fromNeBytes (bytes.take 8)).toNat
    (8, { e with counter := UInt64.ofNat (min sum (2 ^ 64 - 1)) })

end EventFdInner

-- ---------------------------------------------------------------------------
-- The calls
-- ---------------------------------------------------------------------------

namespace Sys

structure World where
  kernel : Kernel
  fs : HostFs

namespace World

def setPipe (w : World) (ref : Nat) (p : Pipe) : World :=
  { w with kernel.cells.pipes := w.kernel.cells.pipes.write ref p }

def setFile (w : World) (ref : Nat) (fp : FilePos) : World :=
  { w with kernel.cells.files := w.kernel.cells.files.write ref fp }

def setSocket (w : World) (ref : Nat) (s : SocketInner) : World :=
  { w with kernel.cells.sockets := w.kernel.cells.sockets.write ref s }

/-- An event counter lives in the table itself. -/
def setEventFd (w : World) (fd : UInt32) (e : EventFdInner) : World :=
  { w with kernel.fds.table := w.kernel.fds.table.insert fd (.eventFd e) }

end World

/-- `socket::recvfrom` and `socket::sendto` with no flags and no address. -/
structure SocketCalls where
  recvfrom : World → Int → Int → Int → Int × World
  sendto : World → Int → Int → Int → Int × World

def noSockets : SocketCalls where
  recvfrom w _ _ _ := (-EBADF, w)
  sendto w _ _ _ := (-EBADF, w)

def isListening (s : SocketInner) : Bool := s.bound.isSome && s.listenBacklog.isSome

def u32Fd (a : Int) : Option UInt32 := (u32TryFrom a).map UInt32.ofNat

theorem u32Fd_toNat (fd : UInt32) : u32Fd (fd.toNat : Int) = some fd := by
  have hlt := fd.toNat_lt
  have hrange : 0 ≤ (fd.toNat : Int) ∧ (fd.toNat : Int) < 2 ^ 32 := by omega
  rw [u32Fd, u32TryFrom, if_pos hrange, Option.map_some, Int.toNat_natCast, UInt32.ofNat_toNat]

theorem toNat_u32Fd (h : u32Fd a = some fd) : (fd.toNat : Int) = a := by
  unfold u32Fd u32TryFrom at h
  split at h
  · cases h
    rw [UInt32.toNat_ofNat']
    omega
  · cases h

section
variable (sock : SocketCalls)

def readFrom (w : World) (fd : UInt32) (len : Nat) : Resource → Option (Outcome × World)
  | .stdin r | .pipeRead r =>
    let (out, p) := (w.kernel.cells.pipes.read r.pipe).read len
    some (out, w.setPipe r.pipe p)
  | .file ref =>
    let (out, fp) := (w.kernel.cells.files.read ref).read w.fs len
    some (out, w.setFile ref fp)
  | .eventFd e =>
    let (out, e) := e.read len
    some (out, w.setEventFd fd e)
  | .socket _ => none
  | .stdout _ | .stderr _ | .pipeWrite _ | .epoll _ => some (.ret (-EBADF), w)

def deliver (memory : Option MemoryKind) (buf len : Int) : Outcome → Int × Option MemoryKind
  | .ret value => (value, memory)
  | .bytes tmp =>
    match guestCopy memory buf len tmp with
    | .error e => (e, memory)
    | .ok memory => (tmp.length, memory)

def read (w : World) (fd buf len : Int) : Int × World :=
  match u32Fd fd with
  | none => (-EBADF, w)
  | some f =>
    match guestSlice w.kernel.memory buf len with
    | .error e => (e, w)
    | .ok _ =>
      if len = 0 then (0, w)
      else
        match w.kernel.fds.get f with
        | .error e => (e, w)
        | .ok r =>
          match readFrom w f len.toNat r with
          | none => sock.recvfrom w fd buf len
          | some (out, w) =>
            let (n, memory) := deliver w.kernel.memory buf len out
            (n, { w with kernel.memory := memory })

def writeTo (w : World) (fd : UInt32) (bytes : List UInt8) : Resource → Option (Int × World)
  | .stdout p | .stderr p | .pipeWrite p =>
    some (bytes.length, w.setPipe p.pipe ((w.kernel.cells.pipes.read p.pipe).write bytes))
  | .file ref =>
    let (n, fp, fs) := (w.kernel.cells.files.read ref).write w.fs bytes
    some (n, { w with fs }.setFile ref fp)
  | .eventFd e =>
    let (n, e) := e.write bytes
    some (n, w.setEventFd fd e)
  | .socket _ => none
  | .stdin _ | .pipeRead _ | .epoll _ => some (-EBADF, w)

def write (w : World) (fd buf len : Int) : Int × World :=
  match u32Fd fd with
  | none => (-EBADF, w)
  | some f =>
    match guestSlice w.kernel.memory buf len with
    | .error e => (e, w)
    | .ok bytes =>
      if bytes.length = 0 then (0, w)
      else
        match w.kernel.fds.get f with
        | .error e => (e, w)
        | .ok r => (writeTo w f bytes r).getD (sock.sendto w fd buf len)

/-- Four bytes of address and four of length each; what is left over at the end is
ignored. -/
def iovecsOf : List UInt8 → List (Int × Int)
  | b₀ :: b₁ :: b₂ :: b₃ :: l₀ :: l₁ :: l₂ :: l₃ :: rest =>
    ((leValue [b₀, b₁, b₂, b₃] : Int), (leValue [l₀, l₁, l₂, l₃] : Int)) :: iovecsOf rest
  | _ => []

def iovecs (memory : Option MemoryKind) (iov count : Int) : Except Int (List (Int × Int)) :=
  if count < 0 then .error (-EINVAL)
  else if count * 8 ≥ 2 ^ 63 then .error (-EFAULT)
  else
    match guestSlice memory iov (count * 8) with
    | .error e => .error e
    | .ok bytes => .ok (iovecsOf bytes)

/-- The loop of `readv` and `writev`: an error or a short transfer ends it, and an
error counts only when nothing was transferred before it. -/
def vectored (call : σ → Int → Int → Int × σ) (s : σ) (total : Int) : List (Int × Int) → Int × σ
  | [] => (total, s)
  | (base, len) :: rest =>
    if len = 0 then vectored call s total rest
    else
      let (r, s) := call s base len
      if r < 0 then (if total = 0 then r else total, s)
      else if r < len then (total + r, s)
      else vectored call s (total + r) rest

def readv (w : World) (fd iov count : Int) : Int × World :=
  match iovecs w.kernel.memory iov count with
  | .error e => (e, w)
  | .ok entries => vectored (fun w base len => read sock w fd base len) w 0 entries

def writev (w : World) (fd iov count : Int) : Int × World :=
  match iovecs w.kernel.memory iov count with
  | .error e => (e, w)
  | .ok entries => vectored (fun w base len => write sock w fd base len) w 0 entries

def lseek (w : World) (fd offset whence : Int) : Int × World :=
  match u32Fd fd with
  | none => (-EBADF, w)
  | some f =>
    match w.kernel.fds.get f with
    | .error e => (e, w)
    | .ok (.file ref) =>
      let (n, fp) := (w.kernel.cells.files.read ref).lseek w.fs offset whence
      (n, w.setFile ref fp)
    | .ok _ => (-ESPIPE, w)

def setNonblock (w : World) (on : Bool) : Resource → World
  | .stdin r | .pipeRead r =>
    w.setPipe r.pipe { w.kernel.cells.pipes.read r.pipe with nonblock := on }
  | .stdout p | .stderr p | .pipeWrite p =>
    w.setPipe p.pipe { w.kernel.cells.pipes.read p.pipe with nonblock := on }
  | .socket ref => w.setSocket ref { w.kernel.cells.sockets.read ref with nonblock := on }
  | .file _ | .epoll _ | .eventFd _ => w

def O_NONBLOCK : BitVec 32 := 0o4000

/-- The `F_SETFL` arm of `fcntl`. -/
def fcntlSetfl (w : World) (fd arg : Int) : Int × World :=
  match u32Fd fd with
  | none => (-EBADF, w)
  | some f =>
    match w.kernel.fds.get f with
    | .error e => (e, w)
    | .ok r => (0, setNonblock w (BitVec.ofInt 32 arg &&& O_NONBLOCK ≠ 0) r)

-- ---------------------------------------------------------------------------
-- Sequences of calls
-- ---------------------------------------------------------------------------

/-- What the guest does: one of the calls, or a store to its own memory. -/
inductive Call
  | store (ptr : Int) (bytes : List UInt8)
  | read (fd buf len : Int)
  | write (fd buf len : Int)
  | lseek (fd offset whence : Int)
  | setfl (fd arg : Int)
  deriving DecidableEq, Repr

/-- A store outside memory traps; nothing is written. -/
def store (memory : Option MemoryKind) (ptr : Int) (bytes : List UInt8) : Int × Option MemoryKind :=
  match guestCopy memory ptr bytes.length bytes with
  | .error e => (e, memory)
  | .ok memory => (0, memory)

def step (w : World) : Call → Int × World
  | .store ptr bytes =>
    let (n, memory) := store w.kernel.memory ptr bytes
    (n, { w with kernel.memory := memory })
  | .read fd buf len => read sock w fd buf len
  | .write fd buf len => write sock w fd buf len
  | .lseek fd offset whence => lseek w fd offset whence
  | .setfl fd arg => fcntlSetfl w fd arg

/-- The values the calls of a sequence return, and the world after it. -/
def run (w : World) : List Call → List Int × World
  | [] => ([], w)
  | c :: rest =>
    let (value, w) := step sock w c
    let (values, w) := run w rest
    (value :: values, w)

/-- What the guest and its host can tell of a sequence: the values returned, the
bytes in guest memory and the host's files. -/
def observe (w : World) (calls : List Call) : List Int × Option MemoryKind × HostFs :=
  let (values, w) := run sock w calls
  (values, w.kernel.memory, w.fs)

end

end Sys

end EdgeLibos
