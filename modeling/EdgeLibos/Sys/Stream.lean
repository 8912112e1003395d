import EdgeLibos.Lib.Traces
import EdgeLibos.Sys.FdSets

/-!
# Receiving from a connected stream

`recvmsg`, `recvfrom` and `read` on a connected TCP socket. A `recvmsg` with `MSG_PEEK`
takes bytes from the host's stream and queues them; the next `recvmsg`, peeking or
not, takes them from the queue, and the other two calls do not look at it. How much a
read from the host returns is part of the call here. The flag that `MSG_DONTWAIT` sets
for the length of a call is left out: no receive path reads it.
-/

namespace EdgeLibos.Sys

open Errno Lib
open FdSets (Fits)

/-- The socket behind all its descriptors: what the host's stream has yet to give, the
queue of peeked bytes, and whether `SHUT_RD` was called. -/
structure Stream where
  rest : List UInt8
  peekBuf : List UInt8
  shutRd : Bool
  deriving DecidableEq, Repr

/-- How a read from the host goes: it fails, or returns so many bytes. -/
inductive HostRead
  | fails
  | gives (n : Nat)
  deriving DecidableEq, Repr

/-- `stream.read` into `cap` bytes: some of what is left, and nothing only at the end.
`none` when the host cannot do what it is said to do. -/
def Stream.hostRead (s : Stream) (cap : Nat) : HostRead → Option (Option (List UInt8) × Stream)
  | .fails => some (none, s)
  | .gives n =>
    if n ≤ cap ∧ n ≤ s.rest.length ∧ (n = 0 → s.rest = []) then
      some (some (s.rest.take n), { s with rest := s.rest.drop n })
    else none

/-- A guest and one socket of it. -/
structure Receiver where
  memory : Option MemoryKind
  fds : FdTable
  socket : Stream

structure Received where
  peek : Bool
  bytes : List UInt8
  value : Int
  deriving DecidableEq, Repr

def Received.nothing (value : Int) : Received := { peek := false, bytes := [], value }

def MSG_PEEK : BitVec 32 := 0x2
def MSGHDR_SIZE : Int := 32
def MSG_IOV_OFF : Nat := 8
def MSG_IOVLEN_OFF : Nat := 12
def MSG_CONTROLLEN_OFF : Int := 20

def u32At (bytes : List UInt8) (i : Nat) : Int := leValue ((bytes.drop i).take 4)

def msgSpans (memory : Option MemoryKind) (msghdr : Int) : Except Int (List (Int × Int)) :=
  match guestSlice memory msghdr MSGHDR_SIZE with
  | .error e => .error e
  | .ok mhdr =>
    if u32At mhdr MSG_IOVLEN_OFF ≤ 0 ∨ u32At mhdr MSG_IOV_OFF = 0 then .error (-EINVAL)
    else
      match guestSlice memory (u32At mhdr MSG_IOV_OFF) (u32At mhdr MSG_IOVLEN_OFF * 8) with
      | .error e => .error e
      | .ok bytes => .ok (iovecsOf bytes)

def capacity (spans : List (Int × Int)) : Nat := (spans.map fun s => s.2.toNat).sum

/-- Bytes for a buffer that is not in memory are dropped. Returns what was copied. -/
def copyBytesToSpans (memory : Option MemoryKind) :
    List (Int × Int) → List UInt8 → List UInt8 × Option MemoryKind
  | [], _ => ([], memory)
  | (base, len) :: rest, data =>
    if data.isEmpty || len = 0 then copyBytesToSpans memory rest data
    else
      let piece := data.take len.toNat
      match guestCopy memory base piece.length piece with
      | .error _ => copyBytesToSpans memory rest (data.drop len.toNat)
      | .ok memory =>
        let (copied, memory) := copyBytesToSpans memory rest (data.drop len.toNat)
        (piece ++ copied, memory)

def writeBackMsghdr (memory : Option MemoryKind) (msghdr : Int) : Option MemoryKind :=
  ((guestCopy memory (msghdr + MSG_CONTROLLEN_OFF) 4 [0, 0, 0, 0]).toOption).getD memory

def Receiver.deliverMsg (r : Receiver) (peek : Bool) (msghdr : Int) (spans : List (Int × Int))
    (data : List UInt8) : Received × Receiver :=
  let (bytes, memory) := copyBytesToSpans r.memory spans data
  ({ peek, bytes, value := data.length }, { r with memory := writeBackMsghdr memory msghdr })

def Receiver.recvmsg (r : Receiver) (msghdr flags : Int) (host : HostRead) :
    Option (Received × Receiver) :=
  let peek := BitVec.ofInt 32 flags &&& MSG_PEEK ≠ 0
  match msgSpans r.memory msghdr with
  | .error e => some (.nothing e, r)
  | .ok spans =>
    let cap := capacity spans
    if cap = 0 then some (.nothing 0, r)
    else if r.socket.peekBuf.isEmpty then
      if r.socket.shutRd then some (.nothing 0, r)
      else
        match r.socket.hostRead cap host with
        | none => none
        | some (none, _) => some (.nothing (- Errno.EIO), r)
        | some (some data, s) =>
          let s := if peek then { s with peekBuf := s.peekBuf ++ data } else s
          some ({ r with socket := s }.deliverMsg peek msghdr spans data)
    else
      -- A peek takes the queued bytes as well.
      let s := { r.socket with peekBuf := r.socket.peekBuf.drop cap }
      some ({ r with socket := s }.deliverMsg peek msghdr spans (r.socket.peekBuf.take cap))

/-- What `recvfrom` checks before it reads. -/
def recvChecks (memory : Option MemoryKind) (buf len addr addrlen : Int) : Except Int Unit := do
  if len < 0 then .error (-EFAULT)
  else if len = 0 then .error (-EINVAL)
  else
    let _ ← guestSlice memory buf len
    let _ ← if addr ≠ 0 then guestSlice memory addr 16 else .ok []
    let _ ← if addrlen ≠ 0 then guestSlice memory addrlen 4 else .ok []
    return ()

/-- The peer's address is always reported as 127.0.0.1 with port 0. -/
def writePeer (memory : Option MemoryKind) (addr addrlen : Int) : Option MemoryKind :=
  let memory :=
    if addr ≠ 0 then
      (guestCopy memory addr 16 ([2, 0, 0, 0, 127, 0, 0, 1] ++ List.replicate 8 0)).toOption.getD memory
    else memory
  if addrlen ≠ 0 then (guestCopy memory addrlen 4 (le32 16)).toOption.getD memory else memory

def Receiver.recvfrom (r : Receiver) (buf len addr addrlen : Int) (host : HostRead) :
    Option (Received × Receiver) :=
  match recvChecks r.memory buf len addr addrlen with
  | .error e => some (.nothing e, r)
  | .ok _ =>
    if r.socket.shutRd then some (.nothing 0, r)
    else
      match r.socket.hostRead len.toNat host with
      | none => none
      | some (none, _) => some (.nothing (- Errno.EIO), r)
      | some (some data, s) =>
        match guestCopy r.memory buf data.length data with
        | .error e => some (.nothing e, { r with socket := s })
        | .ok memory =>
          some ({ peek := false, bytes := data, value := data.length },
            { r with socket := s, memory := writePeer memory addr addrlen })

def Receiver.read (r : Receiver) (buf len : Int) (host : HostRead) : Option (Received × Receiver) :=
  match guestSlice r.memory buf len with
  | .error e => some (.nothing e, r)
  | .ok _ => if len = 0 then some (.nothing 0, r) else r.recvfrom buf len 0 0 host

inductive RecvCall
  | store (ptr : Int) (bytes : List UInt8)
  | recvmsg (fd msghdr flags : Int) (host : HostRead)
  | recvfrom (fd buf len flags addr addrlen : Int) (host : HostRead)
  | read (fd buf len : Int) (host : HostRead)
  | dup (oldfd : Int)
  | dup2 (oldfd newfd : Int)
  | close (fd : Int)
  deriving DecidableEq, Repr

def RecvCall.fd? : RecvCall → Option Int
  | .store _ _ => none
  | .recvmsg fd _ _ _ | .recvfrom fd _ _ _ _ _ _ | .read fd _ _ _ | .dup fd | .dup2 fd _
  | .close fd => some fd

def Receiver.run (r : Receiver) : RecvCall → Option (Received × Receiver)
  | .store ptr bytes =>
    let (n, memory) := Sys.store r.memory ptr bytes
    some (.nothing n, { r with memory })
  | .recvmsg _ msghdr flags host => r.recvmsg msghdr flags host
  | .recvfrom _ buf len _ addr addrlen host => r.recvfrom buf len addr addrlen host
  | .read _ buf len host => r.read buf len host
  | .dup oldfd => (Sys.dup r.fds oldfd).map fun (n, t) => (.nothing n, { r with fds := t })
  | .dup2 oldfd newfd => (Sys.dup2 r.fds oldfd newfd).map fun (n, t) => (.nothing n, { r with fds := t })
  | .close fd =>
    let (n, t) := Sys.close r.fds fd
    some (.nothing n, { r with fds := t })

/-- A step of a guest that uses only the descriptors of the socket in cell `ref`. -/
def Receiver.next (ref : Nat) (r : Receiver) (c : RecvCall) : Option (Received × Receiver) :=
  if ∀ fd ∈ c.fd?, (u32Fd fd).bind r.fds.table.get? = some (.socket ref) then r.run c else none

-- ---------------------------------------------------------------------------
-- The buffers of a message
-- ---------------------------------------------------------------------------

/-- The bytes written to their buffers, in order; an error if one cannot be written. -/
def scatter (memory : Option MemoryKind) : List (Int × Int) → List UInt8 → Except Int (Option MemoryKind)
  | [], _ => .ok memory
  | (base, len) :: rest, data =>
    if data.isEmpty || len = 0 then scatter memory rest data
    else
      match guestCopy memory base (data.take len.toNat).length (data.take len.toNat) with
      | .error e => .error e
      | .ok memory => scatter memory rest (data.drop len.toNat)

/-- The parts of the buffers that `n` bytes fill are in memory. -/
def PiecesFit (memory : Option MemoryKind) : List (Int × Int) → Nat → Prop
  | [], _ => True
  | (base, len) :: rest, n =>
    (min n len.toNat ≠ 0 → Fits memory base (min n len.toNat : Nat)) ∧ PiecesFit memory rest (n - len.toNat)

@[simp] theorem capacity_cons (base len : Int) (rest : List (Int × Int)) :
    capacity ((base, len) :: rest) = len.toNat + capacity rest := rfl

section
variable {memory m : Option MemoryKind} {data : List UInt8}

theorem piecesFit_congr (h : ∀ ptr len, Fits memory' ptr len ↔ Fits memory ptr len) (spans : List (Int × Int))
    (n : Nat) : PiecesFit memory' spans n ↔ PiecesFit memory spans n := by
  induction spans generalizing n with
  | nil => rfl
  | cons span rest ih => simp [PiecesFit, h, ih]

theorem piecesFit_zero (spans : List (Int × Int)) : PiecesFit memory spans 0 := by
  induction spans with
  | nil => trivial
  | cons span rest ih => simpa [PiecesFit] using ih

theorem skip_iff (len : Int) (hlen : 0 ≤ len) :
    (data.isEmpty || decide (len = 0)) = true ↔ min data.length len.toNat = 0 := by
  rw [Bool.or_eq_true, List.isEmpty_iff, decide_eq_true_eq, ← List.length_eq_zero_iff]
  omega

theorem scatter_cons_skip (h : (data.isEmpty || decide (len = 0)) = true) :
    scatter memory ((base, len) :: rest) data = scatter memory rest data := by
  rw [scatter, if_pos h]

theorem scatter_cons (hskip : ¬ (data.isEmpty || decide (len = 0)) = true)
    (hcopy : guestCopy memory base (data.take len.toNat).length (data.take len.toNat) = .ok m) :
    scatter memory ((base, len) :: rest) data = scatter m rest (data.drop len.toNat) := by
  rw [scatter, if_neg hskip, hcopy]

theorem scatter_nil (spans : List (Int × Int)) : scatter memory spans [] = .ok memory := by
  induction spans with
  | nil => rfl
  | cons span rest ih => exact (scatter_cons_skip rfl).trans ih

/-- Parts that are in memory are all written, by the code's copy as well. -/
theorem scatter_of_fit (h : PiecesFit memory spans data.length) (hnonneg : ∀ span ∈ spans, 0 ≤ span.2) :
    ∃ m, scatter memory spans data = .ok m ∧
      copyBytesToSpans memory spans data = (data.take (capacity spans), m) := by
  induction spans generalizing memory data with
  | nil => exact ⟨memory, rfl, rfl⟩
  | cons span rest ih =>
    obtain ⟨base, len⟩ := span
    have hlen : 0 ≤ len := hnonneg _ List.mem_cons_self
    have hrest : ∀ span ∈ rest, 0 ≤ span.2 := fun s hs => hnonneg s (List.mem_cons_of_mem _ hs)
    obtain ⟨hpiece, hpieces⟩ := h
    by_cases hskip : (data.isEmpty || decide (len = 0)) = true
    · have hsame : data.length - len.toNat = data.length := by
        have := (skip_iff len hlen).mp hskip
        omega
      rw [hsame] at hpieces
      obtain ⟨m, hm, hcopy⟩ := ih hpieces hrest
      refine ⟨m, (scatter_cons_skip hskip).trans hm, ?_⟩
      rw [copyBytesToSpans, if_pos hskip, hcopy, capacity_cons]
      rw [Bool.or_eq_true, List.isEmpty_iff, decide_eq_true_eq] at hskip
      rcases hskip with rfl | rfl
      · simp
      · simp
    · have hne : min data.length len.toNat ≠ 0 := fun h => hskip ((skip_iff len hlen).mpr h)
      have hlength : (data.take len.toNat).length = min data.length len.toNat := by
        rw [List.length_take, Nat.min_comm]
      have hfits : Fits memory base (data.take len.toNat).length := by
        rw [hlength]
        exact hpiece hne
      obtain ⟨m₁, hcopy⟩ := FdSets.guestCopy_fits (data.take len.toNat) hfits rfl
      have hfitted := (FdSets.guestCopy_fitted hcopy).2.2
      rw [← List.length_drop] at hpieces
      obtain ⟨m, hm, hcopied⟩ := ih ((piecesFit_congr hfitted _ _).mpr hpieces) hrest
      refine ⟨m, (scatter_cons hskip hcopy).trans hm, ?_⟩
      rw [copyBytesToSpans, if_neg hskip]
      simp only [hcopy, hcopied, capacity_cons, List.take_add]

theorem copyBytesToSpans_fst (h : PiecesFit memory spans data.length) (hnonneg : ∀ span ∈ spans, 0 ≤ span.2)
    (hdata : data.length ≤ capacity spans) : (copyBytesToSpans memory spans data).1 = data := by
  obtain ⟨m, -, hcopy⟩ := scatter_of_fit h hnonneg
  rw [hcopy, List.take_of_length_le hdata]

end

-- ---------------------------------------------------------------------------
-- In order
-- ---------------------------------------------------------------------------

/-- After `got` was delivered, every call shows a part of the stream that starts right
behind what was delivered before it, and only a peek leaves it to be delivered again. -/
def InOrder (stream : List UInt8) : List UInt8 → List Received → Prop
  | _, [] => True
  | got, o :: rest =>
    got ++ o.bytes <+: stream ∧ InOrder stream (if o.peek then got else got ++ o.bytes) rest

/-- What the calls that do not peek deliver. -/
def delivered : List Received → List UInt8
  | [] => []
  | o :: rest => if o.peek then delivered rest else o.bytes ++ delivered rest

def Stream.pending (s : Stream) : List UInt8 := s.peekBuf ++ s.rest

/-- How many bytes a `recvmsg` gets that has this room. -/
def Stream.arriving (s : Stream) (cap : Nat) (host : HostRead) : Nat :=
  if s.peekBuf.isEmpty then
    match s.shutRd, host with
    | false, .gives n => n
    | _, _ => 0
  else min s.peekBuf.length cap

/-- A peek, a `recvfrom` or a `read` that gets to the stream finds no peeked bytes
queued, and a message's buffers are in memory as far as the bytes reach that it gets. -/
def Careful (r : Receiver) : RecvCall → Prop
  | .recvmsg _ msghdr flags host => ∀ spans, msgSpans r.memory msghdr = .ok spans →
      PiecesFit r.memory spans (r.socket.arriving (capacity spans) host) ∧
        (BitVec.ofInt 32 flags &&& MSG_PEEK ≠ 0 → capacity spans ≠ 0 → r.socket.peekBuf = [])
  | .recvfrom _ buf len _ addr addrlen _ => (recvChecks r.memory buf len addr addrlen).isOk = true →
      r.socket.shutRd = false → r.socket.peekBuf = []
  | .read _ buf len _ => (recvChecks r.memory buf len 0 0).isOk = true → r.socket.shutRd = false →
      r.socket.peekBuf = []
  | _ => True

/-- A call shows the beginning of what is pending and takes it unless it peeks. -/
structure Delivers (r : Receiver) (o : Received) (r' : Receiver) : Prop where
  bytes : o.bytes <+: r.socket.pending
  after : r'.socket.pending =
    if o.peek then r.socket.pending else r.socket.pending.drop o.bytes.length

variable {r r' : Receiver}

theorem Delivers.nothing (h : r'.socket = r.socket) (value : Int) :
    Delivers r (.nothing value) r' := by
  refine ⟨List.nil_prefix, ?_⟩
  rw [h]
  rfl

theorem Stream.hostRead_some {s s' : Stream} (h : s.hostRead cap host = some (some data, s')) :
    data.length ≤ cap ∧ s.rest = data ++ s'.rest ∧ s'.peekBuf = s.peekBuf := by
  cases host with
  | fails => cases h
  | gives n =>
    simp only [hostRead] at h
    split at h
    · rename_i hn
      cases h
      refine ⟨?_, (List.take_append_drop n s.rest).symm, rfl⟩
      rw [List.length_take]
      omega
    · cases h

theorem Stream.arriving_read {s s' : Stream} (hempty : s.peekBuf.isEmpty = true) (hopen : s.shutRd = false)
    (h : s.hostRead cap host = some (some data, s')) : s.arriving cap host = data.length := by
  cases host with
  | fails => cases h
  | gives n =>
    simp only [hostRead] at h
    split at h
    · rename_i hn
      cases h
      unfold arriving
      rw [if_pos hempty, hopen]
      exact (List.length_take_of_le hn.2.1).symm
    · cases h

theorem Stream.arriving_queue {s : Stream} (hqueued : ¬ s.peekBuf.isEmpty = true) (cap : Nat) (host : HostRead) :
    s.arriving cap host = (s.peekBuf.take cap).length := by
  unfold arriving
  rw [if_neg hqueued, List.length_take, Nat.min_comm]

theorem Delivers.taken {o : Received} (hpeek : o.peek = false)
    (h : r.socket.pending = o.bytes ++ r'.socket.pending) : Delivers r o r' := by
  constructor
  · rw [h]
    exact List.prefix_append ..
  · rw [hpeek, h, List.drop_left]
    rfl

theorem Delivers.peeked {o : Received} (hpeek : o.peek = true) (hsame : r'.socket.pending = r.socket.pending)
    (h : o.bytes <+: r.socket.pending) : Delivers r o r' := by
  refine ⟨h, ?_⟩
  rw [hpeek, hsame]
  rfl

def Sized (size : Nat) (memory : Option MemoryKind) : Prop :=
  ∃ mem, memory = some (.owned mem) ∧ mem.size = size

theorem Sized.guestCopy (h : Sized size memory) (hcopy : guestCopy memory ptr len new = .ok m) :
    Sized size m := by
  obtain ⟨mem, rfl, hsize⟩ := h
  unfold EdgeLibos.guestCopy at hcopy
  split at hcopy
  · cases hcopy
  · simp only [ownedOf] at hcopy
    split at hcopy
    · cases hcopy
      exact ⟨_, rfl, by rw [LinearMemory.write_size, hsize]⟩
    · cases hcopy

theorem Sized.copyBytesToSpans (h : Sized size memory) (spans : List (Int × Int)) (data : List UInt8) :
    Sized size (copyBytesToSpans memory spans data).2 := by
  induction spans generalizing memory data with
  | nil => exact h
  | cons span rest ih =>
    unfold Sys.copyBytesToSpans
    split
    · exact ih h _
    · dsimp only
      split
      · exact ih h _
      · rename_i hcopy
        exact ih (h.guestCopy hcopy) _

theorem Sized.writeBackMsghdr (h : Sized size memory) (msghdr : Int) :
    Sized size (writeBackMsghdr memory msghdr) := by
  unfold Sys.writeBackMsghdr
  cases hcopy : EdgeLibos.guestCopy memory (msghdr + MSG_CONTROLLEN_OFF) 4 [0, 0, 0, 0] with
  | error e => exact h
  | ok m => exact h.guestCopy hcopy

/-- Bytes for buffers that are in memory all arrive. -/
theorem Receiver.deliverMsg_eq (hfit : PiecesFit r.memory spans data.length) (hnonneg : ∀ span ∈ spans, 0 ≤ span.2)
    (hdata : data.length ≤ capacity spans) :
    ∃ m, (∀ size, Sized size r.memory → Sized size m) ∧ r.deliverMsg peek msghdr spans data =
      ({ peek, bytes := data, value := data.length }, { r with memory := m }) := by
  refine ⟨writeBackMsghdr (copyBytesToSpans r.memory spans data).2 msghdr, ?_, ?_⟩
  · intro size h
    exact (h.copyBytesToSpans spans data).writeBackMsghdr msghdr
  · simp only [deliverMsg, copyBytesToSpans_fst hfit hnonneg hdata]

theorem msgSpans_nonneg (h : msgSpans memory msghdr = .ok spans) : ∀ span ∈ spans, 0 ≤ span.2 := by
  unfold msgSpans at h
  split at h
  · cases h
  · split at h
    · cases h
    · split at h
      · cases h
      · cases h
        exact iovecsOf_nonneg _

/-- A peek with nothing queued, a message from the queue, or one from the host. -/
theorem Receiver.recvmsg_delivers
    (hc : ∀ spans, msgSpans r.memory msghdr = .ok spans →
      PiecesFit r.memory spans (r.socket.arriving (capacity spans) host) ∧
      (BitVec.ofInt 32 flags &&& MSG_PEEK ≠ 0 → capacity spans ≠ 0 → r.socket.peekBuf = []))
    (h : r.recvmsg msghdr flags host = some (o, r')) : Delivers r o r' := by
  simp only [recvmsg] at h
  split at h
  · cases h
    exact .nothing rfl _
  · rename_i spans hspans
    obtain ⟨hfit, hqueue⟩ := hc spans hspans
    have hnonneg := msgSpans_nonneg hspans
    split at h
    · cases h
      exact .nothing rfl _
    · rename_i hcap
      split at h
      · rename_i hempty
        have hnil : r.socket.peekBuf = [] := List.isEmpty_iff.mp hempty
        split at h
        · cases h
          exact .nothing rfl _
        · rename_i hshut
          split at h
          · cases h
          · cases h
            exact .nothing rfl _
          · rename_i data s hread
            obtain ⟨hlen, hrest, hbuf⟩ := Stream.hostRead_some hread
            rw [Stream.arriving_read hempty (by simpa using hshut) hread] at hfit
            rw [hnil] at hbuf
            have hpending : r.socket.pending = data ++ s.rest := by
              rw [Stream.pending, hnil, List.nil_append, hrest]
            by_cases hpeek : BitVec.ofInt 32 flags &&& MSG_PEEK ≠ 0
            · rw [if_pos hpeek] at h
              obtain ⟨m, -, hd⟩ := deliverMsg_eq
                (r := { r with socket := { s with peekBuf := s.peekBuf ++ data } }) hfit hnonneg hlen
              rw [hd] at h
              cases h
              refine .peeked (decide_eq_true hpeek) ?_ ?_
              · rw [hpending, Stream.pending, hbuf, List.nil_append]
              · rw [hpending]
                exact List.prefix_append ..
            · rw [if_neg hpeek] at h
              obtain ⟨m, -, hd⟩ := deliverMsg_eq (r := { r with socket := s }) hfit hnonneg hlen
              rw [hd] at h
              cases h
              refine .taken (decide_eq_false hpeek) ?_
              rw [hpending, Stream.pending, hbuf, List.nil_append]
      · rename_i hqueued
        have hpeek : ¬ BitVec.ofInt 32 flags &&& MSG_PEEK ≠ 0 := by
          intro hp
          exact hqueued (List.isEmpty_iff.mpr (hqueue hp hcap))
        rw [Stream.arriving_queue hqueued] at hfit
        obtain ⟨m, -, hd⟩ := deliverMsg_eq
          (r := { r with socket := { r.socket with peekBuf := r.socket.peekBuf.drop (capacity spans) } })
          hfit hnonneg (List.length_take_le ..)
        rw [hd] at h
        cases h
        refine .taken (decide_eq_false hpeek) ?_
        rw [Stream.pending, Stream.pending, ← List.append_assoc, List.take_append_drop]

theorem recvChecks_slice (h : recvChecks memory buf len addr addrlen = .ok u) :
    0 < len ∧ (guestSlice memory buf len).isOk = true := by
  unfold recvChecks at h
  split at h
  · cases h
  · split at h
    · cases h
    · obtain ⟨bytes, hslice, -⟩ := bind_ok h
      refine ⟨by omega, ?_⟩
      rw [hslice]
      rfl

theorem Receiver.recvfrom_delivers
    (hc : (recvChecks r.memory buf len addr addrlen).isOk = true → r.socket.shutRd = false →
      r.socket.peekBuf = [])
    (h : r.recvfrom buf len addr addrlen host = some (o, r')) : Delivers r o r' := by
  simp only [recvfrom] at h
  split at h
  · cases h
    exact .nothing rfl _
  · rename_i u hchecks
    rw [hchecks] at hc
    obtain ⟨hlen, hslice⟩ := recvChecks_slice hchecks
    split at h
    · cases h
      exact .nothing rfl _
    · rename_i hshut
      have hnil := hc rfl (by simpa using hshut)
      split at h
      · cases h
      · cases h
        exact .nothing rfl _
      · rename_i data s hread
        obtain ⟨hdata, hrest, hbuf⟩ := Stream.hostRead_some hread
        have hfits : (data.length : Int) ≤ len := by omega
        obtain ⟨mem, mem', -, -, hcopy⟩ := guestCopy_of_fits hslice hfits
        rw [hcopy] at h
        cases h
        refine .taken rfl ?_
        rw [Stream.pending, Stream.pending, hbuf, hnil, hrest]
        rfl

/-- A careful call on the socket shows what is pending. -/
theorem Receiver.next_delivers (hc : Careful r c) (h : r.next ref c = some (o, r')) :
    Delivers r o r' := by
  unfold next at h
  split at h
  · cases c with
    | store ptr bytes =>
      cases h
      apply Delivers.nothing
      rfl
    | recvmsg fd msghdr flags host => exact recvmsg_delivers hc h
    | recvfrom fd buf len flags addr addrlen host => exact recvfrom_delivers hc h
    | read fd buf len host =>
      simp only [run, read] at h
      split at h
      · cases h
        apply Delivers.nothing
        rfl
      · split at h
        · cases h
          apply Delivers.nothing
          rfl
        · exact recvfrom_delivers hc h
    | dup oldfd =>
      obtain ⟨⟨n, t⟩, -, h⟩ := Option.map_eq_some_iff.mp h
      cases h
      apply Delivers.nothing
      rfl
    | dup2 oldfd newfd =>
      obtain ⟨⟨n, t⟩, -, h⟩ := Option.map_eq_some_iff.mp h
      cases h
      apply Delivers.nothing
      rfl
    | close fd =>
      cases h
      apply Delivers.nothing
      rfl
  · cases h

theorem inOrder_of_delivered (hm : RunMeets (silent (Receiver.next ref)) Careful r calls)
    (hrun : traceFrom (Receiver.next ref) r calls = some (os, r')) (hgot : got ++ r.socket.pending = stream) :
    InOrder stream got os := by
  induction calls generalizing r got os with
  | nil =>
    cases hrun
    trivial
  | cons c rest ih =>
    obtain ⟨o, r₁, os', hnext, hrest, rfl⟩ := traceFrom_cons_some hrun
    have hsilent : silent (Receiver.next ref) r c = some r₁ := by rw [silent, hnext, Option.map_some]
    obtain ⟨hbytes, hafter⟩ := Receiver.next_delivers hm.1 hnext
    have hpre : got ++ o.bytes <+: stream := by
      rw [← hgot, List.prefix_append_right_inj]
      exact hbytes
    refine ⟨hpre, ih (hm.2 r₁ hsilent) hrest ?_⟩
    split at hafter
    · rename_i hpeek
      rw [if_pos hpeek, hafter, hgot]
    · rename_i hpeek
      obtain ⟨tail, htail⟩ := hbytes
      rw [if_neg hpeek, hafter, ← htail, List.drop_left, List.append_assoc, htail, hgot]

theorem InOrder.delivered (h : InOrder stream got os) (hgot : got <+: stream) :
    got ++ delivered os <+: stream := by
  induction os generalizing got with
  | nil => rwa [Sys.delivered, List.append_nil]
  | cons o rest ih =>
    obtain ⟨hbytes, hrest⟩ := h
    by_cases hpeek : o.peek = true
    · rw [if_pos hpeek] at hrest
      rw [Sys.delivered, if_pos hpeek]
      exact ih hrest hgot
    · rw [if_neg hpeek] at hrest
      rw [Sys.delivered, if_neg hpeek, ← List.append_assoc]
      exact ih hrest hbytes

/-- While nothing but a plain `recvmsg` meets queued bytes and messages have their
buffers in memory, the socket's descriptors show the stream from its start, in order. -/
theorem stream_in_order (hstart : r.socket.peekBuf = [])
    (hm : RunMeets (silent (Receiver.next ref)) Careful r calls)
    (hrun : traceFrom (Receiver.next ref) r calls = some (os, r')) :
    delivered os <+: r.socket.rest ∧ InOrder r.socket.rest [] os := by
  have horder : InOrder r.socket.rest [] os := by
    apply inOrder_of_delivered hm hrun
    rw [Stream.pending, hstart, List.nil_append, List.nil_append]
  exact ⟨horder.delivered List.nil_prefix, horder⟩

-- ---------------------------------------------------------------------------
-- Peeking one byte of two
-- ---------------------------------------------------------------------------

def oneByteMsg : List UInt8 :=
  List.replicate 8 0 ++ le32 32 ++ le32 1 ++ List.replicate 16 0 ++ le32 48 ++ le32 1

theorem oneByteMsg_fits : 0 + oneByteMsg.length ≤ LinearMemory.zeroPage.size := by
  rw [LinearMemory.zeroPage_size]
  decide

def peeker : Receiver where
  memory := some (.owned (LinearMemory.zeroPage.write 0 oneByteMsg oneByteMsg_fits))
  fds := (FdTable.empty.insert (.socket 0)).2
  socket := { rest := [7, 8], peekBuf := [], shutRd := false }

theorem oneByteMsg_spans {m : LinearMemory} (h : m.load 0 oneByteMsg.length = some oneByteMsg) :
    msgSpans (some (.owned m)) 0 = .ok [(48, 1)] := by
  have hheader : guestSlice (some (.owned m)) 0 MSGHDR_SIZE = .ok (oneByteMsg.take 32) :=
    guestSlice_of_load (k := 32) h (by decide)
  have hiov : guestSlice (some (.owned m)) 32 8 = .ok (oneByteMsg.drop 32) :=
    guestSlice_of_load (k := 8) (LinearMemory.load_sub (i := 32) (k := 8) h (by decide)) (by decide)
  have hlen : u32At (oneByteMsg.take 32) MSG_IOVLEN_OFF = 1 := by decide
  have hptr : u32At (oneByteMsg.take 32) MSG_IOV_OFF = 32 := by decide
  unfold msgSpans
  rw [hheader]
  simp only [hlen, hptr]
  rw [if_neg (by decide), show (1 : Int) * 8 = 8 from rfl, hiov]
  rfl

theorem peeker_spans : msgSpans peeker.memory 0 = .ok [(48, 1)] :=
  oneByteMsg_spans (LinearMemory.load_write oneByteMsg_fits)

theorem peeker_sized : Sized 65536 peeker.memory :=
  ⟨_, rfl, by rw [LinearMemory.write_size, LinearMemory.zeroPage_size]⟩

theorem Sized.slice (h : Sized size memory) (hptr : 0 ≤ ptr) (hlen : 0 ≤ len)
    (hfits : ptr.toNat + len.toNat ≤ size) : (guestSlice memory ptr len).isOk = true := by
  obtain ⟨mem, rfl, rfl⟩ := h
  rw [guestSlice, if_neg (by omega)]
  simp only [ownedOf]
  rw [if_pos hfits]
  rfl

/-- A buffer of one byte in memory has room for it. -/
theorem Sized.piecesFit (h : Sized size memory) (hptr : 0 ≤ ptr) (hfits : ptr.toNat + 1 ≤ size) :
    PiecesFit memory [(ptr, 1)] 1 :=
  ⟨fun _ => h.slice hptr (by decide) hfits, trivial⟩

theorem peeker_fits : PiecesFit peeker.memory [(48, 1)] 1 := peeker_sized.piecesFit (by decide) (by decide)

theorem Receiver.peek_one (hfd : (u32Fd fd).bind r.fds.table.get? = some (.socket ref))
    (hspans : msgSpans r.memory msghdr = .ok [(ptr, 1)]) (hfit : PiecesFit r.memory [(ptr, 1)] 1)
    (hstart : r.socket = { rest := b :: rest, peekBuf := [], shutRd := false }) :
    ∃ m, (∀ size, Sized size r.memory → Sized size m) ∧
      r.next ref (.recvmsg fd msghdr 2 (.gives 1)) = some ({ peek := true, bytes := [b], value := 1 },
        { r with memory := m, socket := { rest, peekBuf := [b], shutRd := false } }) := by
  obtain ⟨m, hsized, hd⟩ := deliverMsg_eq
    (r := { r with socket := { rest, peekBuf := [b], shutRd := false } })
    hfit (msgSpans_nonneg hspans) (show [b].length ≤ capacity [(ptr, 1)] from le_refl 1)
  refine ⟨m, hsized, ?_⟩
  have hfds : ∀ f ∈ (RecvCall.recvmsg fd msghdr 2 (.gives 1)).fd?,
      (u32Fd f).bind r.fds.table.get? = some (.socket ref) := by
    rintro f ⟨rfl⟩
    exact hfd
  have hhost : Stream.hostRead { rest := b :: rest, peekBuf := [], shutRd := false }
      (capacity [(ptr, 1)]) (.gives 1) =
        some (some [b], { rest, peekBuf := [], shutRd := false }) := by
    rw [Stream.hostRead, if_pos ⟨le_refl 1, by simp, by simp⟩]
    rfl
  rw [next, if_pos hfds, run]
  simp only [recvmsg, hspans, hstart, hhost]
  exact congrArg some hd

theorem peeker_careful : Careful peeker (.recvmsg 3 0 2 (.gives 1)) := by
  intro spans hspans
  obtain rfl := Except.ok.inj (peeker_spans.symm.trans hspans)
  exact ⟨peeker_fits, fun _ _ => rfl⟩

/-- A `read` of one byte takes it from the host, whatever is queued. -/
theorem Receiver.read_one (hfd : (u32Fd fd).bind r.fds.table.get? = some (.socket ref))
    (hslice : (guestSlice r.memory buf 1).isOk = true) (hshut : r.socket.shutRd = false)
    (hrest : r.socket.rest = b :: rest) :
    ∃ r', r.next ref (.read fd buf 1 (.gives 1)) =
      some ({ peek := false, bytes := [b], value := 1 }, r') := by
  obtain ⟨old, hold⟩ : ∃ old, guestSlice r.memory buf 1 = .ok old := by
    cases hs : guestSlice r.memory buf 1 with
    | error e =>
      rw [hs] at hslice
      cases hslice
    | ok old => exact ⟨old, rfl⟩
  obtain ⟨mem, mem', -, -, hcopy⟩ := guestCopy_of_fits hslice (show ([b].length : Int) ≤ 1 from le_refl 1)
  have hfds : ∀ f ∈ (RecvCall.read fd buf 1 (.gives 1)).fd?,
      (u32Fd f).bind r.fds.table.get? = some (.socket ref) := by
    rintro f ⟨rfl⟩
    exact hfd
  have hchecks : recvChecks r.memory buf 1 0 0 = .ok () := by
    rw [recvChecks, if_neg (by decide), if_neg (by decide), hold]
    rfl
  have hhost : r.socket.hostRead (1 : Int).toNat (.gives 1) =
      some (some [b], { r.socket with rest := rest }) := by
    rw [Stream.hostRead, hrest, if_pos ⟨le_refl 1, by simp, by simp⟩]
    rfl
  rw [next, if_pos hfds, run, read, hold]
  simp only [recvfrom, hchecks, hshut, hhost, hcopy]
  exact ⟨_, rfl⟩

theorem peeker_at_three : (u32Fd 3).bind peeker.fds.table.get? = some (.socket 0) := by decide

/-- A `recvmsg` takes the byte that is queued, and asks the host for nothing. -/
theorem Receiver.recvmsg_queued (hfd : (u32Fd fd).bind r.fds.table.get? = some (.socket ref))
    (hspans : msgSpans r.memory msghdr = .ok [(ptr, 1)]) (hfit : PiecesFit r.memory [(ptr, 1)] 1)
    (hstart : r.socket = { rest, peekBuf := [b], shutRd := false }) (host : HostRead) :
    ∃ m, (∀ size, Sized size r.memory → Sized size m) ∧
      r.next ref (.recvmsg fd msghdr 0 host) = some ({ peek := false, bytes := [b], value := 1 },
        { r with memory := m, socket := { rest, peekBuf := [], shutRd := false } }) := by
  obtain ⟨m, hsized, hd⟩ := deliverMsg_eq
    (r := { r with socket := { rest, peekBuf := [], shutRd := false } })
    hfit (msgSpans_nonneg hspans) (show [b].length ≤ capacity [(ptr, 1)] from le_refl 1)
  refine ⟨m, hsized, ?_⟩
  have hfds : ∀ f ∈ (RecvCall.recvmsg fd msghdr 0 host).fd?,
      (u32Fd f).bind r.fds.table.get? = some (.socket ref) := by
    rintro f ⟨rfl⟩
    exact hfd
  rw [next, if_pos hfds, run]
  simp only [recvmsg, hspans, hstart]
  exact congrArg some hd

theorem Receiver.store_header (hm : Sized 65536 r.memory) (ref : Nat) : ∃ m, Sized 65536 m ∧
    msgSpans m 0 = .ok [(48, 1)] ∧
      r.next ref (.store 0 oneByteMsg) = some (.nothing 0, { r with memory := m }) := by
  have hfits : 0 + oneByteMsg.length ≤ 65536 := by decide
  obtain ⟨mem, hmem, hsize⟩ := hm
  have hwrite : 0 + oneByteMsg.length ≤ mem.size := hsize ▸ hfits
  refine ⟨some (.owned (mem.write 0 oneByteMsg hwrite)), ⟨_, rfl, ?_⟩,
    oneByteMsg_spans (LinearMemory.load_write hwrite), ?_⟩
  · rw [LinearMemory.write_size, hsize]
  · have hcopy : guestCopy r.memory 0 oneByteMsg.length oneByteMsg =
        .ok (some (.owned (mem.write 0 oneByteMsg hwrite))) := by
      rw [hmem, guestCopy, if_neg (by omega)]
      exact dif_pos ⟨hwrite, le_refl _⟩
    rw [next, if_pos (by rintro f ⟨⟩), run, Sys.store, hcopy]

/-- After a peek and a new header a message takes the byte that was peeked, and a `read`
goes on behind it. -/
theorem stream_in_order_peek : ∃ os r',
    traceFrom (Receiver.next 0) peeker [.recvmsg 3 0 2 (.gives 1), .store 0 oneByteMsg, .recvmsg 3 0 0 .fails,
        .read 3 64 1 (.gives 1)] = some (os, r') ∧
      os.map Received.bytes = [[7], [], [7], [8]] ∧ delivered os = [7, 8] ∧
        delivered os <+: [7, 8] ∧ InOrder [7, 8] [] os := by
  obtain ⟨m₁, hsized₁, hpeek⟩ := Receiver.peek_one peeker_at_three peeker_spans peeker_fits rfl
  obtain ⟨m₂, hm₂, hspans, hstore⟩ := Receiver.store_header
    (r := { peeker with memory := m₁, socket := { rest := [8], peekBuf := [7], shutRd := false } })
    (hsized₁ _ peeker_sized) 0
  have hfit : PiecesFit m₂ [(48, 1)] 1 := hm₂.piecesFit (by decide) (by decide)
  obtain ⟨m₃, hsized₃, htake⟩ := Receiver.recvmsg_queued
    (r := { peeker with memory := m₂, socket := { rest := [8], peekBuf := [7], shutRd := false } })
    peeker_at_three hspans hfit rfl .fails
  obtain ⟨r', hread⟩ := Receiver.read_one
    (r := { peeker with memory := m₃, socket := { rest := [8], peekBuf := [], shutRd := false } })
    peeker_at_three ((hsized₃ _ hm₂).slice (by decide) (by decide) (show (64 : Int).toNat + _ ≤ _ by decide)) rfl rfl
  have hrun : traceFrom (Receiver.next 0) peeker [.recvmsg 3 0 2 (.gives 1), .store 0 oneByteMsg,
      .recvmsg 3 0 0 .fails, .read 3 64 1 (.gives 1)] = some (_, _) :=
    traceFrom_cons hpeek (traceFrom_cons hstore (traceFrom_cons htake (traceFrom_cons hread rfl)))
  refine ⟨_, _, hrun, rfl, rfl, stream_in_order rfl ?_ hrun⟩
  refine ⟨peeker_careful, fun r₁ h₁ => ⟨trivial, fun r₂ h₂ => ?_⟩⟩
  rw [silent, hpeek] at h₁
  cases h₁
  rw [silent, hstore] at h₂
  cases h₂
  refine ⟨fun spans h => ?_, fun r₃ h₃ => ⟨fun _ _ => ?_, fun _ _ => trivial⟩⟩
  · obtain rfl := Except.ok.inj (hspans.symm.trans h)
    exact ⟨hfit, fun hpeek => absurd rfl hpeek⟩
  · rw [silent, htake] at h₃
    cases h₃
    rfl

/-- The byte that was peeked is not the one that is read next. -/
theorem read_skips_peeked : ∃ os r',
    traceFrom (Receiver.next 0) peeker [.recvmsg 3 0 2 (.gives 1), .read 3 64 1 (.gives 1)] =
      some (os, r') ∧ peeker.socket.peekBuf = [] ∧ ¬ delivered os <+: peeker.socket.rest := by
  obtain ⟨m, hsized, hpeek⟩ := Receiver.peek_one peeker_at_three peeker_spans peeker_fits rfl
  have hm := hsized _ peeker_sized
  obtain ⟨r', hread⟩ := Receiver.read_one
    (r := { peeker with memory := m, socket := { rest := [8], peekBuf := [7], shutRd := false } })
    peeker_at_three (hm.slice (by decide) (by decide) (show (64 : Int).toNat + _ ≤ _ by decide)) rfl rfl
  refine ⟨_, _, traceFrom_cons hpeek (traceFrom_cons hread rfl), rfl, ?_⟩
  decide

end EdgeLibos.Sys
