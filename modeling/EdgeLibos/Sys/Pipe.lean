import EdgeLibos.Sys.Poll
import EdgeLibos.Sys.Stdio

/-!
# Pipes

What goes through one pipe. `Flow` keeps, beside a guest, the bytes that writes to the
pipe have accepted and those that reads from it have delivered, through whichever
descriptors. The two ends share one buffer and one flag that says that the write end is
closed; no call that a guest can make sets the flag.
-/

namespace EdgeLibos.Sys

open Errno Lib

namespace World

def pipe (w : World) (ref : Nat) : Pipe := w.kernel.cells.pipes.read ref

def reads (w : World) (fd : Int) : Option Nat := (w.resourceAt fd).bind Resource.reads?

def writes (w : World) (fd : Int) : Option Nat := (w.resourceAt fd).bind Resource.writes?

def socketAt (w : World) (fd : Int) : Option Nat := (w.resourceAt fd).bind Resource.socket?

/-- Some descriptor is a write end of the pipe. -/
def WriterOpen (w : World) (ref : Nat) : Prop :=
  ∃ fd r, w.kernel.fds.table.get? fd = some r ∧ r.writes? = some ref

end World

/-- A guest, and what went through the pipe `ref` so far. -/
structure Flow where
  world : World
  accepted : List UInt8
  delivered : List UInt8

def payload (memory : Option MemoryKind) (entries : List (Int × Int)) : List UInt8 :=
  entries.flatMap fun e => bytesAt memory e.1 e.2

namespace Flow

def start (w : World) : Flow := { world := w, accepted := [], delivered := [] }

section
variable (sock : SocketCalls) (ref : Nat)

def read (s : Flow) (fd buf len : Int) : Int × Flow :=
  let (n, w) := Sys.read sock s.world fd buf len
  let new := if s.world.reads fd = some ref then bytesAt w.kernel.memory buf n else []
  (n, { s with world := w, delivered := s.delivered ++ new })

/-- The first `n` bytes of what a write that returns `n` had to give. -/
def accept (s : Flow) (fd n : Int) (bytes : List UInt8) : List UInt8 :=
  if s.world.writes fd = some ref then s.accepted ++ bytes.take n.toNat else s.accepted

def write (s : Flow) (fd buf len : Int) : Int × Flow :=
  let (n, w) := Sys.write sock s.world fd buf len
  (n, { s with world := w, accepted := s.accept ref fd n (bytesAt s.world.kernel.memory buf len) })

/-- Each buffer in turn gets its bytes; a later one may overlap an earlier one. -/
def readv (s : Flow) (fd iov count : Int) : Int × Flow :=
  match iovecs s.world.kernel.memory iov count with
  | .error e => (e, s)
  | .ok entries => vectored (fun s base len => read sock ref s fd base len) s 0 entries

def writev (s : Flow) (fd iov count : Int) : Int × Flow :=
  let (n, w) := Sys.writev sock s.world fd iov count
  let bytes := payload s.world.kernel.memory
    ((iovecs s.world.kernel.memory iov count).toOption.getD [])
  (n, { s with world := w, accepted := s.accept ref fd n bytes })

def withTable (s : Flow) (t : FdTable) : Flow := { s with world.kernel.fds := t }

end

end Flow

/-- The calls on descriptors, and the guest's stores to its own memory. -/
inductive PipeCall
  | store (ptr : Int) (bytes : List UInt8)
  | read (fd buf len : Int)
  | write (fd buf len : Int)
  | readv (fd iov count : Int)
  | writev (fd iov count : Int)
  | dup (oldfd : Int)
  | dup2 (oldfd newfd : Int)
  | dup3 (oldfd newfd flags : Int)
  | dupfd (fd arg : Int) (cloexec : Bool)
  | close (fd : Int)
  deriving DecidableEq, Repr

def PipeCall.fd? : PipeCall → Option Int
  | .read fd _ _ | .write fd _ _ | .readv fd _ _ | .writev fd _ _ => some fd
  | _ => none

def OffSockets (s : Flow) (c : PipeCall) : Prop := ∀ fd ∈ c.fd?, s.world.socketAt fd = none

/-- What a call returns and leaves; `none` when it never returns. -/
def Flow.step (sock : SocketCalls) (ref : Nat) (s : Flow) : PipeCall → Option (Int × Flow)
  | .store ptr bytes =>
    let (n, memory) := Sys.store s.world.kernel.memory ptr bytes
    some (n, { s with world.kernel.memory := memory })
  | .read fd buf len => some (s.read sock ref fd buf len)
  | .write fd buf len => some (s.write sock ref fd buf len)
  | .readv fd iov count => some (s.readv sock ref fd iov count)
  | .writev fd iov count => some (s.writev sock ref fd iov count)
  | .dup oldfd => (Sys.dup s.world.kernel.fds oldfd).map fun (n, t) => (n, s.withTable t)
  | .dup2 oldfd newfd =>
    (Sys.dup2 s.world.kernel.fds oldfd newfd).map fun (n, t) => (n, s.withTable t)
  | .dup3 oldfd newfd flags =>
    (Sys.dup3 s.world.kernel.fds oldfd newfd flags).map fun (n, t) => (n, s.withTable t)
  | .dupfd fd arg cloexec =>
    (fcntlDupfd s.world.kernel.fds fd arg cloexec).map fun (n, t) => (n, s.withTable t)
  | .close fd =>
    let (n, t) := Sys.close s.world.kernel.fds fd
    some (n, s.withTable t)

def Flow.next (sock : SocketCalls) (ref : Nat) (s : Flow) (c : PipeCall) : Option Flow :=
  (s.step sock ref c).map Prod.snd

-- ---------------------------------------------------------------------------
-- What the calls leave alone
-- ---------------------------------------------------------------------------

/-- Every descriptor is an end of the pipe that it was an end of before. -/
structure SameEnds (t t' : FdTable) : Prop where
  reads : ∀ fd, (t'.table.get? fd).bind Resource.reads? = (t.table.get? fd).bind Resource.reads?
  writes : ∀ fd, (t'.table.get? fd).bind Resource.writes? = (t.table.get? fd).bind Resource.writes?
  sockets : ∀ fd, (t'.table.get? fd).bind Resource.socket? = (t.table.get? fd).bind Resource.socket?

variable {w w' w₁ : World}

theorem SameEnds.refl (t : FdTable) : SameEnds t t := ⟨fun _ => rfl, fun _ => rfl, fun _ => rfl⟩

theorem SameEnds.setEventFd (hr : w.kernel.fds.table.get? fd = some (.eventFd e)) (e' : EventFdInner) :
    SameEnds w.kernel.fds (w.setEventFd fd e').kernel.fds := by
  refine ⟨fun x => ?_, fun x => ?_, fun x => ?_⟩
  all_goals
    rw [get?_setEventFd]
    split
    · rename_i hx
      rw [hx, hr]
      rfl
    · rfl

theorem SameEnds.writes_at (h : SameEnds w.kernel.fds w'.kernel.fds) (fd : Int) :
    w'.writes fd = w.writes fd := by
  simp only [World.writes, World.resourceAt]
  cases u32Fd fd with
  | none => rfl
  | some f => exact h.writes f

theorem SameEnds.socketAt (h : SameEnds w.kernel.fds w'.kernel.fds) (fd : Int) :
    w'.socketAt fd = w.socketAt fd := by
  simp only [World.socketAt, World.resourceAt]
  cases u32Fd fd with
  | none => rfl
  | some f => exact h.sockets f

theorem setPipe_pipe (w : World) (p : Nat) (new : Pipe) (ref : Nat) :
    (w.setPipe p new).pipe ref = if ref = p then new else w.pipe ref := Heap.read_write ..

-- ---------------------------------------------------------------------------
-- Reading
-- ---------------------------------------------------------------------------

/-- What a read does to the pipe `ref`: the bytes it delivers come off the front. -/
structure ReadFlow (ref : Nat) (w : World) (fd buf n : Int) (w' : World) : Prop where
  ends : SameEnds w.kernel.fds w'.kernel.fds
  closed : (w'.pipe ref).closed = (w.pipe ref).closed
  flow : (w.pipe ref).buf =
    (if w.reads fd = some ref then bytesAt w'.kernel.memory buf n else []) ++ (w'.pipe ref).buf

theorem ReadFlow.of_refused (hn : n ≤ 0) : ReadFlow ref w fd buf n w := by
  refine ⟨.refl _, rfl, ?_⟩
  rw [bytesAt_of_le hn, ite_self, List.nil_append]

theorem ReadFlow.of_other (hends : SameEnds w.kernel.fds w'.kernel.fds)
    (hpipe : w'.pipe ref = w.pipe ref) (hreads : w.reads fd ≠ some ref) :
    ReadFlow ref w fd buf n w' :=
  ⟨hends, by rw [hpipe], by rw [if_neg hreads, List.nil_append, hpipe]⟩

theorem reads_of_get (hf : u32Fd fd = some f) (hr : w.kernel.fds.table.get? f = some r) :
    w.reads fd = r.reads? := by
  rw [World.reads, resourceAt_of_get hf hr, Option.bind_some]

theorem writes_of_get (hf : u32Fd fd = some f) (hr : w.kernel.fds.table.get? f = some r) :
    w.writes fd = r.writes? := by
  rw [World.writes, resourceAt_of_get hf hr, Option.bind_some]

theorem read_eq (sock : SocketCalls) (hf : u32Fd fd = some f)
    (hs : guestSlice w.kernel.memory buf len = .ok old) (hlen : 0 < len)
    (hr : w.kernel.fds.table.get? f = some r) (hres : readFrom w f len.toNat r = some (out, w₁)) :
    read sock w fd buf len = ((deliver w₁.kernel.memory buf len out).1,
      { w₁ with kernel.memory := (deliver w₁.kernel.memory buf len out).2 }) := by
  simp only [read, hf, hs, if_neg (ne_of_gt hlen), FdTable.get_ok.mpr hr, hres]

theorem read_full_pipe (sock : SocketCalls) (hf : u32Fd fd = some f)
    (hs : guestSlice w.kernel.memory buf len = .ok old) (hlen : 0 < len)
    (hr : w.kernel.fds.table.get? f = some r) (hp : p ∈ r.reads?) (hbuf : (w.pipe p).buf ≠ []) :
    ∃ w', read sock w fd buf len = ((((w.pipe p).buf.take len.toNat).length : Int), w') ∧
      w'.kernel.fds = w.kernel.fds ∧
      (∀ ref, w'.pipe ref = if ref = p then { w.pipe p with buf := (w.pipe p).buf.drop len.toNat }
        else w.pipe ref) ∧
      bytesAt w'.kernel.memory buf ((w.pipe p).buf.take len.toNat).length =
        (w.pipe p).buf.take len.toNat := by
  have hread : (w.kernel.cells.pipes.read p).read len.toNat = _ := Pipe.read_some hbuf (by omega)
  have htake : ((w.pipe p).buf.take len.toNat).length ≤ len.toNat := List.length_take_le ..
  obtain ⟨memory', hdeliver, hbytes⟩ := deliver_bytes hs htake
  have hres : readFrom w f len.toNat r = _ := readFrom_reader hp
  rw [hread] at hres
  refine ⟨{ w.setPipe p { w.pipe p with buf := (w.pipe p).buf.drop len.toNat } with
    kernel.memory := memory' }, ?_, rfl, fun ref => setPipe_pipe w p _ ref, hbytes⟩
  have hmem : (w.setPipe p { w.pipe p with buf := (w.pipe p).buf.drop len.toNat }).kernel.memory =
    w.kernel.memory := rfl
  rw [read_eq sock hf hs hlen hr hres]
  simp only [World.pipe] at hdeliver hmem ⊢
  rw [hmem, hdeliver]

theorem setPipe_self (w : World) (p : Nat) : w.setPipe p (w.pipe p) = w := by
  simp [World.setPipe, World.pipe, Heap.write]

/-- An empty pipe is at its end only when it was closed. -/
theorem read_empty_pipe (sock : SocketCalls) (hf : u32Fd fd = some f)
    (hs : guestSlice w.kernel.memory buf len = .ok old) (hlen : 0 < len)
    (hr : w.kernel.fds.table.get? f = some r) (hp : p ∈ r.reads?) (hbuf : (w.pipe p).buf = []) :
    read sock w fd buf len = (if (w.pipe p).closed then 0 else -EAGAIN, w) := by
  have hread : (w.pipe p).read len.toNat =
      (.ret (if (w.pipe p).closed then 0 else -EAGAIN), w.pipe p) := by
    have hsame : { w.pipe p with buf := [] } = w.pipe p := by rw [← hbuf]
    simp only [Pipe.read, hbuf, List.take_nil, List.drop_nil, List.isEmpty_nil, Bool.true_and, hsame]
    cases (w.pipe p).closed <;> cases (w.pipe p).nonblock <;> rfl
  have hres : readFrom w f len.toNat r = _ := readFrom_reader hp
  have hread' : (w.kernel.cells.pipes.read p).read len.toNat = _ := hread
  rw [hread'] at hres
  simp only [setPipe_self] at hres
  rw [read_eq sock hf hs hlen hr hres]
  rfl

theorem ReadFlow.of_pipe (sock : SocketCalls) (hf : u32Fd fd = some f)
    (hs : guestSlice w.kernel.memory buf len = .ok old) (hlen : 0 < len)
    (hr : w.kernel.fds.table.get? f = some r) (hp : p ∈ r.reads?) :
    ReadFlow ref w fd buf (read sock w fd buf len).1 (read sock w fd buf len).2 := by
  by_cases hbuf : (w.pipe p).buf = []
  · have hle : (if (w.pipe p).closed then 0 else -EAGAIN) ≤ 0 := by split <;> decide
    rw [read_empty_pipe sock hf hs hlen hr hp hbuf]
    exact .of_refused hle
  · obtain ⟨w', hread, hfds, hpipe, hbytes⟩ := read_full_pipe sock hf hs hlen hr hp hbuf
    rw [hread]
    have hreads : w.reads fd = some p := by
      rw [reads_of_get hf hr]
      exact hp
    by_cases href : ref = p
    · subst href
      have hpipe := (hpipe ref).trans (if_pos rfl)
      refine ⟨hfds ▸ .refl _, by rw [hpipe], ?_⟩
      rw [if_pos hreads, hbytes, hpipe, List.take_append_drop]
    · refine .of_other (hfds ▸ .refl _) ((hpipe ref).trans (if_neg href)) ?_
      rw [hreads]
      exact fun h => href (Option.some.inj h).symm

theorem read_flow (sock : SocketCalls) (ref : Nat) (h : w.socketAt fd = none) (buf len : Int) :
    ReadFlow ref w fd buf (read sock w fd buf len).1 (read sock w fd buf len).2 := by
  cases hf : u32Fd fd with
  | none =>
    simp only [read, hf]
    exact .of_refused (by decide)
  | some f =>
    cases hs : guestSlice w.kernel.memory buf len with
    | error e =>
      simp only [read, hf, hs]
      exact .of_refused (le_of_lt (guestSlice_error_neg hs))
    | ok old =>
      obtain ⟨mem, -, -, hlen, -, -⟩ := guestSlice_ok hs
      by_cases hzero : len = 0
      · simp only [read, hf, hs, if_pos hzero]
        exact .of_refused (le_refl 0)
      · have hpos : 0 < len := by omega
        cases hr : w.kernel.fds.table.get? f with
        | none =>
          have hget : w.kernel.fds.get f = .error (-EBADF) := by rw [FdTable.get, hr]
          simp only [read, hf, hs, if_neg hzero, hget]
          exact .of_refused (by decide)
        | some r =>
          have hreads := reads_of_get hf hr
          cases r with
          | stdin r | pipeRead r => exact .of_pipe sock hf hs hpos hr rfl
          | file file =>
            rw [read_eq sock hf hs hpos hr rfl]
            exact .of_other (.refl _) rfl (by rw [hreads]; exact (Option.some_ne_none ref).symm)
          | eventFd e =>
            rw [read_eq sock hf hs hpos hr rfl]
            exact .of_other (.setEventFd hr _) rfl (by rw [hreads]; exact (Option.some_ne_none ref).symm)
          | stdout p | stderr p | pipeWrite p | epoll p =>
            have hle : -EBADF ≤ 0 := by decide
            rw [read_eq sock hf hs hpos hr rfl]
            exact .of_refused hle
          | socket s =>
            rw [World.socketAt, resourceAt_of_get hf hr] at h
            cases h

-- ---------------------------------------------------------------------------
-- Writing
-- ---------------------------------------------------------------------------

/-- What a write does to the pipe `ref`: the bytes it accepts go to the end, and these are
all it has or none. -/
structure WriteFlow (ref : Nat) (w : World) (fd buf len n : Int) (w' : World) : Prop where
  ends : SameEnds w.kernel.fds w'.kernel.fds
  closed : (w'.pipe ref).closed = (w.pipe ref).closed
  memory : w'.kernel.memory = w.kernel.memory
  flow : (w'.pipe ref).buf = (w.pipe ref).buf ++
    if w.writes fd = some ref then (bytesAt w.kernel.memory buf len).take n.toNat else []
  whole : w.writes fd = some ref →
    n < 0 ∨ n = len ∧ (bytesAt w.kernel.memory buf len).length = len.toNat

theorem WriteFlow.of_error (hn : n < 0) : WriteFlow ref w fd buf len n w := by
  refine ⟨.refl _, rfl, rfl, ?_, fun _ => .inl hn⟩
  rw [Int.toNat_of_nonpos (le_of_lt hn), List.take_zero, ite_self, List.append_nil]

theorem WriteFlow.of_other (hends : SameEnds w.kernel.fds w'.kernel.fds)
    (hpipe : w'.pipe ref = w.pipe ref) (hmem : w'.kernel.memory = w.kernel.memory)
    (hwrites : w.writes fd ≠ some ref) : WriteFlow ref w fd buf len n w' :=
  ⟨hends, by rw [hpipe], hmem, by rw [if_neg hwrites, List.append_nil, hpipe],
    fun h => absurd h hwrites⟩

theorem bytesAt_of_slice (hs : guestSlice memory buf len = .ok bytes) : bytesAt memory buf len = bytes := by
  rw [bytesAt, hs]
  rfl

theorem write_eq (sock : SocketCalls) (hf : u32Fd fd = some f)
    (hs : guestSlice w.kernel.memory buf len = .ok bytes) (hlen : bytes.length ≠ 0)
    (hr : w.kernel.fds.table.get? f = some r) (hres : writeTo w f bytes r = some res) :
    write sock w fd buf len = res := by
  simp only [write, hf, hs, if_neg hlen, FdTable.get_ok.mpr hr, hres, Option.getD_some]

theorem WriteFlow.of_pipe (sock : SocketCalls) (hf : u32Fd fd = some f)
    (hs : guestSlice w.kernel.memory buf len = .ok bytes) (hlen : bytes.length ≠ 0)
    (hr : w.kernel.fds.table.get? f = some r) (hp : p ∈ r.writes?) :
    WriteFlow ref w fd buf len (write sock w fd buf len).1 (write sock w fd buf len).2 := by
  have hbytes := bytesAt_of_slice hs
  have hlength := guestSlice_length hs
  have hwrites : w.writes fd = some p := by
    rw [writes_of_get hf hr]
    exact hp
  rw [write_eq sock hf hs hlen hr (writeTo_writer hp)]
  by_cases href : ref = p
  · subst href
    have hpipe := (setPipe_pipe w ref ((w.pipe ref).write bytes) ref).trans (if_pos rfl)
    have hclosed := congrArg Pipe.closed hpipe
    have hbuf := congrArg Pipe.buf hpipe
    refine ⟨.refl _, hclosed, rfl, hbuf.trans ?_, fun _ => .inr ?_⟩
    · rw [if_pos hwrites, hbytes, Int.toNat_natCast, List.take_length]
      rfl
    · rw [hbytes]
      obtain ⟨-, -, -, hnonneg, -, -⟩ := guestSlice_ok hs
      exact ⟨by omega, hlength⟩
  · refine .of_other (.refl _) ((setPipe_pipe ..).trans (if_neg href)) rfl ?_
    rw [hwrites]
    exact fun h => href (Option.some.inj h).symm

theorem write_flow (sock : SocketCalls) (ref : Nat) (h : w.socketAt fd = none) (buf len : Int) :
    WriteFlow ref w fd buf len (write sock w fd buf len).1 (write sock w fd buf len).2 := by
  have hbadf : -EBADF < 0 := by decide
  cases hf : u32Fd fd with
  | none =>
    simp only [write, hf]
    exact .of_error hbadf
  | some f =>
    cases hs : guestSlice w.kernel.memory buf len with
    | error e =>
      simp only [write, hf, hs]
      exact .of_error (guestSlice_error_neg hs)
    | ok bytes =>
      have hbytes := bytesAt_of_slice hs
      have hlength := guestSlice_length hs
      obtain ⟨mem, -, -, hnonneg, -, -⟩ := guestSlice_ok hs
      by_cases hzero : bytes.length = 0
      · simp only [write, hf, hs, if_pos hzero]
        refine ⟨.refl _, rfl, rfl, ?_, fun _ => .inr ?_⟩
        · rw [Int.toNat_zero, List.take_zero, ite_self, List.append_nil]
        · rw [hbytes]
          exact ⟨by omega, hlength⟩
      · cases hr : w.kernel.fds.table.get? f with
        | none =>
          have hget : w.kernel.fds.get f = .error (-EBADF) := by rw [FdTable.get, hr]
          simp only [write, hf, hs, if_neg hzero, hget]
          exact .of_error hbadf
        | some r =>
          have hwrites := writes_of_get hf hr
          cases r with
          | stdout r | stderr r | pipeWrite r => exact .of_pipe sock hf hs hzero hr rfl
          | file file =>
            rw [write_eq sock hf hs hzero hr rfl]
            exact .of_other (.refl _) rfl rfl (by rw [hwrites]; exact (Option.some_ne_none ref).symm)
          | eventFd e =>
            rw [write_eq sock hf hs hzero hr rfl]
            exact .of_other (.setEventFd hr _) rfl rfl (by rw [hwrites]; exact (Option.some_ne_none ref).symm)
          | stdin p | pipeRead p | epoll p =>
            rw [write_eq sock hf hs hzero hr rfl]
            exact .of_error hbadf
          | socket s =>
            rw [World.socketAt, resourceAt_of_get hf hr] at h
            cases h

-- ---------------------------------------------------------------------------
-- Loops over buffers
-- ---------------------------------------------------------------------------

section
variable {call : σ → Int → Int → Int × σ}

theorem vectored_invariant {P : σ → Prop} (hstep : ∀ s base len, P s → P (call s base len).2)
    (h : P s) (total : Int) (entries : List (Int × Int)) : P (vectored call s total entries).2 := by
  induction entries generalizing s total with
  | nil => exact h
  | cons entry rest ih =>
    obtain ⟨base, len⟩ := entry
    have hnext := hstep s base len h
    unfold vectored
    split
    · exact ih h total
    · simp only
      split
      · exact hnext
      · split
        · exact hnext
        · exact ih hnext _

theorem vectored_nonneg (htotal : 0 < total) (hlens : ∀ e ∈ entries, 0 ≤ e.2) (s : σ) :
    0 ≤ (vectored call s total entries).1 := by
  induction entries generalizing s total with
  | nil => exact le_of_lt htotal
  | cons entry rest ih =>
    obtain ⟨base, len⟩ := entry
    have hrest : ∀ e ∈ rest, 0 ≤ e.2 := fun e he => hlens e (List.mem_cons_of_mem _ he)
    unfold vectored
    split
    · exact ih htotal hrest s
    · simp only
      split
      · rw [if_neg (ne_of_gt htotal)]
        exact le_of_lt htotal
      · split
        · simp only
          omega
        · exact ih (by omega) hrest _

/-- An error is that of the first buffer that is not empty, and then nothing else was done. -/
theorem vectored_error (hlens : ∀ e ∈ entries, 0 ≤ e.2) (s : σ)
    (h : (vectored call s 0 entries).1 < 0) :
    ∃ base len, vectored call s 0 entries = call s base len := by
  induction entries generalizing s with
  | nil => exact absurd h (lt_irrefl 0)
  | cons entry rest ih =>
    obtain ⟨base, len⟩ := entry
    have hrest : ∀ e ∈ rest, 0 ≤ e.2 := fun e he => hlens e (List.mem_cons_of_mem _ he)
    have hlen : 0 ≤ len := hlens (base, len) List.mem_cons_self
    unfold vectored at h ⊢
    split at h
    · rename_i hzero
      rw [if_pos hzero]
      exact ih hrest s h
    · rename_i hzero
      rw [if_neg hzero]
      simp only at h ⊢
      split at h
      · rename_i hneg
        rw [if_pos hneg, if_pos trivial]
        exact ⟨base, len, rfl⟩
      · split at h
        · simp only at h
          omega
        · have hpos : 0 < 0 + (call s base len).1 := by omega
          have hge : 0 ≤ (vectored call _ _ rest).1 := vectored_nonneg hpos hrest (call s base len).2
          omega

end

theorem payload_cons : payload memory ((base, len) :: rest) = bytesAt memory base len ++ payload memory rest :=
  List.flatMap_cons

/-- A gathering write to the pipe accepts the beginning of what it has, as much as it
returns. -/
theorem vectored_write_flow (sock : SocketCalls) (ref : Nat) (hwrites : w.writes fd = some ref)
    (hsock : w.socketAt fd = none) (hlens : ∀ e ∈ entries, 0 ≤ e.2) (htotal : 0 ≤ total) :
    ∃ k : Nat,
      ((vectored (fun w base len => write sock w fd base len) w total entries).2.pipe ref).buf =
        (w.pipe ref).buf ++ (payload w.kernel.memory entries).take k ∧
      ((vectored (fun w base len => write sock w fd base len) w total entries).1 = total + k ∨
        k = 0 ∧ (vectored (fun w base len => write sock w fd base len) w total entries).1 < 0) := by
  induction entries generalizing w total with
  | nil => exact ⟨0, by rw [List.take_zero, List.append_nil]; rfl, .inl (Int.add_zero total).symm⟩
  | cons entry rest ih =>
    obtain ⟨base, len⟩ := entry
    have hrest : ∀ e ∈ rest, 0 ≤ e.2 := fun e he => hlens e (List.mem_cons_of_mem _ he)
    have hlen : 0 ≤ len := hlens (base, len) List.mem_cons_self
    have hstep := write_flow sock ref hsock base len
    have hwhole := hstep.whole hwrites
    unfold vectored
    split
    · rename_i hzero
      rw [payload_cons, bytesAt_of_le (le_of_eq hzero), List.nil_append]
      exact ih hwrites hsock hrest htotal
    · rename_i hzero
      simp only
      generalize write sock w fd base len = res at hstep hwhole ⊢
      obtain ⟨n, w₁⟩ := res
      simp only at hstep hwhole ⊢
      have hflow := hstep.flow
      rw [if_pos hwrites] at hflow
      split
      · rename_i hneg
        refine ⟨0, ?_, ?_⟩
        · rw [hflow, Int.toNat_of_nonpos (le_of_lt hneg), List.take_zero, List.take_zero]
        · split
          · exact .inr ⟨rfl, hneg⟩
          · exact .inl (Int.add_zero total).symm
      · rename_i hnonneg
        obtain ⟨rfl, hlength⟩ := hwhole.resolve_left hnonneg
        rw [if_neg (lt_irrefl n)]
        have hmore : 0 < total + n := by omega
        obtain ⟨k, hbuf, hret⟩ := ih ((hstep.ends.writes_at fd).trans hwrites)
          ((hstep.ends.socketAt fd).trans hsock) hrest (le_of_lt hmore)
        refine ⟨n.toNat + k, ?_, ?_⟩
        · rw [hbuf, hflow, hstep.memory, payload_cons, List.append_assoc, ← hlength,
            List.take_length, List.take_length_add_append]
        · rcases hret with hret | ⟨rfl, hneg⟩
          · exact .inl (by omega)
          · exact absurd hneg (not_lt_of_ge (vectored_nonneg hmore hrest w₁))

end EdgeLibos.Sys
