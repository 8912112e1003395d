import EdgeLibos.Sys.Poll
import EdgeLibos.Sys.RegularFile

/-!
# Readiness

What `poll_one` and `compute_revents` report of a descriptor, beside what a `read` or a
`write` would return. The read end of a pipe is readable when a read does not block; an
event counter and a regular file are reported readable whatever they hold, and a write
end never is. Left open is what `poll` says of an empty standard input, and which events
nobody asked for it adds for a file.
-/

namespace EdgeLibos.Sys

open Errno Lib

/-- A mask within `IN` and `OUT`, which have the same numbers for both calls. -/
structure Interest where
  input : Bool
  output : Bool
  deriving DecidableEq, Repr

namespace Interest

def poll (m : Interest) : UInt16 := (if m.input then POLLIN else 0) ||| (if m.output then POLLOUT else 0)

def epoll (m : Interest) : UInt32 := (if m.input then EPOLLIN else 0) ||| (if m.output then EPOLLOUT else 0)

end Interest

/-- Room in guest memory for a read of eight bytes or more. -/
structure ReadBuffer (memory : Option MemoryKind) where
  ptr : Int
  len : Int
  eight : 8 ≤ len
  held : ∃ bytes, guestSlice memory ptr len = .ok bytes

/-- A read would return `-EAGAIN`, or the 0 that stands for it at an event counter. -/
def WouldBlock (sock : SocketCalls) (w : World) (fd : UInt32) (b : ReadBuffer w.kernel.memory) : Prop :=
  (read sock w fd.toNat b.ptr b.len).1 = -EAGAIN ∨
    (∃ e, w.kernel.fds.table.get? fd = some (.eventFd e)) ∧ (read sock w fd.toNat b.ptr b.len).1 = 0

def InKernel : Resource → Prop
  | .socket _ | .epoll _ => False
  | _ => True

-- ---------------------------------------------------------------------------
-- What is reported
-- ---------------------------------------------------------------------------

/-- Readable, where `blocks` says that a read would block. -/
def readyIn (blocks : Prop) : Resource → Prop
  | .stdin _ | .pipeRead _ => ¬ blocks
  | .file _ | .eventFd _ => True
  | _ => False

def readyOut : Resource → Prop
  | .stdout _ | .stderr _ | .pipeWrite _ | .file _ => True
  | _ => False

structure EpollReports (r : Resource) (m : Interest) (blocks : Prop) (revents : UInt32) : Prop where
  input : revents &&& EPOLLIN ≠ 0 ↔ m.input = true ∧ readyIn blocks r
  output : revents &&& EPOLLOUT ≠ 0 ↔ m.output = true ∧ readyOut r
  within : revents &&& ~~~(m.epoll ||| EPOLLERR ||| EPOLLHUP) = 0

structure PollReports (r : Resource) (m : Interest) (blocks : Prop) (revents : UInt16) : Prop where
  input : revents &&& POLLIN ≠ 0 ↔ m.input = true ∧ readyIn blocks r
  output : revents &&& POLLOUT ≠ 0 ↔ m.output = true ∧ readyOut r
  within : revents &&& ~~~(m.poll ||| POLLERR ||| POLLNVAL) = 0

/-- Where `poll` reports what epoll does: both ends of a pipe, and a standard input with
something in it. -/
def PollAgrees (w : World) : Resource → Prop
  | .pipeRead _ | .stdout _ | .stderr _ | .pipeWrite _ => True
  | .stdin p => (w.kernel.cells.pipes.read p.pipe).buf ≠ []
  | _ => False

/-- The file is open for reading, and nothing is left of it. -/
def AtEnd (w : World) (ref : Nat) : Prop :=
  (w.filePos ref).inner.readable = true ∧
    ∃ data, w.fs.contents (w.filePos ref).inner.node = some data ∧
      data.length ≤ (w.filePos ref).readStart

/-- What the two calls report of a descriptor bound to `r`. -/
structure Reports (sock : SocketCalls) (w : World) (fd : UInt32) (r : Resource) (m : Interest)
    (blocks : Prop) (polled : UInt16) (waited : UInt32) : Prop where
  epoll : EpollReports r m blocks waited
  poll : PollAgrees w r → PollReports r m blocks polled
  pollFile : ∀ ref, r = .file ref →
    (m.input = true → polled &&& POLLIN ≠ 0) ∧ (m.output = true → polled &&& POLLOUT ≠ 0)
  pollCounter : ∀ e, r = .eventFd e → polled = POLLNVAL
  fileBlocks : ∀ ref, r = .file ref → (blocks ↔ AtEnd w ref)
  writes : ∀ buf len, (write sock w fd.toNat buf len).1 ≠ -EAGAIN

-- ---------------------------------------------------------------------------
-- What a read returns
-- ---------------------------------------------------------------------------

section
variable (sock : SocketCalls) {w : World} {fd : UInt32}

theorem read_of_readFrom (hu : u32Fd n = some fd) (hfd : w.kernel.fds.table.get? fd = some r)
    (b : ReadBuffer w.kernel.memory)
    (hread : readFrom w fd b.len.toNat r = some (out, w')) (hmem : w'.kernel.memory = w.kernel.memory) :
    (read sock w n b.ptr b.len).1 = (deliver w.kernel.memory b.ptr b.len out).1 := by
  obtain ⟨old, hs⟩ := b.held
  have hlen : b.len ≠ 0 := by
    have := b.eight
    omega
  simp only [read, hu, hs, if_neg hlen, FdTable.get_ok.mpr hfd, hread, hmem]

theorem deliver_ne_eagain (b : ReadBuffer memory) (htmp : tmp.length ≤ b.len.toNat) :
    (deliver memory b.ptr b.len (.bytes tmp)).1 ≠ -EAGAIN := by
  obtain ⟨old, hs⟩ := b.held
  obtain ⟨memory', hdeliver, -⟩ := deliver_bytes hs htmp
  have heagain : -EAGAIN < 0 := by decide
  rw [hdeliver]
  simp only
  omega

/-- A read end blocks while it is empty and some write end is open. -/
theorem pipe_blocks_iff (hfd : w.kernel.fds.table.get? fd = some r) (hr : r = .stdin p ∨ r = .pipeRead p)
    (b : ReadBuffer w.kernel.memory) :
    WouldBlock sock w fd b ↔
      (w.kernel.cells.pipes.read p.pipe).buf = [] ∧ (w.kernel.cells.pipes.read p.pipe).closed = false := by
  have hcounter : ¬ ∃ e, w.kernel.fds.table.get? fd = some (.eventFd e) := by
    rintro ⟨e, he⟩
    cases hfd.symm.trans he
    rcases hr with hr | hr <;> cases hr
  have hread : readFrom w fd b.len.toNat r =
      some (((w.kernel.cells.pipes.read p.pipe).read b.len.toNat).1,
        w.setPipe p.pipe ((w.kernel.cells.pipes.read p.pipe).read b.len.toNat).2) := by
    rcases hr with rfl | rfl <;> rfl
  rw [WouldBlock, or_iff_left fun h => hcounter h.1, read_of_readFrom sock (u32Fd_toNat fd) hfd b hread rfl]
  generalize w.kernel.cells.pipes.read p.pipe = pipe
  have hlen := b.eight
  by_cases hbuf : pipe.buf = []
  · have hnone : (0 : Int) ≠ -EAGAIN := by decide
    cases hclosed : pipe.closed with
    | true =>
      simp only [Pipe.read, hbuf, hclosed, List.take_nil, List.isEmpty_nil, Bool.and_self, Bool.not_true,
        Bool.and_false, Bool.false_and, Bool.false_eq_true, if_false, if_true, deliver]
      exact iff_of_false hnone fun h => Bool.noConfusion h.2
    | false =>
      simp only [Pipe.read, hbuf, hclosed, List.take_nil, List.isEmpty_nil, Bool.and_false, Bool.not_false,
        Bool.true_and, Bool.false_eq_true, if_false, if_true, and_self, ite_self, deliver]
  · rw [Pipe.read_some hbuf (by omega)]
    exact iff_of_false (deliver_ne_eagain b (List.length_take_le ..)) fun h => hbuf h.1

/-- A file blocks at its end only; one that cannot be read is refused. -/
theorem filePos_blocks_iff (fs : HostFs) (fp : FilePos) (b : ReadBuffer memory) :
    (deliver memory b.ptr b.len (fp.read fs b.len.toNat).1).1 = -EAGAIN ↔
      fp.inner.readable = true ∧
        ∃ data, fs.contents fp.inner.node = some data ∧ data.length ≤ fp.readStart := by
  have hlen := b.eight
  have heacces : (-EACCES : Int) ≠ -EAGAIN := by decide
  have hnode : ({ fp.inner with cursor := fp.readStart } : HostFile).node = fp.inner.node := rfl
  have hrefused (h : HostFile.read fs { fp.inner with cursor := fp.readStart } CHUNK = none) :
      (deliver memory b.ptr b.len (fp.read fs b.len.toNat).1).1 = -EACCES := by
    rw [FilePos.read, seek_readStart, readLoop, h]
    rfl
  cases hc : fs.contents fp.inner.node with
  | none =>
    rw [hrefused (by rw [HostFile.read, hnode, hc])]
    exact iff_of_false heacces (by simp)
  | some data =>
    cases hr : fp.inner.readable with
    | false =>
      rw [hrefused (by simp [HostFile.read, hc, hr])]
      exact iff_of_false heacces (by simp)
    | true =>
      have hroom : ([] : List UInt8).length < b.len.toNat := by
        rw [List.length_nil]
        omega
      have hloop := readLoop_eq (f := { fp.inner with cursor := fp.readStart }) hc hr hroom
      rw [FilePos.read, seek_readStart, hloop]
      simp only [List.nil_append, List.length_nil, Nat.sub_zero]
      by_cases hend : data.length ≤ fp.readStart
      · rw [List.drop_eq_nil_of_le hend, List.take_nil]
        exact iff_of_true rfl ⟨trivial, data, rfl, hend⟩
      · have hne : ((data.drop fp.readStart).take b.len.toNat).isEmpty = false := by
          rw [List.isEmpty_eq_false_iff, Ne, ← List.length_eq_zero_iff, List.length_take, List.length_drop]
          omega
        rw [hne]
        refine iff_of_false (deliver_ne_eagain b (List.length_take_le ..)) ?_
        rintro ⟨-, _, hd, hle⟩
        cases hd
        exact hend hle

theorem file_blocks_iff (hfd : w.kernel.fds.table.get? fd = some (.file ref))
    (b : ReadBuffer w.kernel.memory) : WouldBlock sock w fd b ↔ AtEnd w ref := by
  have hcounter : ¬ ∃ e, w.kernel.fds.table.get? fd = some (.eventFd e) := by
    rintro ⟨e, he⟩
    cases hfd.symm.trans he
  rw [WouldBlock, or_iff_left fun h => hcounter h.1, read_of_readFrom sock (u32Fd_toNat fd) hfd b rfl rfl]
  exact filePos_blocks_iff w.fs (w.filePos ref) b

theorem guestSlice_error_ne_eagain (h : guestSlice memory ptr len = .error e) : e ≠ -EAGAIN := by
  unfold guestSlice at h
  split at h
  · cases h
    decide
  · split at h
    · rename_i hmem
      cases h
      unfold ownedOf at hmem
      split at hmem
      · cases hmem
        decide
      · cases hmem
      · cases hmem
        decide
    · split at h
      · cases h
      · cases h
        decide

theorem writeTo_ne_eagain (h : writeTo w fd bytes r = some (n, w')) : n ≠ -EAGAIN := by
  have hcount (k : Nat) : (k : Int) ≠ -EAGAIN := by
    have heagain : -EAGAIN < 0 := by decide
    omega
  cases r with
  | stdout p | stderr p | pipeWrite p =>
    cases h
    exact hcount _
  | stdin p | pipeRead p | epoll e =>
    cases h
    decide
  | socket ref => cases h
  | eventFd e =>
    simp only [writeTo, EventFdInner.write] at h
    split at h
    · cases h
      exact (by decide : (-EINVAL : Int) ≠ -EAGAIN)
    · cases h
      exact (by decide : (8 : Int) ≠ -EAGAIN)
  | file ref =>
    simp only [writeTo, FilePos.write] at h
    split at h
    · cases h
      exact hcount _
    · cases h
      exact (by decide : (- Errno.EIO : Int) ≠ -EAGAIN)

theorem write_ne_eagain (hu : u32Fd n = some fd) (hfd : w.kernel.fds.table.get? fd = some r)
    (hr : InKernel r) (buf len : Int) : (write sock w n buf len).1 ≠ -EAGAIN := by
  cases hs : guestSlice w.kernel.memory buf len with
  | error e =>
    simp only [write, hu, hs]
    exact guestSlice_error_ne_eagain hs
  | ok bytes =>
    simp only [write, hu, hs, FdTable.get_ok.mpr hfd]
    split
    · exact (by decide : (0 : Int) ≠ -EAGAIN)
    · cases hto : writeTo w fd bytes r with
      | none =>
        cases r with
        | socket ref => exact absurd hr id
        | stdin p | stdout p | stderr p | file ref | pipeRead p | pipeWrite p | epoll e | eventFd e => cases hto
      | some out => exact writeTo_ne_eagain hto

end

-- ---------------------------------------------------------------------------
-- The bits reported
-- ---------------------------------------------------------------------------

section
variable {w : World} {fd : UInt32} {r : Resource} {m : Interest} {blocks : Prop}

theorem Interest.wants_in (m : Interest) : m.epoll &&& EPOLLIN ≠ 0 ↔ m.input = true := by
  obtain ⟨input, output⟩ := m
  cases input <;> cases output <;> decide

theorem Interest.wants_out (m : Interest) : m.epoll &&& EPOLLOUT ≠ 0 ↔ m.output = true := by
  obtain ⟨input, output⟩ := m
  cases input <;> cases output <;> decide

theorem Interest.polls_in (m : Interest) : m.poll &&& POLLIN ≠ 0 ↔ m.input = true := by
  obtain ⟨input, output⟩ := m
  cases input <;> cases output <;> decide

theorem Interest.polls_out (m : Interest) : m.poll &&& POLLOUT ≠ 0 ↔ m.output = true := by
  obtain ⟨input, output⟩ := m
  cases input <;> cases output <;> decide

theorem epollReports_bits {i o : Bool}
    (hbits : revents = (if i then EPOLLIN else 0) ||| (if o then EPOLLOUT else 0))
    (hi : i = true ↔ m.input = true ∧ readyIn blocks r) (ho : o = true ↔ m.output = true ∧ readyOut r) :
    EpollReports r m blocks revents := by
  obtain ⟨input, output⟩ := m
  subst hbits
  have hin : i = true → input = true := fun h => (hi.mp h).1
  have hout : o = true → output = true := fun h => (ho.mp h).1
  refine ⟨Iff.trans ?_ hi, Iff.trans ?_ ho, ?_⟩
  · cases i <;> cases o <;> decide
  · cases i <;> cases o <;> decide
  · revert hin hout
    cases i <;> cases o <;> cases input <;> cases output <;> decide

theorem pollReports_bits {i o e : Bool}
    (hbits : revents = (if i then POLLIN else 0) ||| (if o then POLLOUT else 0) ||| (if e then POLLERR else 0))
    (hi : i = true ↔ m.input = true ∧ readyIn blocks r) (ho : o = true ↔ m.output = true ∧ readyOut r) :
    PollReports r m blocks revents := by
  obtain ⟨input, output⟩ := m
  subst hbits
  have hin : i = true → input = true := fun h => (hi.mp h).1
  have hout : o = true → output = true := fun h => (ho.mp h).1
  refine ⟨Iff.trans ?_ hi, Iff.trans ?_ ho, ?_⟩
  · cases i <;> cases o <;> cases e <;> decide
  · cases i <;> cases o <;> cases e <;> decide
  · revert hin hout
    cases i <;> cases o <;> cases e <;> cases input <;> cases output <;> decide

/-- Where reading would block is told by what the pipe holds. -/
def BlocksAsHeld (w : World) (blocks : Prop) : Resource → Prop
  | .stdin p | .pipeRead p =>
    blocks ↔ (w.kernel.cells.pipes.read p.pipe).buf = [] ∧ (w.kernel.cells.pipes.read p.pipe).closed = false
  | _ => True

theorem held_iff (p : Pipe) : (!p.buf.isEmpty || p.closed) = true ↔ ¬ (p.buf = [] ∧ p.closed = false) := by
  cases hc : p.closed <;> simp

theorem computeRevents_reports (sides : Nat → SocketSide) (hfd : w.kernel.fds.table.get? fd = some r)
    (hr : InKernel r) (m : Interest) (hblocks : BlocksAsHeld w blocks r) :
    EpollReports r m blocks (computeRevents w.kernel sides fd m.epoll) := by
  simp only [computeRevents, hfd, m.wants_in, m.wants_out]
  cases r with
  | socket ref => exact absurd hr id
  | epoll e => exact absurd hr id
  | stdin p | pipeRead p =>
    have hready := (held_iff (w.kernel.cells.pipes.read p.pipe)).trans (not_congr hblocks.symm)
    refine epollReports_bits (i := decide (m.input = true ∧ _)) (o := false) ?_
      (decide_eq_true_iff.trans (and_congr_right fun _ => hready)) (iff_of_false Bool.false_ne_true And.right)
    simp only [decide_eq_true_eq, Bool.false_eq_true, if_false, UInt32.or_zero]
  | file ref => exact epollReports_bits rfl (and_iff_left trivial).symm (and_iff_left trivial).symm
  | eventFd e =>
    refine epollReports_bits (o := false) ?_ (and_iff_left trivial).symm
      (iff_of_false Bool.false_ne_true And.right)
    simp only [Bool.false_eq_true, if_false, UInt32.or_zero]
  | stdout p | stderr p | pipeWrite p =>
    refine epollReports_bits (i := false) ?_ (iff_of_false Bool.false_ne_true And.right)
      (and_iff_left trivial).symm
    simp only [Bool.false_eq_true, if_false, UInt32.zero_or]

theorem readyPipeRead_reports {ready : Bool} (hready : ready = true ↔ readyIn blocks r)
    (hr : ¬ readyOut r) (m : Interest) : PollReports r m blocks (readyPipeRead m.poll ready) := by
  refine pollReports_bits (i := decide (ready = true ∧ m.input = true)) (o := false) (e := m.output) ?_
    (decide_eq_true_iff.trans (and_comm.trans (and_congr_right fun _ => hready)))
    (iff_of_false Bool.false_ne_true fun h => hr h.2)
  simp only [readyPipeRead, m.polls_in, m.polls_out, decide_eq_true_eq, Bool.false_eq_true, if_false,
    UInt16.or_zero]

theorem pollOne_reports (sides : Nat → SocketSide) (hu : u32Fd n = some fd)
    (hfd : w.kernel.fds.table.get? fd = some r) (m : Interest) (hblocks : BlocksAsHeld w blocks r)
    (hagrees : PollAgrees w r) : PollReports r m blocks (pollOne w.kernel sides n m.poll) := by
  simp only [pollOne, hu, hfd, Option.bind_some]
  cases r with
  | file ref => exact absurd hagrees id
  | socket ref => exact absurd hagrees id
  | epoll e => exact absurd hagrees id
  | eventFd e => exact absurd hagrees id
  | stdin p =>
    have hbuf : (w.kernel.cells.pipes.read p.pipe).buf ≠ [] := hagrees
    have hheld : (w.kernel.cells.pipes.read p.pipe).buf.isEmpty = false := List.isEmpty_eq_false_iff.mpr hbuf
    have hready : readyIn blocks (.stdin p) := fun hb => hbuf (hblocks.mp hb).1
    refine readyPipeRead_reports (iff_of_true ?_ hready) id m
    rw [hheld, Bool.not_false, Bool.or_true]
  | pipeRead p => exact readyPipeRead_reports ((held_iff _).trans (not_congr hblocks.symm)) id m
  | stdout p | stderr p | pipeWrite p =>
    refine pollReports_bits (i := false) (e := false) ?_ (iff_of_false Bool.false_ne_true And.right)
      (and_iff_left trivial).symm
    show POLLOUT &&& m.poll = _
    obtain ⟨input, output⟩ := m
    cases input <;> cases output <;> decide

theorem pollOne_file (sides : Nat → SocketSide) (hu : u32Fd n = some fd)
    (hfd : w.kernel.fds.table.get? fd = some (.file ref)) (events : UInt16) :
    pollOne w.kernel sides n events = POLLIN ||| POLLOUT := by
  simp only [pollOne, hu, hfd, Option.bind_some]

theorem pollOne_eventFd (sides : Nat → SocketSide) (hu : u32Fd n = some fd)
    (hfd : w.kernel.fds.table.get? fd = some (.eventFd e)) (events : UInt16) :
    pollOne w.kernel sides n events = POLLNVAL := by
  simp only [pollOne, hu, hfd, Option.bind_some]

/-- What both calls report, of every descriptor of the kernel's own. -/
theorem readiness_reported (sock : SocketCalls) (w : World) (sides : Nat → SocketSide) (fd : UInt32)
    (r : Resource) (hfd : w.kernel.fds.table.get? fd = some r) (hr : InKernel r) (m : Interest)
    (b : ReadBuffer w.kernel.memory) :
    Reports sock w fd r m (WouldBlock sock w fd b) (pollOne w.kernel sides fd.toNat m.poll)
      (computeRevents w.kernel sides fd m.epoll) := by
  have hu := u32Fd_toNat fd
  have hblocks : BlocksAsHeld w (WouldBlock sock w fd b) r := by
    cases r with
    | stdin p => exact pipe_blocks_iff sock hfd (.inl rfl) b
    | pipeRead p => exact pipe_blocks_iff sock hfd (.inr rfl) b
    | stdout p | stderr p | file ref | pipeWrite p | socket ref | epoll e | eventFd e => trivial
  refine ⟨computeRevents_reports sides hfd hr m hblocks, pollOne_reports sides hu hfd m hblocks, ?_, ?_,
    ?_, write_ne_eagain sock hu hfd hr⟩
  · rintro ref rfl
    rw [pollOne_file sides hu hfd]
    exact ⟨fun _ => by decide, fun _ => by decide⟩
  · rintro e rfl
    exact pollOne_eventFd sides hu hfd m.poll
  · rintro ref rfl
    exact file_blocks_iff sock hfd b

end

-- ---------------------------------------------------------------------------
-- An empty event counter
-- ---------------------------------------------------------------------------

def emptyCounter : World where
  kernel := { Kernel.new [] [] { root := "/", cwd := "/" } (Vector.replicate 32 0) with
    memory := some (.owned .zeroPage)
    fds := (freshFds.insert (.eventFd { counter := 0, notify := 4, nonblock := true })).2 }
  fs := { contents := fun _ => none }

theorem zeroPage_eight : ∃ bytes, guestSlice (some (.owned .zeroPage)) 0 8 = .ok bytes :=
  ⟨_, guestSlice_of_load (LinearMemory.zeroPage_load (by decide)) (le_refl 8)⟩

def eightBytes : ReadBuffer emptyCounter.kernel.memory := ⟨0, 8, Int.le_refl 8, zeroPage_eight⟩

theorem emptyCounter_bound :
    emptyCounter.kernel.fds.table.get? 3 = some (.eventFd { counter := 0, notify := 4, nonblock := true }) := rfl

theorem emptyCounter_blocks (sock : SocketCalls) : WouldBlock sock emptyCounter 3 eightBytes := by
  left
  rw [read_of_readFrom sock (u32Fd_toNat 3) emptyCounter_bound eightBytes rfl rfl]
  rfl

theorem readiness_reported_counter :
    Reports noSockets emptyCounter 3 (.eventFd { counter := 0, notify := 4, nonblock := true })
      ⟨true, true⟩ (WouldBlock noSockets emptyCounter 3 eightBytes)
      (pollOne emptyCounter.kernel (fun _ => default) (3 : UInt32).toNat (Interest.poll ⟨true, true⟩))
      (computeRevents emptyCounter.kernel (fun _ => default) 3 (Interest.epoll ⟨true, true⟩)) :=
  readiness_reported noSockets emptyCounter (fun _ => default) 3 _ emptyCounter_bound trivial ⟨true, true⟩ eightBytes

/-- An empty counter is reported readable, and a read of it would block. -/
theorem readable_would_block :
    ¬ (computeRevents emptyCounter.kernel (fun _ => default) 3 EPOLLIN &&& EPOLLIN ≠ 0 ↔
      EPOLLIN &&& EPOLLIN ≠ 0 ∧ ¬ WouldBlock noSockets emptyCounter 3 eightBytes) := by
  intro h
  exact (h.mp (by decide)).2 (emptyCounter_blocks noSockets)

end EdgeLibos.Sys
