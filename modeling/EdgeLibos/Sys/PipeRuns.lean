import EdgeLibos.Sys.Pipe

/-!
# Runs over a pipe

What goes into a pipe comes out in order, whatever descriptors, lengths and buffers the
calls use. The end of the pipe is never seen: closing the last write descriptor leaves
the flag of the pipe alone, and a read from the empty pipe asks to try again for ever.
-/

namespace EdgeLibos.Sys

open Errno Lib

variable {w w' : World} {k k' : Kernel}

-- ---------------------------------------------------------------------------
-- Runs
-- ---------------------------------------------------------------------------

def Flow.buffer (s : Flow) (ref : Nat) : List UInt8 := (s.world.pipe ref).buf

/-- What was delivered and what is in the pipe are what was accepted, and the pipe is not
closed. -/
structure FlowOk (ref : Nat) (s : Flow) : Prop where
  closed : (s.world.pipe ref).closed = false
  flow : s.delivered ++ s.buffer ref = s.accepted

structure Untouched (ref : Nat) (s s' : Flow) : Prop where
  accepted : s'.accepted = s.accepted
  delivered : s'.delivered = s.delivered
  buffer : s'.buffer ref = s.buffer ref

/-- A call keeps the flow, and one that fails does not touch it. -/
structure Moves (ref : Nat) (s : Flow) (n : Int) (s' : Flow) : Prop where
  ok : FlowOk ref s'
  refused : n < 0 → Untouched ref s s'

variable {s s' : Flow}

theorem Untouched.refl (s : Flow) : Untouched ref s s := ⟨rfl, rfl, rfl⟩

theorem FlowOk.stay (h : FlowOk ref s) (n : Int) : Moves ref s n s := ⟨h, fun _ => .refl s⟩

theorem FlowOk.same_pipe (h : FlowOk ref s) (n : Int) (hp : w'.pipe ref = s.world.pipe ref) :
    Moves ref s n { s with world := w' } := by
  have hbuf : (w'.pipe ref).buf = (s.world.pipe ref).buf := by rw [hp]
  refine ⟨⟨?_, ?_⟩, fun _ => ⟨rfl, rfl, hbuf⟩⟩
  · rw [hp]
    exact h.closed
  · show s.delivered ++ (w'.pipe ref).buf = s.accepted
    rw [hbuf]
    exact h.flow

theorem FlowOk.read (sock : SocketCalls) (h : FlowOk ref s) (hsock : s.world.socketAt fd = none)
    (buf len : Int) :
    Moves ref s (s.read sock ref fd buf len).1 (s.read sock ref fd buf len).2 ∧
      (s.read sock ref fd buf len).2.world.socketAt fd = none := by
  have hread := read_flow sock ref hsock buf len
  unfold Flow.read
  generalize Sys.read sock s.world fd buf len = res at hread ⊢
  obtain ⟨n, w'⟩ := res
  simp only at hread ⊢
  refine ⟨⟨⟨hread.closed.trans h.closed, ?_⟩, fun hn => ?_⟩, (hread.ends.socketAt fd).trans hsock⟩
  · show (s.delivered ++ _) ++ (w'.pipe ref).buf = s.accepted
    rw [List.append_assoc, ← hread.flow]
    exact h.flow
  · have hnew : bytesAt w'.kernel.memory buf n = [] := bytesAt_of_le (le_of_lt hn)
    have hflow := hread.flow
    rw [hnew, ite_self, List.nil_append] at hflow
    refine ⟨rfl, ?_, hflow.symm⟩
    simp only [hnew, ite_self, List.append_nil]

theorem FlowOk.readv (sock : SocketCalls) (h : FlowOk ref s) (hsock : s.world.socketAt fd = none)
    (iov count : Int) :
    Moves ref s (s.readv sock ref fd iov count).1 (s.readv sock ref fd iov count).2 := by
  unfold Flow.readv
  cases hio : iovecs s.world.kernel.memory iov count with
  | error e => exact h.stay e
  | ok entries =>
    refine ⟨?_, fun hn => ?_⟩
    · refine (vectored_invariant (P := fun s => FlowOk ref s ∧ s.world.socketAt fd = none)
        (fun s base len hs => ?_) ⟨h, hsock⟩ 0 entries).1
      exact ⟨(hs.1.read sock hs.2 base len).1.ok, (hs.1.read sock hs.2 base len).2⟩
    · obtain ⟨base, len, heq⟩ := vectored_error (iovecs_nonneg hio) s hn
      have hstep := (h.read sock hsock base len).1
      rw [← heq] at hstep
      exact hstep.refused hn

theorem FlowOk.accepts (h : FlowOk ref s) (hclosed : (w'.pipe ref).closed = (s.world.pipe ref).closed)
    (hbuf : (w'.pipe ref).buf = (s.world.pipe ref).buf ++
      if s.world.writes fd = some ref then bytes.take n.toNat else []) :
    Moves ref s n { s with world := w', accepted := s.accept ref fd n bytes } := by
  have haccept : s.accept ref fd n bytes =
      s.accepted ++ if s.world.writes fd = some ref then bytes.take n.toNat else [] := by
    unfold Flow.accept
    split
    · rfl
    · rw [List.append_nil]
  refine ⟨⟨hclosed.trans h.closed, ?_⟩, fun hn => ?_⟩
  · show s.delivered ++ (w'.pipe ref).buf = s.accept ref fd n bytes
    rw [hbuf, haccept, ← List.append_assoc]
    exact congrArg (· ++ _) h.flow
  · have hnone : n.toNat = 0 := Int.toNat_of_nonpos (le_of_lt hn)
    rw [hnone, List.take_zero, ite_self, List.append_nil] at hbuf haccept
    exact ⟨haccept, rfl, hbuf⟩

theorem FlowOk.write (sock : SocketCalls) (h : FlowOk ref s) (hsock : s.world.socketAt fd = none)
    (buf len : Int) : Moves ref s (s.write sock ref fd buf len).1 (s.write sock ref fd buf len).2 := by
  have hwrite := write_flow sock ref hsock buf len
  exact h.accepts hwrite.closed hwrite.flow

/-- A gathering write keeps the pipe open, and leaves it alone unless it is made to it. -/
theorem vectored_write_keeps (sock : SocketCalls) (ref : Nat) (hsock : w.socketAt fd = none)
    (entries : List (Int × Int)) :
    ((vectored (fun w base len => Sys.write sock w fd base len) w 0 entries).2.pipe ref).closed =
        (w.pipe ref).closed ∧
      (w.writes fd ≠ some ref →
        ((vectored (fun w base len => Sys.write sock w fd base len) w 0 entries).2.pipe ref).buf =
          (w.pipe ref).buf) := by
  refine (vectored_invariant
    (P := fun w' : World => w'.socketAt fd = none ∧ w'.writes fd = w.writes fd ∧
      (w'.pipe ref).closed = (w.pipe ref).closed ∧
      (w.writes fd ≠ some ref → (w'.pipe ref).buf = (w.pipe ref).buf))
    (fun w' base len hw' => ?_) ⟨hsock, rfl, rfl, fun _ => rfl⟩ 0 entries).2.2
  · obtain ⟨hsock', hwrites', hclosed', hbuf'⟩ := hw'
    have hstep := write_flow sock ref hsock' base len
    refine ⟨(hstep.ends.socketAt fd).trans hsock', (hstep.ends.writes_at fd).trans hwrites',
      hstep.closed.trans hclosed', fun hne => ?_⟩
    rw [hstep.flow, hwrites', if_neg hne, List.append_nil]
    exact hbuf' hne

theorem FlowOk.writev (sock : SocketCalls) (h : FlowOk ref s) (hsock : s.world.socketAt fd = none)
    (iov count : Int) :
    Moves ref s (s.writev sock ref fd iov count).1 (s.writev sock ref fd iov count).2 := by
  unfold Flow.writev Sys.writev
  cases hio : iovecs s.world.kernel.memory iov count with
  | error e =>
    refine h.accepts rfl ?_
    simp [payload, Except.toOption]
  | ok entries =>
    obtain ⟨hclosed, hother⟩ := vectored_write_keeps sock ref hsock entries
    refine h.accepts hclosed ?_
    by_cases hwrites : s.world.writes fd = some ref
    · obtain ⟨k, hbuf, hret⟩ := vectored_write_flow sock ref hwrites hsock (iovecs_nonneg hio) le_rfl
      rw [if_pos hwrites]
      rcases hret with hret | ⟨rfl, hneg⟩
      · rw [hret, Int.zero_add, Int.toNat_natCast]
        exact hbuf
      · rw [Int.toNat_of_nonpos (le_of_lt hneg)]
        exact hbuf
    · rw [if_neg hwrites, List.append_nil]
      exact hother hwrites

theorem FlowOk.step (sock : SocketCalls) (h : FlowOk ref s) (hoff : OffSockets s c)
    (hstep : s.step sock ref c = some (n, s')) : Moves ref s n s' := by
  have htable {t : FdTable} (m : Int) : Moves ref s m (s.withTable t) := h.same_pipe m rfl
  cases c with
  | store ptr bytes =>
    cases hstep
    exact h.same_pipe _ rfl
  | read fd buf len =>
    cases hstep
    exact (h.read sock (hoff fd rfl) buf len).1
  | write fd buf len =>
    cases hstep
    exact h.write sock (hoff fd rfl) buf len
  | readv fd iov count =>
    have hs : s.readv sock ref fd iov count = (n, s') := Option.some.inj hstep
    have hmoves := h.readv sock (hoff fd rfl) iov count
    rwa [hs] at hmoves
  | writev fd iov count =>
    have hs : s.writev sock ref fd iov count = (n, s') := Option.some.inj hstep
    have hmoves := h.writev sock (hoff fd rfl) iov count
    rwa [hs] at hmoves
  | dup oldfd | dup2 oldfd newfd | dup3 oldfd newfd flags | dupfd fd arg cloexec =>
    obtain ⟨⟨m, t⟩, -, hs⟩ := Option.map_eq_some_iff.mp hstep
    cases hs
    exact htable n
  | close fd =>
    cases hstep
    exact htable _

/-- What is kept beside the guest changes nothing: a scattering read is the one of the
source. -/
theorem Flow.readv_world (sock : SocketCalls) (ref : Nat) (s : Flow) (fd iov count : Int) :
    Sys.readv sock s.world fd iov count =
      ((s.readv sock ref fd iov count).1, (s.readv sock ref fd iov count).2.world) := by
  unfold Sys.readv Flow.readv
  cases iovecs s.world.kernel.memory iov count with
  | error e => rfl
  | ok entries => exact vectored_project Flow.world (fun _ _ _ => rfl) s 0 entries

theorem flowOk_pipe2 (h : pipe2 k fdarray flags = (0, k')) (fs : HostFs) :
    FlowOk k.cells.pipes.next (.start { kernel := k', fs }) := by
  have hnew : (makePipe k.cells).2.pipes.read k.cells.pipes.next =
      { buf := [], closed := false, nonblock := false } := Heap.read_alloc_new ..
  unfold pipe2 at h
  split at h
  · rename_i hs
    cases h
    exact absurd (guestSlice_error_neg hs) (lt_irrefl 0)
  · simp only at h
    split at h
    · rename_i he
      cases h
      exact absurd (guestCopy_error_neg he) (lt_irrefl 0)
    · cases h
      split
      · have hflag : ∀ p : Pipe, p.closed = false → p.buf = [] → ((makePipe k.cells).2.pipes.write
            k.cells.pipes.next { p with nonblock := true }).read k.cells.pipes.next =
            { buf := [], closed := false, nonblock := true } := by
          rintro ⟨buf, closed, nonblock⟩ rfl rfl
          exact Heap.read_write_same ..
        have hpipe := hflag _ (congrArg Pipe.closed hnew) (congrArg Pipe.buf hnew)
        exact ⟨congrArg Pipe.closed hpipe, congrArg Pipe.buf hpipe⟩
      · exact ⟨congrArg Pipe.closed hnew, congrArg Pipe.buf hnew⟩

theorem FlowOk.reaches (sock : SocketCalls) (hpipe : pipe2 k fdarray flags = (0, k'))
    (h : Reaches (Flow.next sock k.cells.pipes.next) OffSockets (.start { kernel := k', fs }) s) :
    FlowOk k.cells.pipes.next s := by
  refine h.invariant (flowOk_pipe2 hpipe fs) ?_
  intro s c s' hs hoff hnext
  obtain ⟨⟨n, u⟩, hstep, rfl⟩ := Option.map_eq_some_iff.mp hnext
  exact (hs.step sock hoff hstep).ok

/-- In every run of calls on descriptors, what reads from a pipe have delivered followed by
what is in it are the bytes that writes to it have accepted, and a call that fails accepts
and delivers nothing. -/
theorem pipe_fifo (sock : SocketCalls) (hpipe : pipe2 k fdarray flags = (0, k'))
    (h : Reaches (Flow.next sock k.cells.pipes.next) OffSockets (.start { kernel := k', fs }) s) :
    s.delivered ++ s.buffer k.cells.pipes.next = s.accepted ∧
      ∀ c n s', OffSockets s c → s.step sock k.cells.pipes.next c = some (n, s') → n < 0 →
        Untouched k.cells.pipes.next s s' := by
  have hok := FlowOk.reaches sock hpipe h
  refine ⟨hok.flow, fun c n s' hoff hstep hn => ?_⟩
  exact (hok.step sock hoff hstep).refused hn

-- ---------------------------------------------------------------------------
-- End of file
-- ---------------------------------------------------------------------------

/-- What a read of at least one byte from a pipe has to return: what is left, and 0 when
nothing is left and no write descriptor is open; never 0 while one is. -/
structure EofLaw (ref : Nat) (w : World) (buf len n : Int) (w' : World) : Prop where
  rest : ¬ w.WriterOpen ref → (w.pipe ref).buf ≠ [] →
    n = ((w.pipe ref).buf.take len.toNat).length ∧
      bytesAt w'.kernel.memory buf n = (w.pipe ref).buf.take len.toNat
  eof : ¬ w.WriterOpen ref → (w.pipe ref).buf = [] → n = 0
  early : w.WriterOpen ref → (w.pipe ref).buf = [] → n ≠ 0

theorem reads_cases (h : w.reads fd = some ref) :
    ∃ f r, u32Fd fd = some f ∧ w.kernel.fds.table.get? f = some r ∧ ref ∈ r.reads? := by
  obtain ⟨r, hres, hr⟩ := Option.bind_eq_some_iff.mp h
  obtain ⟨f, hf, hget⟩ := Option.bind_eq_some_iff.mp hres
  exact ⟨f, r, hf, hget, hr⟩

/-- In every run a read from a pipe obeys the law exactly when the pipe still holds
something or a write descriptor is open. -/
theorem pipe_eof_iff (sock : SocketCalls) (hpipe : pipe2 k fdarray flags = (0, k'))
    (h : Reaches (Flow.next sock k.cells.pipes.next) OffSockets (.start { kernel := k', fs }) s)
    (hfd : s.world.reads fd = some k.cells.pipes.next)
    (hbuf : guestSlice s.world.kernel.memory buf len = .ok old) (hlen : 0 < len) :
    EofLaw k.cells.pipes.next s.world buf len (Sys.read sock s.world fd buf len).1
        (Sys.read sock s.world fd buf len).2 ↔
      s.buffer k.cells.pipes.next ≠ [] ∨ s.world.WriterOpen k.cells.pipes.next := by
  have hok := FlowOk.reaches sock hpipe h
  obtain ⟨f, r, hf, hr, hp⟩ := reads_cases hfd
  by_cases hempty : (s.world.pipe k.cells.pipes.next).buf = []
  · have heagain : -EAGAIN ≠ 0 := by decide
    rw [read_empty_pipe sock hf hbuf hlen hr hp hempty, hok.closed, if_neg Bool.false_ne_true]
    constructor
    · intro hlaw
      by_contra hnot
      obtain ⟨-, hclosed⟩ := not_or.mp hnot
      exact heagain (hlaw.eof hclosed hempty)
    · intro hor
      have hopen : s.world.WriterOpen k.cells.pipes.next := hor.resolve_left (not_not_intro hempty)
      exact ⟨fun _ hne => absurd hempty hne, fun hclosed => absurd hopen hclosed, fun _ _ => heagain⟩
  · obtain ⟨w₁, hread, -, -, hbytes⟩ := read_full_pipe sock hf hbuf hlen hr hp hempty
    rw [hread]
    refine iff_of_true ?_ (.inl hempty)
    exact ⟨fun _ _ => ⟨rfl, hbytes⟩, fun _ hnil => absurd hnil hempty, fun _ hnil => absurd hnil hempty⟩

-- ---------------------------------------------------------------------------
-- A pipe in a fresh kernel
-- ---------------------------------------------------------------------------

theorem pipe2_succeeds (hs : guestSlice k.memory fdarray 8 = .ok old) :
    ∃ k', pipe2 k fdarray flags = (0, k') ∧
      k'.fds = ((k.fds.insert (.pipeRead (makePipe k.cells).1.1)).2.insert
        (.pipeWrite (makePipe k.cells).1.2)).2 ∧
      (HasBuffer k.memory → HasBuffer k'.memory) := by
  obtain ⟨mem, hmem, hptr, -, hfits, -⟩ := guestSlice_ok hs
  have hlength (a b : UInt32) : (le32 a ++ le32 b).length = 8 := by
    rw [List.length_append, le32_length, le32_length]
  have hcopy (a b : UInt32) : guestCopy k.memory fdarray 8 (le32 a ++ le32 b) =
      .ok (some (.owned (mem.write fdarray.toNat (le32 a ++ le32 b) (by rw [hlength]; exact hfits)))) := by
    rw [hmem, guestCopy, if_neg (by omega)]
    simp only [ownedOf]
    rw [dif_pos ⟨hfits, le_of_eq (hlength a b)⟩]
  simp only [pipe2, hs, hcopy]
  refine ⟨_, rfl, rfl, fun hb => ?_⟩
  obtain ⟨mem', hmem', hsize⟩ := hb
  rw [hmem] at hmem'
  cases hmem'
  exact ⟨_, rfl, by rw [LinearMemory.write_size]; exact hsize⟩

def pagedKernel : Kernel := freshStdio.world.kernel

def pipeFds : FdTable :=
  ((freshFds.insert (.pipeRead { pipe := 2, notify := 4 })).2.insert
    (.pipeWrite { pipe := 2, notify := 5 })).2

theorem pagedKernel_pipe2 :
    ∃ k', pipe2 pagedKernel 0 0 = (0, k') ∧ k'.fds = pipeFds ∧ HasBuffer k'.memory := by
  have hload : LinearMemory.zeroPage.load 0 8 = _ := LinearMemory.zeroPage_load (by decide)
  have hslice : guestSlice pagedKernel.memory 0 8 = .ok _ := guestSlice_of_load hload (le_refl 8)
  obtain ⟨k', hpipe, hfds, hbuffer⟩ := pipe2_succeeds hslice
  exact ⟨k', hpipe, hfds, hbuffer freshStdio_buffer⟩

abbrev fileless (k : Kernel) : World := { kernel := k, fs := { contents := fun _ => none } }

/-- One byte into the pipe and out again. -/
theorem pipe_fifo_one_byte :
    ∃ k' s, pipe2 pagedKernel 0 0 = (0, k') ∧
      runFrom (Flow.next noSockets 2) (.start (fileless k')) [.write 4 0 1, .read 3 0 1] = some s ∧
      s.delivered ++ s.buffer 2 = s.accepted ∧
      ∀ c n s', OffSockets s c → s.step noSockets 2 c = some (n, s') → n < 0 → Untouched 2 s s' := by
  obtain ⟨k', hpipe, hfds, -⟩ := pagedKernel_pipe2
  have hrun : runFrom (Flow.next noSockets 2) (.start (fileless k')) [.write 4 0 1, .read 3 0 1] = some _ :=
    (runFrom_cons rfl).trans (runFrom_cons rfl)
  have hsock4 : (Flow.start (fileless k')).world.socketAt 4 = none := by
    simp only [Flow.start, World.socketAt, World.resourceAt, hfds]
    decide
  have hends := (write_flow noSockets 2 hsock4 0 1).ends
  have hsock3 : ((Flow.start (fileless k')).write noSockets 2 4 0 1).2.world.socketAt 3 = none := by
    refine (hends.socketAt 3).trans ?_
    simp only [Flow.start, World.socketAt, World.resourceAt, hfds]
    decide
  have hmeets : RunMeets (Flow.next noSockets 2) OffSockets (.start (fileless k')) [.write 4 0 1, .read 3 0 1] := by
    refine ⟨fun fd hfd => Option.some.inj hfd ▸ hsock4, fun s hs => ?_⟩
    obtain rfl := Option.some.inj hs
    exact ⟨fun fd hfd => Option.some.inj hfd ▸ hsock3, fun _ _ => trivial⟩
  exact ⟨k', _, hpipe, hrun, pipe_fifo noSockets hpipe (Reaches.runFrom .start hmeets hrun)⟩

/-- While the write descriptor is open an empty pipe is not at its end. -/
theorem pipe_eof_writer_open :
    ∃ k', pipe2 pagedKernel 0 0 = (0, k') ∧ (fileless k').WriterOpen 2 ∧
      EofLaw 2 (fileless k') 0 1 (Sys.read noSockets (fileless k') 3 0 1).1
        (Sys.read noSockets (fileless k') 3 0 1).2 := by
  obtain ⟨k', hpipe, hfds, hbuffer⟩ := pagedKernel_pipe2
  obtain ⟨b, hslice⟩ := hbuffer.slice
  have hreads : (fileless k').reads 3 = some 2 := by
    simp only [World.reads, World.resourceAt, hfds]
    decide
  have hopen : (fileless k').WriterOpen 2 := ⟨4, .pipeWrite { pipe := 2, notify := 5 }, by rw [hfds]; decide, rfl⟩
  exact ⟨k', hpipe, hopen,
    (pipe_eof_iff noSockets hpipe .start hreads hslice one_pos).mpr (.inr hopen)⟩

/-- With the only write descriptor closed, a read from the empty pipe says to try again. -/
theorem pipe_eof_missed :
    ∃ k' s, pipe2 pagedKernel 0 0 = (0, k') ∧
      runFrom (Flow.next noSockets 2) (.start (fileless k')) [.close 4] = some s ∧
      s.world.reads 3 = some 2 ∧ ¬ s.world.WriterOpen 2 ∧ s.buffer 2 = [] ∧
      (Sys.read noSockets s.world 3 0 1).1 = -EAGAIN ∧
      ¬ EofLaw 2 s.world 0 1 (Sys.read noSockets s.world 3 0 1).1
        (Sys.read noSockets s.world 3 0 1).2 := by
  obtain ⟨k', hpipe, hfds, hbuffer⟩ := pagedKernel_pipe2
  obtain ⟨b, hslice⟩ := hbuffer.slice
  have hrun : runFrom (Flow.next noSockets 2) (.start (fileless k')) [.close 4] =
      some ((Flow.start (fileless k')).withTable (Sys.close pipeFds 4).2) := by
    rw [← hfds]
    exact runFrom_cons rfl
  have hok : FlowOk 2 ((Flow.start (fileless k')).withTable (Sys.close pipeFds 4).2) := by
    obtain ⟨hopen, hflow⟩ := flowOk_pipe2 hpipe { contents := fun _ => none }
    exact ⟨hopen, hflow⟩
  have hclosed : ¬ World.WriterOpen ((Flow.start (fileless k')).withTable (Sys.close pipeFds 4).2).world 2 := by
    rintro ⟨fd, r, hget, hwrites⟩
    have hall : ∀ e ∈ (Sys.close pipeFds 4).2.table.entries, e.2.writes? ≠ some 2 := by decide
    exact hall (fd, r) (HashMap.get?_eq_some_iff.mp hget) hwrites
  have hthree : (Sys.close pipeFds 4).2.table.get? 3 = some (.pipeRead { pipe := 2, notify := 4 }) := by
    decide
  have hread : Sys.read noSockets ((Flow.start (fileless k')).withTable (Sys.close pipeFds 4).2).world 3 0 1 = _ :=
    read_empty_pipe noSockets rfl hslice one_pos hthree rfl hok.flow
  rw [hok.closed, if_neg Bool.false_ne_true] at hread
  have hvalue := congrArg Prod.fst hread
  have hreads : World.reads ((Flow.start (fileless k')).withTable (Sys.close pipeFds 4).2).world 3 = _ :=
    reads_of_get rfl hthree
  refine ⟨k', _, hpipe, hrun, hreads, hclosed, hok.flow, hvalue, fun hlaw => ?_⟩
  have hagain : -EAGAIN = 0 := hvalue.symm.trans (hlaw.eof hclosed hok.flow)
  exact absurd hagain (by decide)

end EdgeLibos.Sys
