import EdgeLibos.Sys.File

/-!
# Descriptors that keep to themselves

An abstract machine in which every descriptor owns what a call on it can see: a
read end its bytes, a file its offsets, an event counter its count. A call
changes the view of its own descriptor and no other. A kernel whose descriptors
share nothing that shows runs as this machine does.
-/

namespace EdgeLibos.Sys

open Errno Lib

inductive View
  | reader (buf : List UInt8) (closed : Bool)
  | writer
  | file (fp : FilePos)
  | eventFd (counter : UInt64) (nonblock : Bool)
  | other

namespace View

/-- Whether a pipe is non-blocking changes no result: an empty one gives
`EAGAIN` either way. -/
def read (fs : HostFs) (len : Nat) : View → Outcome × View
  | .reader buf closed =>
    let (out, p) := Pipe.read { buf, closed, nonblock := false } len
    (out, .reader p.buf p.closed)
  | .file fp =>
    let (out, fp) := fp.read fs len
    (out, .file fp)
  | .eventFd counter nonblock =>
    let (out, e) := EventFdInner.read { counter, notify := 0, nonblock } len
    (out, .eventFd e.counter e.nonblock)
  | .writer => (.ret (-EBADF), .writer)
  | .other => (.ret (-EBADF), .other)

def write (fs : HostFs) (bytes : List UInt8) : View → Int × View × HostFs
  | .writer => (bytes.length, .writer, fs)
  | .file fp =>
    let (n, fp, fs) := fp.write fs bytes
    (n, .file fp, fs)
  | .eventFd counter nonblock =>
    let (n, e) := EventFdInner.write { counter, notify := 0, nonblock } bytes
    (n, .eventFd e.counter e.nonblock, fs)
  | .reader buf closed => (-EBADF, .reader buf closed, fs)
  | .other => (-EBADF, .other, fs)

def lseek (fs : HostFs) (offset whence : Int) : View → Int × View
  | .file fp =>
    let (n, fp) := fp.lseek fs offset whence
    (n, .file fp)
  | v => (-ESPIPE, v)

end View

@[ext] structure Private where
  views : UInt32 → Option View
  memory : Option MemoryKind
  fs : HostFs

namespace Private

def set (s : Private) (fd : UInt32) (v : View) : Private :=
  { s with views := Function.update s.views fd (some v) }

def read (s : Private) (fd buf len : Int) : Int × Private :=
  match u32Fd fd with
  | none => (-EBADF, s)
  | some f =>
    match guestSlice s.memory buf len with
    | .error e => (e, s)
    | .ok _ =>
      if len = 0 then (0, s)
      else
        match s.views f with
        | none => (-EBADF, s)
        | some v =>
          let (out, v) := v.read s.fs len.toNat
          let (n, memory) := deliver s.memory buf len out
          (n, { s.set f v with memory })

def write (s : Private) (fd buf len : Int) : Int × Private :=
  match u32Fd fd with
  | none => (-EBADF, s)
  | some f =>
    match guestSlice s.memory buf len with
    | .error e => (e, s)
    | .ok bytes =>
      if bytes.length = 0 then (0, s)
      else
        match s.views f with
        | none => (-EBADF, s)
        | some v =>
          let (n, v, fs) := v.write s.fs bytes
          (n, { s.set f v with fs })

def lseek (s : Private) (fd offset whence : Int) : Int × Private :=
  match u32Fd fd with
  | none => (-EBADF, s)
  | some f =>
    match s.views f with
    | none => (-EBADF, s)
    | some v =>
      let (n, v) := v.lseek s.fs offset whence
      (n, s.set f v)

def setfl (s : Private) (fd : Int) : Int × Private :=
  match u32Fd fd with
  | none => (-EBADF, s)
  | some f => (if (s.views f).isSome then 0 else -EBADF, s)

def step (s : Private) : Call → Int × Private
  | .store ptr bytes =>
    let (n, memory) := store s.memory ptr bytes
    (n, { s with memory })
  | .read fd buf len => s.read fd buf len
  | .write fd buf len => s.write fd buf len
  | .lseek fd offset whence => s.lseek fd offset whence
  | .setfl fd _ => s.setfl fd

def observe (s : Private) : List Call → List Int × Option MemoryKind × HostFs
  | [] => ([], s.memory, s.fs)
  | c :: rest =>
    let (value, s) := s.step c
    let (values, seen) := s.observe rest
    (value :: values, seen)

end Private

-- ---------------------------------------------------------------------------
-- What a descriptor shows
-- ---------------------------------------------------------------------------

def view (c : Cells) : Resource → View
  | .stdin r | .pipeRead r => .reader (c.pipes.read r.pipe).buf (c.pipes.read r.pipe).closed
  | .stdout _ | .stderr _ | .pipeWrite _ => .writer
  | .file ref => .file (c.files.read ref)
  | .eventFd e => .eventFd e.counter e.nonblock
  | .socket _ | .epoll _ => .other

def World.views (w : World) (fd : UInt32) : Option View :=
  (w.kernel.fds.table.get? fd).map (view w.kernel.cells)

def privately (w : World) : Private := { views := w.views, memory := w.kernel.memory, fs := w.fs }

/-- No two descriptors share what a call on one of them can change and a call
on the other can tell: two read ends may share a pipe as long as it is empty. -/
structure Apart (c : Cells) (t : FdTable) : Prop where
  ends : ∀ fd r fd' r', t.table.get? fd = some r → t.table.get? fd' = some r' →
    ∀ p ∈ r.reads?, p ∉ r'.writes?
  readers : ∀ fd r fd' r', t.table.get? fd = some r → t.table.get? fd' = some r' → fd ≠ fd' →
    ∀ p ∈ r.reads?, p ∈ r'.reads? → (c.pipes.read p).buf = []
  files : ∀ fd r fd' r', t.table.get? fd = some r → t.table.get? fd' = some r' → fd ≠ fd' →
    ∀ n ∈ r.file?, n ∉ r'.file?

theorem apart_iff {c : Cells} {t : FdTable} : Apart c t ↔
    ∀ p ∈ t.table.entries, ∀ q ∈ t.table.entries, (∀ n ∈ p.2.reads?, n ∉ q.2.writes?) ∧
      (p.1 ≠ q.1 → (∀ n ∈ p.2.reads?, n ∈ q.2.reads? → (c.pipes.read n).buf = []) ∧
        ∀ n ∈ p.2.file?, n ∉ q.2.file?) := by
  refine ⟨fun h p hp q hq => ?_, fun h => ⟨?_, ?_, ?_⟩⟩
  · have hp := HashMap.get?_eq_some_iff.mpr hp
    have hq := HashMap.get?_eq_some_iff.mpr hq
    exact ⟨h.ends _ _ _ _ hp hq, fun hne => ⟨h.readers _ _ _ _ hp hq hne, h.files _ _ _ _ hp hq hne⟩⟩
  · intro fd r fd' r' hr hr'
    exact (h _ (HashMap.get?_eq_some_iff.mp hr) _ (HashMap.get?_eq_some_iff.mp hr')).1
  · intro fd r fd' r' hr hr' hne
    exact ((h _ (HashMap.get?_eq_some_iff.mp hr) _ (HashMap.get?_eq_some_iff.mp hr')).2 hne).1
  · intro fd r fd' r' hr hr' hne
    exact ((h _ (HashMap.get?_eq_some_iff.mp hr) _ (HashMap.get?_eq_some_iff.mp hr')).2 hne).2

instance : Decidable (Apart c t) := decidable_of_iff _ apart_iff.symm

def NoSockets (t : FdTable) : Prop := ∀ fd r, t.table.get? fd = some r → r.socket? = none

section
variable {w : World} {fd : UInt32}

theorem privately_views (w : World) (fd : UInt32) :
    (privately w).views fd = (w.kernel.fds.table.get? fd).map (view w.kernel.cells) := rfl

theorem views_of_get (hr : w.kernel.fds.table.get? fd = some r) :
    (privately w).views fd = some (view w.kernel.cells r) := by rw [privately_views, hr, Option.map_some]

theorem views_eq {w' : World}
    (ht : w'.kernel.fds.table.get? fd = w.kernel.fds.table.get? fd)
    (h : ∀ r, w.kernel.fds.table.get? fd = some r → view w'.kernel.cells r = view w.kernel.cells r) :
    (privately w').views fd = (privately w).views fd := by
  rw [privately_views, privately_views, ht]
  exact Option.map_congr h

theorem Private.set_views (s : Private) (fd : UInt32) (v : View) (fd' : UInt32) :
    (s.set fd v).views fd' = if fd' = fd then some v else s.views fd' := by
  simp only [Private.set, Function.update_apply]

theorem set_self (h : s.views fd = some v) : Private.set s fd v = s := by
  unfold Private.set
  rw [← h, Function.update_eq_self]

theorem privately_eq_set {w' : World} (hm : w'.kernel.memory = w.kernel.memory) (hf : w'.fs = w.fs)
    (hfd : (privately w').views fd = some v) (hrest : ∀ fd' ≠ fd, (privately w').views fd' = (privately w).views fd') :
    privately w' = (privately w).set fd v := by
  refine Private.ext ?_ hm hf
  funext fd'
  rw [Private.set_views]
  split
  · rename_i h
    rw [h, hfd]
  · rename_i h
    exact hrest fd' h

-- ---------------------------------------------------------------------------
-- Pipes
-- ---------------------------------------------------------------------------

theorem view_setPipe (h : ref ∉ r.reads? ∨ p.buf = (w.kernel.cells.pipes.read ref).buf ∧
    p.closed = (w.kernel.cells.pipes.read ref).closed) :
    view (w.setPipe ref p).kernel.cells r = view w.kernel.cells r := by
  cases r with
  | stdin r | pipeRead r =>
    simp only [view, World.setPipe, Heap.read_write]
    split
    · rename_i heq
      subst heq
      rcases h with h | h
      · exact (h rfl).elim
      · rw [h.1, h.2]
    · rfl
  | _ => rfl

theorem privately_setPipe_reader (ha : Apart w.kernel.cells w.kernel.fds)
    (hr : w.kernel.fds.table.get? fd = some r) (href : ref ∈ r.reads?)
    (hbuf : (w.kernel.cells.pipes.read ref).buf = [] → p.buf = [])
    (hclosed : p.closed = (w.kernel.cells.pipes.read ref).closed) :
    privately (w.setPipe ref p) = (privately w).set fd (.reader p.buf p.closed) := by
  refine privately_eq_set rfl rfl ?_ ?_
  · rw [views_of_get (w := w.setPipe ref p) hr]
    cases r with
    | stdin r | pipeRead r =>
      obtain rfl := Option.some.inj href
      simp only [view, World.setPipe, Heap.read_write_same]
    | _ => cases href
  · intro fd' hne
    refine views_eq rfl fun r' hr' => view_setPipe ?_
    by_cases h : ref ∈ r'.reads?
    · -- Another read end on the pipe, which is then empty before and after.
      have hempty := ha.readers _ _ _ _ hr' hr hne ref h href
      exact .inr ⟨by rw [hbuf hempty, hempty], hclosed⟩
    · exact .inl h

theorem privately_setPipe_same (h : ∀ fd r, w.kernel.fds.table.get? fd = some r → ref ∉ r.reads? ∨
    p.buf = (w.kernel.cells.pipes.read ref).buf ∧
      p.closed = (w.kernel.cells.pipes.read ref).closed) :
    privately (w.setPipe ref p) = privately w := by
  refine Private.ext ?_ rfl rfl
  funext fd
  exact views_eq rfl fun r hr => view_setPipe (h fd r hr)

theorem apart_setPipe (ha : Apart w.kernel.cells w.kernel.fds)
    (hp : (∃ fd r, w.kernel.fds.table.get? fd = some r ∧ ref ∈ r.writes?) ∨
      ((w.kernel.cells.pipes.read ref).buf = [] → p.buf = [])) :
    Apart (w.setPipe ref p).kernel.cells (w.setPipe ref p).kernel.fds where
  ends := ha.ends
  readers fd r fd' r' hr hr' hne q hq hq' := by
    simp only [World.setPipe, Heap.read_write]
    split
    · rename_i heq
      subst heq
      rcases hp with ⟨fd₀, r₀, hr₀, hw⟩ | hp
      · exact (ha.ends _ _ _ _ hr hr₀ q hq hw).elim
      · exact hp (ha.readers _ _ _ _ hr hr' hne q hq hq')
    · exact ha.readers _ _ _ _ hr hr' hne q hq hq'
  files := ha.files

-- ---------------------------------------------------------------------------
-- Files and event counters
-- ---------------------------------------------------------------------------

theorem privately_setFile (ha : Apart w.kernel.cells w.kernel.fds)
    (hr : w.kernel.fds.table.get? fd = some (.file ref)) :
    privately (w.setFile ref fp) = (privately w).set fd (.file fp) := by
  refine privately_eq_set rfl rfl ?_ ?_
  · rw [views_of_get (w := w.setFile ref fp) hr]
    simp only [view, World.setFile, Heap.read_write_same]
  · intro fd' hne
    refine views_eq rfl fun r' hr' => ?_
    cases r' with
    | file ref' =>
      have href : ref' ≠ ref := fun h =>
        ha.files _ _ _ _ hr' hr hne ref' rfl (congrArg some h.symm)
      simp only [view, World.setFile, Heap.read_write_ne _ _ href]
    | _ => rfl

theorem apart_setFile (ha : Apart w.kernel.cells w.kernel.fds) :
    Apart (w.setFile ref fp).kernel.cells (w.setFile ref fp).kernel.fds :=
  ⟨ha.ends, ha.readers, ha.files⟩

theorem get?_setEventFd (w : World) (fd : UInt32) (e : EventFdInner) (fd' : UInt32) :
    (w.setEventFd fd e).kernel.fds.table.get? fd' =
      if fd' = fd then some (.eventFd e) else w.kernel.fds.table.get? fd' := by
  simp only [World.setEventFd, HashMap.get?_insert]

theorem privately_setEventFd (w : World) (fd : UInt32) (e : EventFdInner) :
    privately (w.setEventFd fd e) = (privately w).set fd (.eventFd e.counter e.nonblock) := by
  refine privately_eq_set rfl rfl ?_ ?_
  · rw [privately_views, get?_setEventFd, if_pos rfl]
    rfl
  · intro fd' hne
    exact views_eq (by rw [get?_setEventFd, if_neg hne]) fun _ _ => rfl

theorem apart_setEventFd (ha : Apart w.kernel.cells w.kernel.fds) (e : EventFdInner) :
    Apart (w.setEventFd fd e).kernel.cells (w.setEventFd fd e).kernel.fds := by
  -- What the table holds afterwards is the counter, or what was there before.
  have old {fd' r} (hr : (w.setEventFd fd e).kernel.fds.table.get? fd' = some r) :
      r = .eventFd e ∨ w.kernel.fds.table.get? fd' = some r := by
    rw [get?_setEventFd] at hr
    split at hr
    · exact .inl (Option.some.inj hr).symm
    · exact .inr hr
  refine ⟨?_, ?_, ?_⟩
  · intro fd₁ r₁ fd₂ r₂ h₁ h₂ p hp hp'
    obtain rfl | h₁ := old h₁
    · cases hp
    · obtain rfl | h₂ := old h₂
      · cases hp'
      · exact ha.ends _ _ _ _ h₁ h₂ p hp hp'
  · intro fd₁ r₁ fd₂ r₂ h₁ h₂ hne p hp hp'
    obtain rfl | h₁ := old h₁
    · cases hp
    · obtain rfl | h₂ := old h₂
      · cases hp'
      · exact ha.readers _ _ _ _ h₁ h₂ hne p hp hp'
  · intro fd₁ r₁ fd₂ r₂ h₁ h₂ hne n hn hn'
    obtain rfl | h₁ := old h₁
    · cases hn
    · obtain rfl | h₂ := old h₂
      · cases hn'
      · exact ha.files _ _ _ _ h₁ h₂ hne n hn hn'

theorem noSockets_setEventFd (hs : NoSockets w.kernel.fds) (e : EventFdInner) :
    NoSockets (w.setEventFd fd e).kernel.fds := by
  intro fd' r hr
  rw [get?_setEventFd] at hr
  split at hr
  · cases hr
    rfl
  · exact hs fd' r hr

-- ---------------------------------------------------------------------------
-- The kernel runs as the abstract machine does
-- ---------------------------------------------------------------------------

/-- The kernel shows this state, and its descriptors are apart. -/
structure Simulates (w : World) (s : Private) : Prop where
  eq : privately w = s
  sockets : NoSockets w.kernel.fds
  apart : Apart w.kernel.cells w.kernel.fds

namespace Simulates
variable {s : Private}

theorem setMemory (h : Simulates w s) (memory : Option MemoryKind) :
    Simulates { w with kernel.memory := memory } { s with memory } :=
  ⟨by rw [← h.eq]; rfl, h.sockets, h.apart⟩

theorem setFs (h : Simulates w s) (fs : HostFs) : Simulates { w with fs } { s with fs } :=
  ⟨by rw [← h.eq]; rfl, h.sockets, h.apart⟩

theorem setFile (h : Simulates w s) (hr : w.kernel.fds.table.get? fd = some (.file ref)) :
    Simulates (w.setFile ref fp) (s.set fd (.file fp)) :=
  ⟨by rw [privately_setFile h.apart hr, h.eq], h.sockets, apart_setFile h.apart⟩

theorem setEventFd (h : Simulates w s) (e : EventFdInner) :
    Simulates (w.setEventFd fd e) (s.set fd (.eventFd e.counter e.nonblock)) :=
  ⟨by rw [privately_setEventFd, h.eq], noSockets_setEventFd h.sockets e, apart_setEventFd h.apart e⟩

theorem setPipe_reader (h : Simulates w s) (hr : w.kernel.fds.table.get? fd = some r)
    (href : ref ∈ r.reads?) (hbuf : (w.kernel.cells.pipes.read ref).buf = [] → p.buf = [])
    (hclosed : p.closed = (w.kernel.cells.pipes.read ref).closed) :
    Simulates (w.setPipe ref p) (s.set fd (.reader p.buf p.closed)) :=
  ⟨by rw [privately_setPipe_reader h.apart hr href hbuf hclosed, h.eq], h.sockets,
    apart_setPipe h.apart (.inr hbuf)⟩

theorem setPipe_writer (h : Simulates w s) (hr : w.kernel.fds.table.get? fd = some r)
    (href : ref ∈ r.writes?) : Simulates (w.setPipe ref p) s := by
  refine ⟨?_, h.sockets, apart_setPipe h.apart (.inl ⟨fd, r, hr, href⟩)⟩
  rw [privately_setPipe_same fun fd' r' hr' => .inl fun hm => h.apart.ends _ _ _ _ hr' hr ref hm href, h.eq]

theorem setPipe_nonblock (h : Simulates w s) :
    Simulates (w.setPipe ref { w.kernel.cells.pipes.read ref with nonblock := on }) s :=
  ⟨(privately_setPipe_same (p := { w.kernel.cells.pipes.read ref with nonblock := on })
    fun _ _ _ => .inr ⟨rfl, rfl⟩).trans h.eq, h.sockets, apart_setPipe h.apart (.inr id)⟩

theorem views (h : Simulates w s) (fd : UInt32) :
    s.views fd = (w.kernel.fds.table.get? fd).map (view w.kernel.cells) := by
  rw [← h.eq, privately_views]

theorem memory_eq (h : Simulates w s) : s.memory = w.kernel.memory := by rw [← h.eq]; rfl

theorem fs_eq (h : Simulates w s) : s.fs = w.fs := by rw [← h.eq]; rfl

theorem set_view (h : Simulates w s) (hr : w.kernel.fds.table.get? fd = some r) :
    s.set fd (view w.kernel.cells r) = s :=
  set_self (by rw [h.views, hr, Option.map_some])

end Simulates

theorem read_pipe (p : Pipe) (len : Nat) :
    p.read len = ((Pipe.read { p with nonblock := false } len).1,
      { p with buf := p.buf.drop len }) := by
  simp only [Pipe.read]
  split_ifs <;> simp_all

theorem read_eventFd (e : EventFdInner) (len : Nat) :
    e.read len = ((EventFdInner.read { e with notify := 0 } len).1,
      { (EventFdInner.read { e with notify := 0 } len).2 with notify := e.notify }) := by
  unfold EventFdInner.read
  split_ifs <;> rfl

theorem write_eventFd (e : EventFdInner) (bytes : List UInt8) :
    e.write bytes = ((EventFdInner.write { e with notify := 0 } bytes).1,
      { (EventFdInner.write { e with notify := 0 } bytes).2 with notify := e.notify }) := by
  unfold EventFdInner.write
  split_ifs <;> rfl

variable {s : Private}

theorem readFrom_ok (h : Simulates w s) (hr : w.kernel.fds.table.get? fd = some r) (len : Nat) :
    ∃ w', readFrom w fd len r = some (((view w.kernel.cells r).read w.fs len).1, w') ∧
      Simulates w' (s.set fd ((view w.kernel.cells r).read w.fs len).2) := by
  cases r with
  | stdin r | pipeRead r =>
    refine ⟨_, by rw [readFrom, read_pipe]; rfl, ?_⟩
    simp only [view, View.read]
    rw [read_pipe]
    exact h.setPipe_reader hr rfl (by simp +contextual) rfl
  | file ref => exact ⟨_, rfl, h.setFile hr⟩
  | eventFd e =>
    refine ⟨_, by rw [readFrom, read_eventFd]; rfl, ?_⟩
    exact h.setEventFd _
  | socket ref => cases h.sockets _ _ hr
  | stdout p | stderr p | pipeWrite p | epoll e =>
    refine ⟨w, rfl, ?_⟩
    have hset := h.set_view hr
    simp only [view] at hset
    simpa only [view, View.read, hset] using h

theorem writeTo_ok (h : Simulates w s) (hr : w.kernel.fds.table.get? fd = some r)
    (bytes : List UInt8) :
    ∃ w', writeTo w fd bytes r = some (((view w.kernel.cells r).write w.fs bytes).1, w') ∧
      Simulates w' { s.set fd ((view w.kernel.cells r).write w.fs bytes).2.1 with
        fs := ((view w.kernel.cells r).write w.fs bytes).2.2 } := by
  cases r with
  | stdout p | stderr p | pipeWrite p =>
    refine ⟨_, rfl, ?_⟩
    have hset := h.set_view hr
    simp only [view] at hset
    simp only [view, View.write, hset, ← h.fs_eq]
    exact h.setPipe_writer hr rfl
  | file ref => exact ⟨_, rfl, (h.setFs _).setFile hr⟩
  | eventFd e =>
    refine ⟨_, by rw [writeTo, write_eventFd]; rfl, ?_⟩
    exact (h.setEventFd { (EventFdInner.write { e with notify := 0 } bytes).2 with
      notify := e.notify }).setFs w.fs
  | socket ref => cases h.sockets _ _ hr
  | stdin r | pipeRead r | epoll e =>
    refine ⟨w, rfl, ?_⟩
    have hset := h.set_view hr
    simp only [view] at hset
    simpa only [view, View.write, hset, ← h.fs_eq] using h

theorem get_eq (t : FdTable) (fd : UInt32) : t.get fd =
    match t.table.get? fd with
    | some r => .ok r
    | none => .error (-EBADF) := rfl

theorem read_ok (h : Simulates w s) (fd buf len : Int) :
    (read sock w fd buf len).1 = (s.read fd buf len).1 ∧
      Simulates (read sock w fd buf len).2 (s.read fd buf len).2 := by
  unfold read Private.read
  rw [h.memory_eq]
  cases u32Fd fd with
  | none => exact ⟨rfl, h⟩
  | some f =>
    cases guestSlice w.kernel.memory buf len with
    | error e => exact ⟨rfl, h⟩
    | ok _ =>
      by_cases hlen : len = 0
      · simp only [hlen, if_true]
        exact ⟨trivial, h⟩
      · simp only [hlen, if_false, h.views, get_eq]
        cases hr : w.kernel.fds.table.get? f with
        | none => exact ⟨rfl, h⟩
        | some r =>
          obtain ⟨w', hres, hw'⟩ := readFrom_ok h hr len.toNat
          have hm : w'.kernel.memory = w.kernel.memory := hw'.memory_eq.symm.trans h.memory_eq
          simp only [hres, Option.map_some, h.fs_eq, hm]
          exact ⟨trivial, hw'.setMemory _⟩

theorem write_ok (h : Simulates w s) (fd buf len : Int) :
    (write sock w fd buf len).1 = (s.write fd buf len).1 ∧
      Simulates (write sock w fd buf len).2 (s.write fd buf len).2 := by
  unfold write Private.write
  rw [h.memory_eq]
  cases u32Fd fd with
  | none => exact ⟨rfl, h⟩
  | some f =>
    cases guestSlice w.kernel.memory buf len with
    | error e => exact ⟨rfl, h⟩
    | ok bytes =>
      by_cases hlen : bytes.length = 0
      · simp only [hlen, if_true]
        exact ⟨trivial, h⟩
      · simp only [hlen, if_false, h.views, get_eq]
        cases hr : w.kernel.fds.table.get? f with
        | none => exact ⟨rfl, h⟩
        | some r =>
          obtain ⟨w', hres, hw'⟩ := writeTo_ok h hr bytes
          simp only [hres, Option.map_some, Option.getD_some, h.fs_eq]
          exact ⟨trivial, hw'⟩

theorem lseek_ok (h : Simulates w s) (fd offset whence : Int) :
    (lseek w fd offset whence).1 = (s.lseek fd offset whence).1 ∧
      Simulates (lseek w fd offset whence).2 (s.lseek fd offset whence).2 := by
  unfold lseek Private.lseek
  cases u32Fd fd with
  | none => exact ⟨rfl, h⟩
  | some f =>
    simp only [h.views, get_eq]
    cases hr : w.kernel.fds.table.get? f with
    | none => exact ⟨rfl, h⟩
    | some r =>
      cases r with
      | file ref =>
        simp only [Option.map_some, view, View.lseek, h.fs_eq]
        exact ⟨trivial, h.setFile hr⟩
      | _ =>
        have hset := h.set_view hr
        simp only [view] at hset
        simp only [Option.map_some, view, View.lseek, hset]
        exact ⟨trivial, h⟩

theorem setNonblock_ok (h : Simulates w s) (hr : w.kernel.fds.table.get? fd = some r) (on : Bool) :
    Simulates (setNonblock w on r) s := by
  cases r with
  | stdin _ | pipeRead _ | stdout _ | stderr _ | pipeWrite _ => exact h.setPipe_nonblock
  | socket ref => cases h.sockets _ _ hr
  | file _ | epoll _ | eventFd _ => exact h

theorem fcntlSetfl_ok (h : Simulates w s) (fd arg : Int) :
    (fcntlSetfl w fd arg).1 = (s.setfl fd).1 ∧ Simulates (fcntlSetfl w fd arg).2 (s.setfl fd).2 := by
  unfold fcntlSetfl Private.setfl
  cases u32Fd fd with
  | none => exact ⟨rfl, h⟩
  | some f =>
    simp only [h.views, get_eq]
    cases hr : w.kernel.fds.table.get? f with
    | none => exact ⟨rfl, h⟩
    | some r => exact ⟨rfl, setNonblock_ok h hr _⟩

theorem step_ok (sock : SocketCalls) (h : Simulates w s) (c : Call) :
    (step sock w c).1 = (s.step c).1 ∧ Simulates (step sock w c).2 (s.step c).2 := by
  cases c with
  | store ptr bytes =>
    simp only [step, Private.step, h.memory_eq]
    exact ⟨trivial, h.setMemory _⟩
  | read fd buf len => exact read_ok h fd buf len
  | write fd buf len => exact write_ok h fd buf len
  | lseek fd offset whence => exact lseek_ok h fd offset whence
  | setfl fd arg => exact fcntlSetfl_ok h fd arg

theorem observe_ok (h : Simulates w s) (calls : List Call) :
    observe sock w calls = s.observe calls := by
  induction calls generalizing w s with
  | nil => simp only [observe, run, Private.observe, h.memory_eq, h.fs_eq]
  | cons c rest ih =>
    obtain ⟨hvalue, hnext⟩ := step_ok sock h c
    have hrest := ih hnext
    simp only [observe, run, Private.observe] at hrest ⊢
    rw [hvalue, ← hrest]

end

end EdgeLibos.Sys
