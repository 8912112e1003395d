import EdgeLibos.Sys.Private

/-!
# What single calls tell

Values that one-byte reads and writes and seeks return, from the state of the
cell behind the descriptor. They are what tells two kernels apart: how many
one-byte reads succeed, and what `lseek(fd, 0, SEEK_CUR)` says.
-/

namespace EdgeLibos.Sys

open Errno Lib

variable {w : World} {fd : UInt32} {sock : SocketCalls} {fs : HostFs} {f : HostFile}

theorem run_cons (w : World) (c : Call) (rest : List Call) :
    (run sock w (c :: rest)).1 = (step sock w c).1 :: (run sock (step sock w c).2 rest).1 := by
  rw [run]

theorem run_nil (w : World) : (run sock w []).1 = [] := by rw [run]

def HasBuffer (memory : Option MemoryKind) : Prop := ∃ mem, memory = some (.owned mem) ∧ 0 < mem.size

theorem HasBuffer.slice (h : HasBuffer memory) : ∃ b, guestSlice memory 0 1 = .ok [b] := by
  obtain ⟨mem, rfl, hsize⟩ := h
  obtain ⟨b, rest, hdata⟩ := List.exists_cons_of_length_pos hsize
  have hsize : 1 ≤ mem.size := hsize
  exact ⟨b, by simp [guestSlice, ownedOf, hdata, hsize]⟩

theorem HasBuffer.copy (h : HasBuffer memory) (b : UInt8) :
    ∃ memory', guestCopy memory 0 1 [b] = .ok memory' ∧ HasBuffer memory' := by
  obtain ⟨mem, rfl, hsize⟩ := h
  have hsize' : 1 ≤ mem.size := hsize
  refine ⟨some (.owned (mem.write 0 [b] hsize')), by simp [guestCopy, ownedOf, hsize'], ?_⟩
  exact ⟨_, rfl, by simpa using hsize⟩

-- ---------------------------------------------------------------------------
-- Pipes
-- ---------------------------------------------------------------------------

structure Ready (w : World) (fd : UInt32) (p : Nat) (buf : List UInt8) : Prop where
  memory : HasBuffer w.kernel.memory
  get : ∃ r, w.kernel.fds.table.get? fd = some r ∧ p ∈ r.reads?
  holds : (w.kernel.cells.pipes.read p).buf = buf

theorem readFrom_reader (hr : p ∈ Resource.reads? r) : readFrom w fd len r =
    some (((w.kernel.cells.pipes.read p).read len).1,
      w.setPipe p ((w.kernel.cells.pipes.read p).read len).2) := by
  cases r with
  | stdin r | pipeRead r =>
    obtain rfl := Option.some.inj hr
    rfl
  | _ => cases hr

theorem writeTo_writer (hr : p ∈ Resource.writes? r) : writeTo w fd bytes r =
    some ((bytes.length : Int), w.setPipe p ((w.kernel.cells.pipes.read p).write bytes)) := by
  cases r with
  | stdout r | stderr r | pipeWrite r =>
    obtain rfl := Option.some.inj hr
    rfl
  | _ => cases hr

theorem read_one (hf : u32Fd a = some fd) (hb : HasBuffer w.kernel.memory)
    (hr : w.kernel.fds.table.get? fd = some r) (hres : readFrom w fd 1 r = some (out, w')) :
    read sock w a 0 1 = ((deliver w'.kernel.memory 0 1 out).1,
      { w' with kernel.memory := (deliver w'.kernel.memory 0 1 out).2 }) := by
  obtain ⟨b, hb⟩ := hb.slice
  simp only [read, hf, hb, FdTable.get_ok.mpr hr, one_ne_zero, if_false, Int.toNat_one, hres]

theorem write_one (sock : SocketCalls) (hf : u32Fd a = some fd) (hb : HasBuffer w.kernel.memory)
    (hr : w.kernel.fds.table.get? fd = some r) :
    ∃ b, ∀ res, writeTo w fd [b] r = some res → write sock w a 0 1 = res := by
  obtain ⟨b, hb⟩ := hb.slice
  refine ⟨b, fun res hres => ?_⟩
  simp only [write, hf, hb, FdTable.get_ok.mpr hr, List.length_singleton, one_ne_zero, if_false, hres,
    Option.getD_some]

theorem Ready.read_cons (sock : SocketCalls) (h : Ready w fd p (b :: buf)) :
    (read sock w fd.toNat 0 1).1 = 1 ∧ ∀ fd' p' buf', Ready w fd' p' buf' →
      Ready (read sock w fd.toNat 0 1).2 fd' p' (if p' = p then buf else buf') := by
  obtain ⟨r, hr, hp⟩ := h.get
  have hout : ((w.kernel.cells.pipes.read p).read 1) =
      (.bytes [b], { w.kernel.cells.pipes.read p with buf := buf }) := by
    simp [Pipe.read, h.holds]
  obtain ⟨memory', hcopy, hb'⟩ := h.memory.copy b
  rw [read_one (u32Fd_toNat fd) h.memory hr (readFrom_reader hp), hout]
  simp only [deliver, World.setPipe, hcopy]
  refine ⟨rfl, fun fd' p' buf' h' => ⟨hb', h'.get, ?_⟩⟩
  simp only [Heap.read_write]
  split
  · rfl
  · exact h'.holds

theorem Ready.read_nil (h : Ready w fd p []) : (read sock w fd.toNat 0 1).1 =
    if (w.kernel.cells.pipes.read p).closed then 0 else -EAGAIN := by
  obtain ⟨r, hr, hp⟩ := h.get
  rw [read_one (u32Fd_toNat fd) h.memory hr (readFrom_reader hp)]
  simp only [Pipe.read, h.holds, List.take_nil, List.isEmpty_nil, Bool.true_and]
  split_ifs <;> simp_all [deliver]

theorem Ready.reads_iff (sock : SocketCalls) (h : Ready w fd p buf) (n : Nat) :
    (run sock w (List.replicate n (.read fd.toNat 0 1))).1 = List.replicate n 1 ↔ n ≤ buf.length := by
  induction n generalizing w buf with
  | zero => simp [run]
  | succ n ih =>
    rw [List.replicate_succ, run_cons, List.replicate_succ, List.cons.injEq]
    cases buf with
    | nil =>
      have hnone : (read sock w fd.toNat 0 1).1 ≠ 1 := by
        rw [h.read_nil]
        split_ifs <;> decide
      simp [step, hnone]
    | cons b buf =>
      obtain ⟨hvalue, hnext⟩ := h.read_cons sock
      have hnext := hnext fd p _ h
      rw [if_pos rfl] at hnext
      simp only [step, hvalue, true_and, List.length_cons]
      rw [ih hnext]
      omega

theorem write_pipe (sock : SocketCalls) (hb : HasBuffer w.kernel.memory) (hr : w.kernel.fds.table.get? fd = some r)
    (hp : p ∈ r.writes?) :
    ∃ w', write sock w fd.toNat 0 1 = (1, w') ∧
      (∀ p', (w'.kernel.cells.pipes.read p').closed = (w.kernel.cells.pipes.read p').closed) ∧
      ∃ b, ∀ fd' p' buf, Ready w fd' p' buf →
        Ready w' fd' p' (if p' = p then buf ++ [b] else buf) := by
  obtain ⟨b, hwrite⟩ := write_one sock (u32Fd_toNat fd) hb hr
  refine ⟨_, hwrite _ (writeTo_writer hp), fun p' => ?_, b, fun fd' p' buf h' =>
    ⟨h'.memory, h'.get, ?_⟩⟩
  · simp only [World.setPipe, Heap.read_write, Pipe.write]
    split
    · rename_i heq
      rw [heq]
    · rfl
  · simp only [World.setPipe, Heap.read_write, Pipe.write, ← h'.holds]
    split
    · rename_i heq
      rw [heq]
    · rfl

/-- A byte written to an end of an empty pipe comes out at the other end of that pipe only. -/
theorem run_write_read (h : Ready w fd p []) (hclosed : (w.kernel.cells.pipes.read p).closed = false)
    (hr : w.kernel.fds.table.get? fd' = some r) (hq : q ∈ r.writes?) :
    (run sock w [.write fd'.toNat 0 1, .read fd.toNat 0 1]).1 = [1, if p = q then 1 else -EAGAIN] := by
  obtain ⟨w', hw', hkeep, b, hnext⟩ := write_pipe sock h.memory hr hq
  have hready := hnext fd p _ h
  simp only [run_cons, run_nil, step, hw']
  split_ifs at hready ⊢
  · rw [(hready.read_cons sock).1]
  · rw [hready.read_nil, hkeep, hclosed]
    rfl

-- ---------------------------------------------------------------------------
-- Files
-- ---------------------------------------------------------------------------

structure FileAt (w : World) (fd : UInt32) (n : Nat) (fp : FilePos) : Prop where
  get : w.kernel.fds.table.get? fd = some (.file n)
  holds : w.kernel.cells.files.read n = fp

namespace FileAt

theorem lseek_eq (h : FileAt w fd n fp) (hf : u32Fd a = some fd) (offset whence : Int) :
    lseek w a offset whence =
      ((fp.lseek w.fs offset whence).1, w.setFile n (fp.lseek w.fs offset whence).2) := by
  simp only [lseek, hf, FdTable.get_ok.mpr h.get, h.holds]

theorem write_eq (sock : SocketCalls) (h : FileAt w fd n fp) (hf : u32Fd a = some fd) (hb : HasBuffer w.kernel.memory) :
    ∃ b, write sock w a 0 1 = ((fp.write w.fs [b]).1,
      { w with fs := (fp.write w.fs [b]).2.2 }.setFile n (fp.write w.fs [b]).2.1) := by
  obtain ⟨b, hwrite⟩ := write_one sock hf hb h.get
  exact ⟨b, hwrite _ (by simp only [writeTo, h.holds])⟩

theorem read_eq (h : FileAt w fd n fp) (hf : u32Fd a = some fd) (hb : HasBuffer w.kernel.memory) :
    (read sock w a 0 1).1 = (deliver w.kernel.memory 0 1 (fp.read w.fs 1).1).1 := by
  rw [read_one hf hb h.get (by rw [readFrom, h.holds])]
  rfl

end FileAt

theorem seekTo_natCast (f : HostFile) (v : Nat) : f.seekTo v =
    if v < f.limit.first then some { f with cursor := v } else none := by
  unfold HostFile.seekTo
  congr 1
  exact propext ⟨fun h => Int.ofNat_lt.mp h.2, fun h => ⟨Int.natCast_nonneg v, Int.ofNat_lt.mpr h⟩⟩

theorem lseek_of_some {fp : FilePos} (hd : fp.isDir = false)
    (hfrom : fp.seekFrom fs offset whence = some target) (hseek : fp.inner.seek target = some g) :
    fp.lseek fs offset whence =
      ((g.cursor : Int), { fp with inner := g, pos := UInt64.ofNat g.cursor }) := by
  simp only [FilePos.lseek, hd, Bool.false_eq_true, if_false, hfrom, Option.bind_some, hseek]

theorem lseek_of_none {fp : FilePos} (hd : fp.isDir = false)
    (hfrom : fp.seekFrom fs offset whence = some target) (hseek : fp.inner.seek target = none) :
    fp.lseek fs offset whence = (-EINVAL, fp) := by
  simp only [FilePos.lseek, hd, Bool.false_eq_true, if_false, hfrom, Option.bind_some, hseek]

theorem seek_startAt (f : HostFile) (hv : v < f.limit.first) :
    f.seek (FilePos.startAt (v : Nat)) = some { f with cursor := v } := by
  have hlt : v < UInt64.size := Nat.lt_of_lt_of_le hv (Nat.le_trans f.limit.signed (by decide))
  rw [FilePos.startAt, max_eq_left (Int.natCast_nonneg v), Int.toNat_natCast, HostFile.seek,
    UInt64.toNat_ofNat_of_lt' hlt, seekTo_natCast, if_pos hv]

theorem lseek_set {fp : FilePos} (hd : fp.isDir = false) (hv : v < fp.inner.limit.first) :
    fp.lseek fs (v : Nat) FilePos.SEEK_SET = ((v : Int),
      { fp with inner := { fp.inner with cursor := v }, pos := UInt64.ofNat v }) :=
  lseek_of_some hd (if_pos rfl) (seek_startAt fp.inner hv)

theorem lseek_cur {fp : FilePos} (hd : fp.isDir = false) :
    (fp.lseek fs 0 FilePos.SEEK_CUR).1 =
      if fp.inner.cursor < fp.inner.limit.first then (fp.inner.cursor : Int) else -EINVAL := by
  have hfrom : fp.seekFrom fs 0 FilePos.SEEK_CUR = some (.current 0) := by
    rw [FilePos.seekFrom, if_neg (by decide), if_pos rfl]
  have hseek : fp.inner.seek (.current 0) =
      if fp.inner.cursor < fp.inner.limit.first then some fp.inner else none := by
    rw [HostFile.seek, Int.add_zero, seekTo_natCast]
  split_ifs at hseek ⊢
  · rw [lseek_of_some hd hfrom hseek]
  · rw [lseek_of_none hd hfrom hseek]

theorem guestCopy_error (h : guestCopy memory ptr len new = .error e) : e = -EFAULT ∨ e = -EINVAL := by
  unfold guestCopy ownedOf at h
  split_ifs at h
  · cases h
    exact .inl rfl
  · split at h
    · rename_i heq
      cases h
      split at heq <;> cases heq
      · exact .inl rfl
      · exact .inr rfl
    · split_ifs at h
      cases h
      exact .inl rfl

theorem deliver_ne (h : out ≠ .ret (-EACCES)) : (deliver memory buf len out).1 ≠ -EACCES := by
  cases out with
  | ret value => exact fun hv => h (congrArg Outcome.ret hv)
  | bytes tmp =>
    simp only [deliver]
    split
    · rename_i e he
      obtain rfl | rfl := guestCopy_error he <;> simp only [EFAULT, EINVAL, EACCES] <;> omega
    · simp only [EACCES]
      omega

theorem seek_getD (f : HostFile) (target : SeekFrom) :
    ∃ cursor, (f.seek target).getD f = { f with cursor } := by
  cases target <;>
  · simp only [HostFile.seek, HostFile.seekTo]
    split_ifs
    · exact ⟨_, rfl⟩
    · exact ⟨f.cursor, rfl⟩

theorem readLoop_readable (hc : fs.contents f.node = some data) (hr : f.readable = true) :
    ∃ got f', readLoop fs f 1 [] = (some got, f') := by
  rw [readLoop]
  simp only [HostFile.read, hc, hr, if_true]
  split_ifs with h₀ h₁ h₂
  · exact ⟨_, _, rfl⟩
  · exact ⟨_, _, rfl⟩
  · exact ⟨_, _, rfl⟩
  · simp only [List.nil_append] at h₂
    omega

theorem readLoop_unreadable (hr : f.readable = false) : readLoop fs f len got = (none, f) := by
  rw [readLoop]
  have hread : f.read fs CHUNK = none := by
    simp only [HostFile.read, hr, Bool.false_eq_true, if_false]
    split <;> rfl
  simp only [hread]

theorem read_eq_iff {fp : FilePos} (hc : fs.contents fp.inner.node = some data) :
    (fp.read fs 1).1 = .ret (-EACCES) ↔ fp.inner.readable = false := by
  obtain ⟨cursor, hseek⟩ := seek_getD fp.inner (.start fp.pos)
  rw [FilePos.read, hseek]
  cases hreadable : fp.inner.readable with
  | false => simp [readLoop_unreadable]
  | true =>
    obtain ⟨got, f', hloop⟩ := readLoop_readable (f := ⟨_, cursor, true, _, _, _⟩) hc rfl
    rw [hloop]
    simp only
    split_ifs <;> simp [EAGAIN, EACCES]

theorem write_some (hc : fs.contents f.node = some data) (hw : f.writable = true)
    (hlt : f.writeStart data + 1 < f.limit.first) (b : UInt8) :
    ∃ fs', f.write fs [b] = some (1, { f with cursor := f.writeStart data + 1 }, fs') := by
  have hn : min [b].length (f.limit.first - 1 - f.writeStart data) = 1 := by
    rw [List.length_singleton]
    omega
  simp only [HostFile.write, hc, hn, hw, ne_eq, one_ne_zero, not_false_eq_true, decide_true,
    Bool.and_self, if_true]
  exact ⟨_, rfl⟩

theorem write_none (hc : fs.contents f.node = some data)
    (h : ¬(f.writable = true ∧ f.writeStart data + 1 < f.limit.first)) (b : UInt8) :
    f.write fs [b] = none := by
  simp only [HostFile.write, hc]
  rw [if_neg]
  intro hif
  simp only [List.length_singleton, ne_eq, Bool.and_eq_true, decide_eq_true_eq] at hif
  exact h ⟨hif.1, by omega⟩

namespace FileAt

theorem seek (sock : SocketCalls) (h : FileAt w fd n fp) (hd : fp.isDir = false) (hv : v < fp.inner.limit.first) :
    ∃ w', (step sock w (.lseek fd.toNat (v : Nat) FilePos.SEEK_SET)).2 = w' ∧
      w'.kernel.memory = w.kernel.memory ∧ w'.fs = w.fs ∧
      ∀ fd' n' fp', FileAt w fd' n' fp' → FileAt w' fd' n'
        (if n' = n then { fp with inner := { fp.inner with cursor := v }, pos := UInt64.ofNat v }
          else fp') := by
  rw [step, h.lseek_eq (u32Fd_toNat fd), lseek_set hd hv]
  refine ⟨_, rfl, rfl, rfl, fun fd' n' fp' h' => ⟨h'.get, ?_⟩⟩
  rw [World.setFile, Heap.read_write, h'.holds]

theorem tell (h : FileAt w fd n fp) (hd : fp.isDir = false) :
    (step sock w (.lseek fd.toNat 0 FilePos.SEEK_CUR)).1 =
      if fp.inner.cursor < fp.inner.limit.first then (fp.inner.cursor : Int) else -EINVAL := by
  rw [step, h.lseek_eq (u32Fd_toNat fd), lseek_cur hd]

theorem tell_of_lt (h : FileAt w fd n fp) (hd : fp.isDir = false)
    (hlt : fp.inner.cursor < fp.inner.limit.first) :
    (step sock w (.lseek fd.toNat 0 FilePos.SEEK_CUR)).1 = fp.inner.cursor :=
  (h.tell hd).trans (if_pos hlt)

theorem get_byte (sock : SocketCalls) (h : FileAt w fd n fp) (hb : HasBuffer w.kernel.memory)
    (hc : w.fs.contents fp.inner.node = some data) :
    (step sock w (.read fd.toNat 0 1)).1 = -EACCES ↔ fp.inner.readable = false := by
  rw [step, h.read_eq (u32Fd_toNat fd) hb, ← read_eq_iff hc]
  refine ⟨fun hv => ?_, fun hout => by rw [hout, deliver]⟩
  by_contra hne
  exact deliver_ne hne hv

theorem put_byte (sock : SocketCalls) (h : FileAt w fd n fp) (hb : HasBuffer w.kernel.memory)
    (hc : w.fs.contents fp.inner.node = some data) (hw : fp.inner.writable = true)
    (hlt : fp.inner.writeStart data + 1 < fp.inner.limit.first) :
    (step sock w (.write fd.toNat 0 1)).1 = 1 ∧ ∃ pos, FileAt (step sock w (.write fd.toNat 0 1)).2 fd n
      { fp with inner := { fp.inner with cursor := fp.inner.writeStart data + 1 }, pos } := by
  obtain ⟨b, hwrite⟩ := h.write_eq sock (u32Fd_toNat fd) hb
  obtain ⟨fs', hput⟩ := write_some hc hw hlt b
  rw [step, hwrite, FilePos.write, hput]
  exact ⟨rfl, _, ⟨h.get, Heap.read_write_same ..⟩⟩

theorem put_byte_refused (h : FileAt w fd n fp) (hb : HasBuffer w.kernel.memory)
    (hc : w.fs.contents fp.inner.node = some data)
    (hw : ¬(fp.inner.writable = true ∧ fp.inner.writeStart data + 1 < fp.inner.limit.first)) :
    (step sock w (.write fd.toNat 0 1)).1 = - Errno.EIO := by
  obtain ⟨b, hwrite⟩ := h.write_eq sock (u32Fd_toNat fd) hb
  rw [step, hwrite, FilePos.write, write_none hc hw]

end FileAt

end EdgeLibos.Sys
