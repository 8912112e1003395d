import EdgeLibos.Snapshot.Fixpoint
import EdgeLibos.Sys.Probe

/-!
# Descriptors that shared state before a restore

A restored kernel gives every descriptor cells of its own. It therefore runs as
the kernel it came from exactly when that kernel's descriptors were apart
already and each of its files was as a reopened file is.
-/

namespace EdgeLibos.Snapshot

open Lib Sys

-- ---------------------------------------------------------------------------
-- What a restored descriptor shows
-- ---------------------------------------------------------------------------

theorem mem_pipe?_of_reads? (h : n ∈ Resource.reads? r) : n ∈ r.pipe? := by
  cases r with
  | stdin p | pipeRead p => exact h
  | _ => cases h

theorem mem_pipe?_of_writes? (h : n ∈ Resource.writes? r) : n ∈ r.pipe? := by
  cases r with
  | stdout p | stderr p | pipeWrite p => exact h
  | _ => cases h

theorem not_mem_writes?_of_reads? (h : n ∈ Resource.reads? r) : n ∉ r.writes? := by
  cases r with
  | stdin p | pipeRead p => exact Option.not_mem_none n
  | _ => cases h

theorem apart_of_madeAll {t : FdTable} (hall : MadeAll host c es news c')
    (hperm : t.table.entries.Perm news) : Apart c' t := by
  have hmem {fd r} (hr : t.table.get? fd = some r) : (fd, r) ∈ news :=
    hperm.mem_iff.mp (HashMap.get?_eq_some_iff.mp hr)
  have hsymm : Std.Symm fun p q : UInt32 × Resource => p.2.Disjoint q.2 := ⟨fun _ _ h => h.symm⟩
  have hapart {fd r fd' r'} (hr : t.table.get? fd = some r) (hr' : t.table.get? fd' = some r')
      (hne : fd ≠ fd') : r.Disjoint r' :=
    hall.pairwise.forall (hmem hr) (hmem hr') fun h => hne (Prod.mk.inj h).1
  refine ⟨?_, ?_, ?_⟩
  · intro fd r fd' r' hr hr' p hp hp'
    by_cases hne : fd = fd'
    · subst hne
      obtain rfl := Option.some.inj (hr.symm.trans hr')
      exact not_mem_writes?_of_reads? hp hp'
    · exact (hapart hr hr' hne).pipe p (mem_pipe?_of_reads? hp) (mem_pipe?_of_writes? hp')
  · intro fd r fd' r' hr hr' hne p hp hp'
    exact absurd (mem_pipe?_of_reads? hp')
      ((hapart hr hr' hne).pipe p (mem_pipe?_of_reads? hp))
  · intro fd r fd' r' hr hr' hne n hn
    exact (hapart hr hr' hne).file n hn

def innerOf (c : Cells) : Resource → HostFile
  | .file n => (c.files.read n).inner
  | _ => default

def snapshotView (s : ResourceSnapshot) (inner : HostFile) : View :=
  match s.kind with
  | .stdin | .pipeRead =>
    .reader ((s.body.pipe.map (·.buf)).getD []) ((s.body.pipe.map (·.closed)).getD false)
  | .stdout | .stderr | .pipeWrite => .writer
  | .file => (s.body.file.map fun f => .file ⟨inner, f.pos, f.path, f.isDir, f.dirCache⟩).getD .other
  | .eventFd => (s.body.eventfd.map fun e => .eventFd e.counter e.nonblock).getD .other
  | .socket | .epoll => .other

theorem view_eq_snapshotView (c : Cells) (r : Resource) :
    view c r = snapshotView (resourceSnapshot c r) (innerOf c r) := by
  cases r <;> rfl

theorem get?_of_fdSnapshot_eq {t t' : FdTable} (h : fdSnapshot c t = fdSnapshot c' t')
    (hr : t.table.get? fd = some r) :
    ∃ r', t'.table.get? fd = some r' ∧ resourceSnapshot c' r' = resourceSnapshot c r := by
  have hmem : entryOf c (fd, r) ∈ (fdSnapshot c t).entries := by
    rw [fdSnapshot_entries, mem_sortByKey]
    exact List.mem_map_of_mem (HashMap.get?_eq_some_iff.mp hr)
  rw [h] at hmem
  obtain ⟨⟨fd', r'⟩, hp, heq⟩ := mem_fdSnapshot hmem
  obtain ⟨rfl, hs⟩ := FdEntrySnapshot.mk.inj heq
  exact ⟨r', HashMap.get?_eq_some_iff.mpr hp, hs.symm⟩

theorem file?_of_snapshot_eq (h : resourceSnapshot c' r = resourceSnapshot c (.file n)) :
    ∃ n', r = .file n' ∧ (c'.files.read n').snapshot = (c.files.read n).snapshot := by
  cases r with
  | file n' => exact ⟨n', rfl, by simpa [resourceSnapshot, ResourceSnapshot.fromFile] using h⟩
  | _ => cases congrArg ResourceSnapshot.kind h

-- ---------------------------------------------------------------------------
-- The restored kernel
-- ---------------------------------------------------------------------------

/-- A file opened for reading and writing, as `apply_snapshot_kernel_state` opens it. -/
def openedAt (limit : OffsetLimit) (node cursor : Nat) : HostFile :=
  { node, limit, cursor, readable := true, writable := true, append := false }

def reopened (fp : FilePos) : FilePos := { fp with inner := openedAt fp.inner.limit fp.inner.node fp.pos.toNat }

/-- The paths that the files of `k` record name these files still, and they are regular. -/
def SameFiles (host : Host) (fs : HostFs) (k : Kernel) : Prop :=
  ∀ fd n, k.fds.table.get? fd = some (.file n) →
    (∃ data, fs.contents (k.cells.files.read n).inner.node = some data) ∧
    ∀ path f, (k.cells.files.read n).path = some path → host.openReadWrite fd path = .ok f →
      f = openedAt (k.cells.files.read n).inner.limit (k.cells.files.read n).inner.node 0

/-- The open file of every descriptor is as restoring makes it. -/
def FilesAsReopened (k : Kernel) : Prop :=
  ∀ fd n, k.fds.table.get? fd = some (.file n) →
    (k.cells.files.read n).inner = (reopened (k.cells.files.read n)).inner

structure RestoredFrom (host : Host) (k k' : Kernel) : Prop where
  apart : Apart k'.cells k'.fds
  snapshot : fdSnapshot k'.cells k'.fds = fdSnapshot k.cells k.fds
  files : ∀ fd n, k'.fds.table.get? fd = some (.file n) → Reopened host fd (k'.cells.files.read n)

theorem restored_of_apply (hk : ∀ p ∈ k.fds.table.entries, Restorable p.2)
    (h : applySnapshotKernelState host (buildKernelSnapshot k pages) target = .ok k') :
    RestoredFrom host k k' ∧ k'.memory = target.memory := by
  obtain ⟨-, fds, cells, hfds, rfl⟩ := applySnapshotKernelState_eq_ok.mp h
  obtain ⟨news, hall, hperm, hsnap⟩ := restoreFds_made hk hfds
  refine ⟨⟨apart_of_madeAll hall hperm, hsnap, ?_⟩, rfl⟩
  intro fd n hr
  exact hall.files _ (hperm.mem_iff.mp (HashMap.get?_eq_some_iff.mp hr)) n rfl

theorem noSockets_of_restorable {t : FdTable} (hk : ∀ p ∈ t.table.entries, Restorable p.2) :
    NoSockets t :=
  fun fd r hr => (hk (fd, r) (HashMap.get?_eq_some_iff.mp hr)).socket?_eq

namespace RestoredFrom

theorem noSockets (h : RestoredFrom host k k') (hk : NoSockets k.fds) : NoSockets k'.fds := by
  intro fd r' hr'
  obtain ⟨r, hr, hs⟩ := get?_of_fdSnapshot_eq h.snapshot hr'
  have hr := hk fd r hr
  cases r' with
  | socket ref =>
    cases r with
    | socket ref => cases hr
    | _ => cases congrArg ResourceSnapshot.kind hs
  | _ => rfl

/-- A file comes back at its offset, open for reading and writing. -/
theorem file (h : RestoredFrom host k k') (hf : SameFiles host fs k)
    (hr : k.fds.table.get? fd = some (.file n)) :
    ∃ n', k'.fds.table.get? fd = some (.file n') ∧
      k'.cells.files.read n' = reopened (k.cells.files.read n) ∧
      (k.cells.files.read n).isDir = false ∧
      (k.cells.files.read n).pos.toNat < (k.cells.files.read n).inner.limit.first := by
  obtain ⟨r', hr', hs⟩ := get?_of_fdSnapshot_eq h.snapshot.symm hr
  obtain ⟨n', rfl, hsnap⟩ := file?_of_snapshot_eq hs
  obtain ⟨hdir, hpos, path, f, hpath, hopen, hinner⟩ := h.files fd n' hr'
  simp only [FilePos.snapshot, FileSnapshot.mk.injEq] at hsnap
  obtain ⟨hpath', hpos', hdir', hcache⟩ := hsnap
  have hf := (hf fd n hr).2 path f (hpath'.symm.trans hpath) hopen
  have hlimit : (k'.cells.files.read n').inner.limit = (k.cells.files.read n).inner.limit := by
    rw [hinner, hf]
    rfl
  refine ⟨n', hr', ?_, hdir' ▸ hdir, hpos' ▸ hlimit ▸ hpos⟩
  refine FilePos.ext ?_ hpos' hpath' hdir' hcache
  rw [hinner, hf, hpos']
  rfl

theorem views_eq (h : RestoredFrom host k k') (hf : SameFiles host fs k) (hopen : FilesAsReopened k)
    (fd : UInt32) : World.views ⟨k', fs⟩ fd = World.views ⟨k, fs⟩ fd := by
  unfold World.views
  cases hr : k.fds.table.get? fd with
  | none =>
    cases hr' : k'.fds.table.get? fd with
    | none => rfl
    | some r' =>
      obtain ⟨r, hr₁, -⟩ := get?_of_fdSnapshot_eq h.snapshot hr'
      cases hr.symm.trans hr₁
  | some r =>
    obtain ⟨r', hr', hs⟩ := get?_of_fdSnapshot_eq h.snapshot.symm hr
    have hinner : innerOf k'.cells r' = innerOf k.cells r := by
      cases r with
      | file n =>
        obtain ⟨n', hr'', hfile, -⟩ := h.file hf hr
        cases hr'.symm.trans hr''
        simp only [innerOf, hfile]
        exact (hopen fd n hr).symm
      | _ =>
        cases r' with
        | file n' => cases congrArg ResourceSnapshot.kind hs
        | _ => rfl
    simp only [hr', Option.map_some, view_eq_snapshotView, hs, hinner]

theorem observe_eq (h : RestoredFrom host k k') (hk : NoSockets k.fds) (hm : k'.memory = k.memory)
    (hf : SameFiles host fs k) (ha : Apart k.cells k.fds) (hopen : FilesAsReopened k)
    (calls : List Call) : observe sock ⟨k', fs⟩ calls = observe sock ⟨k, fs⟩ calls := by
  have habs : privately ⟨k', fs⟩ = privately ⟨k, fs⟩ := by
    refine Private.ext ?_ hm rfl
    funext fd
    exact h.views_eq hf hopen fd
  rw [observe_ok ⟨habs, h.noSockets hk, h.apart⟩, observe_ok ⟨rfl, hk, ha⟩]

-- ---------------------------------------------------------------------------
-- Calls that tell a shared cell
-- ---------------------------------------------------------------------------

theorem reader (h : RestoredFrom host k k') (hr : k.fds.table.get? fd = some r) (hp : p ∈ r.reads?) :
    ∃ r' p', k'.fds.table.get? fd = some r' ∧ p' ∈ r'.reads? ∧
      (k'.cells.pipes.read p').buf = (k.cells.pipes.read p).buf ∧
      (k'.cells.pipes.read p').closed = (k.cells.pipes.read p).closed := by
  obtain ⟨r', hr', hs⟩ := get?_of_fdSnapshot_eq h.snapshot.symm hr
  have hview : snapshotView (resourceSnapshot k'.cells r') (innerOf k'.cells r') =
      snapshotView (resourceSnapshot k.cells r) (innerOf k'.cells r') := by rw [hs]
  cases r with
  | stdin r | pipeRead r =>
    obtain rfl := Option.some.inj hp
    cases r' with
    | stdin r' | pipeRead r' =>
      exact ⟨_, _, hr', rfl, View.reader.inj hview⟩
    | _ => cases congrArg ResourceSnapshot.kind hs
  | _ => cases hp

theorem writer (h : RestoredFrom host k k') (hr : k.fds.table.get? fd = some r) (hp : p ∈ r.writes?) :
    ∃ r' p', k'.fds.table.get? fd = some r' ∧ p' ∈ r'.writes? := by
  obtain ⟨r', hr', hs⟩ := get?_of_fdSnapshot_eq h.snapshot.symm hr
  cases r with
  | stdout r | stderr r | pipeWrite r =>
    cases r' with
    | stdout r' | stderr r' | pipeWrite r' => exact ⟨_, _, hr', rfl⟩
    | _ => cases congrArg ResourceSnapshot.kind hs
  | _ => cases hp

section
variable (h : RestoredFrom host k k') (hm : k'.memory = k.memory) (hb : HasBuffer k.memory)
  (hsame : ∀ calls, (run sock ⟨k', fs⟩ calls).1 = (run sock ⟨k, fs⟩ calls).1)
include h hm hb hsame

/-- A byte written to an end of the pipe is read at the other, before a restore only. -/
theorem ends_apart (hr : k.fds.table.get? fd = some r) (hr' : k.fds.table.get? fd' = some r')
    (hp : p ∈ r.reads?) : p ∉ r'.writes? := by
  intro hp'
  obtain ⟨s, q, hs, hq, hbuf, -⟩ := h.reader hr hp
  obtain ⟨s', q', hs', hq'⟩ := h.writer hr' hp'
  have hne : q ≠ q' := fun he => h.apart.ends _ _ _ _ hs hs' q hq (he ▸ hq')
  obtain ⟨w, hw, -, b, hnext⟩ := write_pipe sock (w := ⟨k, fs⟩) hb hr' hp'
  obtain ⟨w', hw', -, _, hnext'⟩ := write_pipe sock (w := ⟨k', fs⟩) (hm ▸ hb) hs' hq'
  have hready := hnext fd p _ ⟨hb, ⟨r, hr, hp⟩, rfl⟩
  have hready' := hnext' fd q _ ⟨hm ▸ hb, ⟨s, hs, hq⟩, hbuf⟩
  rw [if_pos rfl] at hready
  rw [if_neg hne] at hready'
  -- One more byte than the pipe held, read one at a time.
  have hvalues := hsame (.write fd'.toNat 0 1 ::
    List.replicate ((k.cells.pipes.read p).buf.length + 1) (.read fd.toNat 0 1))
  rw [run_cons, run_cons, step, step, hw, hw'] at hvalues
  have hreads := (List.cons.inj hvalues).2
  have hall := (hready.reads_iff sock ((k.cells.pipes.read p).buf.length + 1)).mpr (by simp)
  have hfew := (hready'.reads_iff sock _).mp (hreads.trans hall)
  omega

/-- A buffered byte is read once, after a restore once at each end. -/
theorem readers_apart (hr : k.fds.table.get? fd = some r) (hr' : k.fds.table.get? fd' = some r')
    (hfd : fd ≠ fd') (hp : p ∈ r.reads?) (hp' : p ∈ r'.reads?) :
    (k.cells.pipes.read p).buf = [] := by
  by_contra hbuf
  obtain ⟨b, buf, hcons⟩ := List.exists_cons_of_ne_nil hbuf
  obtain ⟨s, q, hs, hq, hbuf, -⟩ := h.reader hr hp
  obtain ⟨s', q', hs', hq', hbuf', -⟩ := h.reader hr' hp'
  have hready : Ready ⟨k, fs⟩ fd p (b :: buf) := ⟨hb, ⟨r, hr, hp⟩, hcons⟩
  have hready' : Ready ⟨k', fs⟩ fd q (b :: buf) := ⟨hm ▸ hb, ⟨s, hs, hq⟩, hbuf.trans hcons⟩
  have hne : q' ≠ q := fun he => by
    have := h.apart.readers _ _ _ _ hs' hs hfd.symm q' hq' (he ▸ hq)
    rw [hbuf', hcons] at this
    cases this
  have hnext := (hready.read_cons sock).2 fd' p _ ⟨hb, ⟨r', hr', hp'⟩, hcons⟩
  have hnext' := (hready'.read_cons sock).2 fd' q' _
    ⟨hm ▸ hb, ⟨s', hs', hq'⟩, hbuf'.trans hcons⟩
  rw [if_pos rfl] at hnext
  rw [if_neg hne] at hnext'
  have hvalues := hsame (.read fd.toNat 0 1 ::
    List.replicate (buf.length + 1) (.read fd'.toNat 0 1))
  rw [run_cons, run_cons] at hvalues
  have hreads := (List.cons.inj hvalues).2
  have hall := (hnext'.reads_iff sock (buf.length + 1)).mpr (by simp)
  have hfew := (hnext.reads_iff sock _).mp (hreads.symm.trans hall)
  omega

end

section
variable (h : RestoredFrom host k k') (hf : SameFiles host fs k)
  (hsame : ∀ calls, (run sock ⟨k', fs⟩ calls).1 = (run sock ⟨k, fs⟩ calls).1)
include h hf hsame

/-- A seek moves the offset of the other descriptor, before a restore only. -/
theorem files_apart (hr : k.fds.table.get? fd = some (.file n))
    (hr' : k.fds.table.get? fd' = some (.file n)) : fd = fd' := by
  by_contra hfd
  obtain ⟨n₁, hs, hfile, hdir, hpos⟩ := h.file hf hr
  obtain ⟨n₂, hs', hfile', -⟩ := h.file hf hr'
  have hne : n₂ ≠ n₁ := fun he =>
    h.apart.files _ _ _ _ hs' hs (Ne.symm hfd) n₂ rfl (congrArg some he.symm)
  -- An offset that the file is not at.
  obtain ⟨v, hv, hvne⟩ : ∃ v < (k.cells.files.read n).inner.limit.first, v ≠ (k.cells.files.read n).pos.toNat := by
    have hroom := (k.cells.files.read n).inner.limit.room
    by_cases hzero : (k.cells.files.read n).pos.toNat = 0
    · exact ⟨1, by omega, by omega⟩
    · exact ⟨0, by omega, by omega⟩
  have hat : FileAt ⟨k, fs⟩ fd n (k.cells.files.read n) := ⟨hr, rfl⟩
  have hat' : FileAt ⟨k', fs⟩ fd n₁ _ := ⟨hs, hfile⟩
  obtain ⟨w, hw, -, -, hmoved⟩ := hat.seek sock hdir hv
  obtain ⟨w', hw', -, -, hleft⟩ := hat'.seek sock hdir hv
  have hmoved := hmoved fd' n _ ⟨hr', rfl⟩
  have hleft := hleft fd' n₂ _ ⟨hs', hfile'⟩
  rw [if_pos rfl] at hmoved
  rw [if_neg hne] at hleft
  have hvalues := hsame [.lseek fd.toNat v FilePos.SEEK_SET, .lseek fd'.toNat 0 FilePos.SEEK_CUR]
  simp only [run_cons, run_nil, List.cons.injEq, and_true, hw, hw'] at hvalues
  have htell := hvalues.2
  rw [hleft.tell_of_lt hdir hpos, hmoved.tell_of_lt hdir hv, Int.natCast_inj] at htell
  exact hvne htell.symm

theorem cursor_eq (hr : k.fds.table.get? fd = some (.file n)) :
    (k.cells.files.read n).inner.cursor = (k.cells.files.read n).pos.toNat := by
  obtain ⟨n', hs, hfile, hdir, hpos⟩ := h.file hf hr
  have hat : FileAt ⟨k, fs⟩ fd n (k.cells.files.read n) := ⟨hr, rfl⟩
  have hat' : FileAt ⟨k', fs⟩ fd n' _ := ⟨hs, hfile⟩
  have hvalues := hsame [.lseek fd.toNat 0 FilePos.SEEK_CUR]
  simp only [run_cons, run_nil, List.cons.injEq, and_true, hat.tell hdir] at hvalues
  rw [hat'.tell_of_lt hdir hpos] at hvalues
  split_ifs at hvalues
  · exact (Int.natCast_inj.mp hvalues).symm
  · simp only [Errno.EINVAL] at hvalues
    omega

variable (hm : k'.memory = k.memory) (hb : HasBuffer k.memory)
include hm hb

theorem readable (hr : k.fds.table.get? fd = some (.file n)) :
    (k.cells.files.read n).inner.readable = true := by
  obtain ⟨data, hdata⟩ := (hf fd n hr).1
  obtain ⟨n', hs, hfile, -⟩ := h.file hf hr
  have hat : FileAt ⟨k, fs⟩ fd n (k.cells.files.read n) := ⟨hr, rfl⟩
  have hat' : FileAt ⟨k', fs⟩ fd n' _ := ⟨hs, hfile⟩
  have hvalue := hsame [.read fd.toNat 0 1]
  simp only [run_cons, run_nil, List.cons.injEq, and_true] at hvalue
  by_contra hno
  have hrefused := (hat.get_byte sock hb hdata).mpr (Bool.eq_false_iff.mpr hno)
  have := (hat'.get_byte sock (hm ▸ hb) hdata).mp (hvalue.trans hrefused)
  cases this

theorem put_at (hr : k.fds.table.get? fd = some (.file n)) (hv : v + 1 < (k.cells.files.read n).inner.limit.first) :
    ∃ w, FileAt w fd n { k.cells.files.read n with
        inner := { (k.cells.files.read n).inner with cursor := v }, pos := UInt64.ofNat v } ∧
      HasBuffer w.kernel.memory ∧ w.fs = fs ∧ (step sock w (.write fd.toNat 0 1)).1 = 1 ∧
      (step sock (step sock w (.write fd.toNat 0 1)).2 (.lseek fd.toNat 0 FilePos.SEEK_CUR)).1 =
        (v + 1 : Nat) := by
  obtain ⟨data, hdata⟩ := (hf fd n hr).1
  obtain ⟨n', hs, hfile, hdir, -⟩ := h.file hf hr
  have hlt : v < (k.cells.files.read n).inner.limit.first := Nat.lt_of_succ_lt hv
  have hat : FileAt ⟨k, fs⟩ fd n (k.cells.files.read n) := ⟨hr, rfl⟩
  have hat' : FileAt ⟨k', fs⟩ fd n' _ := ⟨hs, hfile⟩
  obtain ⟨w, hw, hwm, hwf, hmoved⟩ := hat.seek sock hdir hlt
  obtain ⟨w', hw', hwm', hwf', hmoved'⟩ := hat'.seek sock hdir hlt
  have hmoved := hmoved fd n _ hat
  have hmoved' := hmoved' fd n' _ hat'
  rw [if_pos rfl] at hmoved hmoved'
  obtain ⟨hone, pos, hput⟩ := hmoved'.put_byte sock (by rw [hwm']; exact hm ▸ hb)
    (by rw [hwf']; exact hdata) rfl hv
  have hvalues := hsame [.lseek fd.toNat v FilePos.SEEK_SET, .write fd.toNat 0 1,
    .lseek fd.toNat 0 FilePos.SEEK_CUR]
  simp only [run_cons, run_nil, List.cons.injEq, and_true, hw, hw'] at hvalues
  obtain ⟨-, hwrite, htell⟩ := hvalues
  refine ⟨w, hmoved, by rw [hwm]; exact hb, hwf, hwrite.symm.trans hone, htell.symm.trans ?_⟩
  exact hput.tell_of_lt hdir hv

theorem writable (hr : k.fds.table.get? fd = some (.file n)) :
    (k.cells.files.read n).inner.writable = true := by
  obtain ⟨data, hdata⟩ := (hf fd n hr).1
  obtain ⟨w, hat, hwb, hwf, hone, -⟩ := h.put_at hf hsame hm hb (v := 0) hr (Nat.lt_of_succ_lt (k.cells.files.read n).inner.limit.room)
  by_contra hno
  rw [hat.put_byte_refused hwb (by rw [hwf]; exact hdata) fun hw => hno hw.1] at hone
  cases hone

theorem append_eq (hr : k.fds.table.get? fd = some (.file n)) :
    (k.cells.files.read n).inner.append = false := by
  obtain ⟨data, hdata⟩ := (hf fd n hr).1
  have hdir := (h.file hf hr).choose_spec.2.2.1
  -- An offset that is not the end of the file.
  obtain ⟨v, hv, hvne⟩ : ∃ v, v + 1 < (k.cells.files.read n).inner.limit.first ∧ v ≠ data.length := by
    have hroom := (k.cells.files.read n).inner.limit.room
    by_cases hzero : data.length = 0
    · exact ⟨1, by omega, by omega⟩
    · exact ⟨0, by omega, by omega⟩
  obtain ⟨w, hat, hwb, hwf, hone, htell⟩ := h.put_at hf hsame hm hb (v := v) hr hv
  by_contra happend
  have hstart : HostFile.writeStart { (k.cells.files.read n).inner with cursor := v } data =
      data.length := if_pos (Bool.not_eq_false _ ▸ happend)
  by_cases hroom : data.length + 1 < (k.cells.files.read n).inner.limit.first
  · obtain ⟨-, pos, hput⟩ := hat.put_byte sock hwb (by rw [hwf]; exact hdata)
      (h.writable hf hsame hm hb hr) (by rw [hstart]; exact hroom)
    simp only [hstart] at hput
    rw [hput.tell_of_lt hdir hroom, Int.natCast_inj] at htell
    exact hvne (Nat.succ.inj htell).symm
  · have hdata' : w.fs.contents (k.cells.files.read n).inner.node = some data := by rw [hwf, hdata]
    rw [hat.put_byte_refused hwb hdata' fun hw => hroom (by
      have := hw.2
      rwa [hstart] at this)] at hone
    cases hone

end

end RestoredFrom

-- ---------------------------------------------------------------------------
-- Sequences of calls after a restore
-- ---------------------------------------------------------------------------

/-- A restored kernel answers every sequence of calls as the frozen one would
have, exactly when no two descriptors of the frozen one shared a pipe or a file
offset in a way that shows, and each file was open for reading and writing, not
for appending, with its host cursor at its offset. -/
theorem restore_runs_same_iff (sock : SocketCalls) (host : Host) (fs : HostFs)
    (k target k' : Kernel) (pages : List MemoryPageSnapshot)
    (hk : ∀ p ∈ k.fds.table.entries, Restorable p.2) (hf : SameFiles host fs k)
    (hmem : target.memory = k.memory) (hb : HasBuffer k.memory)
    (happly : applySnapshotKernelState host (buildKernelSnapshot k pages) target = .ok k') :
    (∀ calls, observe sock ⟨k', fs⟩ calls = observe sock ⟨k, fs⟩ calls) ↔
      Apart k.cells k.fds ∧ FilesAsReopened k := by
  obtain ⟨h, hm⟩ := restored_of_apply hk happly
  have hm := hm.trans hmem
  refine ⟨fun hsame => ?_, fun ⟨ha, hopen⟩ calls =>
    h.observe_eq (noSockets_of_restorable hk) hm hf ha hopen calls⟩
  have hvalues (calls) : (run sock ⟨k', fs⟩ calls).1 = (run sock ⟨k, fs⟩ calls).1 :=
    congrArg (fun seen => seen.1) (hsame calls)
  refine ⟨⟨?_, ?_, ?_⟩, ?_⟩
  · intro fd r fd' r' hr hr' p hp
    exact h.ends_apart hm hb hvalues hr hr' hp
  · intro fd r fd' r' hr hr' hne p hp hp'
    exact h.readers_apart hm hb hvalues hr hr' hne hp hp'
  · intro fd r fd' r' hr hr' hne n hn hn'
    cases r with
    | file m =>
      obtain rfl := Option.some.inj hn
      cases r' with
      | file m' =>
        obtain rfl := Option.some.inj hn'
        exact hne (h.files_apart hf hvalues hr hr')
      | _ => cases hn'
    | _ => cases hn
  · intro fd n hr
    refine HostFile.ext rfl (h.cursor_eq hf hvalues hr) (h.readable hf hvalues hm hb hr)
      (h.writable hf hvalues hm hb hr) (h.append_eq hf hvalues hm hb hr) rfl

theorem one_page_le_top : 1 ≤ 65536 := by decide

def loggingKernel : Kernel :=
  let k := Kernel.new ["app"] [] { root := "/", cwd := "/" } (Vector.replicate 32 7)
  let (file, files) := k.cells.files.alloc
    { inner := openedAt .largest 7 2, pos := 2, path := some "/log", isDir := false, dirCache := none }
  let fds := { k.fds with table := k.fds.table.erase FdTable.STDIN }
  let (_, fds) := fds.insert (.file file)
  let (_, fds) := fds.insert (.eventFd { counter := 3, notify := 4, nonblock := true })
  { k with
    memory := some (.owned (.filled 0 1 1 (le_refl 1) one_page_le_top))
    fds
    cells := { k.cells with files } }

def loggingHost : Host := { refusingHost with openReadWrite _ _ := .ok (openedAt .largest 7 0) }

def loggingFs : HostFs := { contents := fun node => if node = 7 then some [1, 2, 3, 4] else none }

def noSocketCalls : SocketCalls where
  recvfrom w _ _ _ := (-Errno.ENOSYS, w)
  sendto w _ _ _ := (-Errno.ENOSYS, w)

theorem loggingKernel_file (hr : loggingKernel.fds.table.get? fd = some (.file n)) : n = 0 := by
  have hall : ∀ p ∈ loggingKernel.fds.table.entries, ∀ n ∈ p.2.file?, n = 0 := by decide
  exact hall _ (HashMap.get?_eq_some_iff.mp hr) n rfl

theorem hasBuffer_filled : HasBuffer (some (.owned (.filled 0 1 1 h ht))) :=
  ⟨_, rfl, by rw [LinearMemory.filled_size]; decide⟩

theorem restore_runs_same_iff_logging :
    ∃ k', applySnapshotKernelState loggingHost (buildKernelSnapshot loggingKernel [])
        { otherKernel with memory := loggingKernel.memory } = .ok k' ∧
      ∀ calls, observe noSocketCalls ⟨k', loggingFs⟩ calls =
        observe noSocketCalls ⟨loggingKernel, loggingFs⟩ calls := by
  refine ⟨_, rfl, (restore_runs_same_iff noSocketCalls loggingHost loggingFs loggingKernel
    { otherKernel with memory := loggingKernel.memory } _ [] (by decide) ?_ rfl hasBuffer_filled
    rfl).mpr ⟨by decide, ?_⟩⟩
  · intro fd n hr
    obtain rfl := loggingKernel_file hr
    refine ⟨⟨[1, 2, 3, 4], rfl⟩, ?_⟩
    rintro path f - ⟨⟩
    rfl
  · intro fd n hr
    obtain rfl := loggingKernel_file hr
    rfl

def pipeKernel : Kernel :=
  let k := Kernel.new ["app"] [] { root := "/", cwd := "/" } (Vector.replicate 32 7)
  let ((rd, wr), cells) := makePipe k.cells
  let (_, fds) := k.fds.insert (.pipeRead rd)
  let (_, fds) := fds.insert (.pipeWrite wr)
  { k with memory := some (.owned (.filled 0 1 1 (le_refl 1) one_page_le_top)), fds, cells }

def throughPipe : List Call := [.write 4 0 1, .read 3 0 1]

theorem pipe_lost_by_restore :
    ∃ k', applySnapshotKernelState refusingHost (buildKernelSnapshot pipeKernel [])
        { otherKernel with memory := pipeKernel.memory } = .ok k' ∧
      (run noSocketCalls ⟨pipeKernel, loggingFs⟩ throughPipe).1 = [1, 1] ∧
      (run noSocketCalls ⟨k', loggingFs⟩ throughPipe).1 = [1, -Errno.EAGAIN] := by
  obtain ⟨k', happly⟩ : ∃ k', applySnapshotKernelState refusingHost (buildKernelSnapshot pipeKernel [])
      { otherKernel with memory := pipeKernel.memory } = .ok k' := ⟨_, rfl⟩
  obtain ⟨h, hm⟩ := restored_of_apply (by decide) happly
  have hread : pipeKernel.fds.table.get? 3 = some (.pipeRead ⟨2, 4⟩) := by decide
  have hwrite : pipeKernel.fds.table.get? 4 = some (.pipeWrite ⟨2, 5⟩) := by decide
  obtain ⟨s, q, hs, hq, hbuf, hclosed⟩ := h.reader hread rfl
  obtain ⟨s', q', hs', hq'⟩ := h.writer hwrite rfl
  have hne : q ≠ q' := fun he => h.apart.ends _ _ _ _ hs hs' q hq (he ▸ hq')
  rw [show throughPipe = [.write (4 : UInt32).toNat 0 1, .read (3 : UInt32).toNat 0 1] from rfl]
  refine ⟨k', happly, ?_, ?_⟩
  · exact (run_write_read ⟨hasBuffer_filled, ⟨_, hread, rfl⟩, rfl⟩ rfl hwrite rfl).trans (by
      rw [if_pos rfl])
  · refine (run_write_read (p := q) ⟨?_, ⟨_, hs, hq⟩, hbuf⟩ hclosed hs' hq').trans (by
      rw [if_neg hne])
    rw [hm]
    exact hasBuffer_filled

end EdgeLibos.Snapshot
