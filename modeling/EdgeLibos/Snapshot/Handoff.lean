import EdgeLibos.Lib.HostDisk
import EdgeLibos.Snapshot.AllocatorRestore
import EdgeLibos.Snapshot.Wire
import EdgeLibos.Sys.Signal

/-!
# A snapshot that the guest asks for

The `snapshot` system call writes the state of the kernel to a file of the host, from which
another process restores it. A kernel restored from that file goes on as the first would
have: the calls whose state the snapshot holds return the same and write the same.
-/

namespace EdgeLibos.Snapshot

open Errno Lib Sys
open HostTree (Disk ErrorKind Fault)
open Paths (bytesOf)

/-- `std::io::Error` of what the host file system reports. -/
def osError : ErrorKind → IoError
  | .notFound => .os 2
  | .alreadyExists => .os 17
  | .invalidInput => .other "file name contained an unexpected NUL byte"
  | .notADirectory => .os 20
  | .isADirectory => .os 21
  | .directoryNotEmpty => .os 39
  | .permissionDenied => .os 13
  | .filesystemLoop => .os 40

/-- `std::fs::write`; the host's disk may fail. -/
def fsWrite (d : Disk) (path : PathBuf) (bytes : List UInt8) (fault : Option (Fault IoError)) :
    Except IoError Unit × Disk :=
  match d.write (bytesOf path) bytes fault with
  | (.ok (), d) => (.ok (), d)
  | (.error (.inl e), d) => (.error (osError e), d)
  | (.error (.inr e), d) => (.error e, d)

def writeSnapshotFile (d : Disk) (path : PathBuf) (snap : KernelSnapshot) (fault : Option (Fault IoError)) :
    Except SnapshotError Unit × Disk :=
  match fsWrite d path (encodeSnapshot snap) fault with
  | (.ok (), d) => (.ok (), d)
  | (.error e, d) => (.error (.ioError e ("write snapshot to " ++ path)), d)

def readSnapshotFile (d : Disk) (path : PathBuf) : Except SnapshotError KernelSnapshot :=
  if !d.found (bytesOf path) then .error (.missingPath path)
  else
    match d.read (bytesOf path) with
    | .error e => .error (.ioError (osError e) ("read snapshot from " ++ path))
    | .ok bytes => decodeSnapshot bytes

def tryToSnapshot (k : Kernel) : KernelSnapshot :=
  match k.memory with
  | some kind => buildKernelSnapshot k (collectPages kind.mem.data)
  | none => buildKernelSnapshot k []

def ERANGE : Int := 34

def brk (k : Kernel) : Int × Kernel := (k.mm.highWater, k)

/-- The length that is returned is without the NUL. -/
def getcwd (k : Kernel) (bufPtr bufLen : Int) : Int × Kernel :=
  match usizeTryFrom bufLen with
  | none => (-EFAULT, k)
  | some bufLen =>
    let cwd := bytesOf k.vfs.cwd
    let needed := cwd.length + 1
    if bufLen < needed then (-ERANGE, k)
    else
      match guestCopy k.memory bufPtr needed (cwd ++ [0]) with
      | .error e => (e, k)
      | .ok memory => (cwd.length, { k with memory })

/-- The calls on what a snapshot holds whatever descriptors are open. -/
inductive KeptCall
  | signal (c : Signal.Call)
  | memory (c : MemCall)
  | brk
  | getcwd (bufPtr bufLen : Int)

def KeptCall.run (k : Kernel) : KeptCall → Int × Kernel
  | .signal c => Signal.step k c
  | .memory c => c.run k
  | .brk => Snapshot.brk k
  | .getcwd bufPtr bufLen => Snapshot.getcwd k bufPtr bufLen

/-- Kernels that these calls cannot tell apart. -/
structure Alike (k k' : Kernel) : Prop where
  memory : k'.memory = k.memory
  mm : k'.mm = k.mm
  vfs : k'.vfs = k.vfs
  comm : k'.comm = k.comm
  actions : ∀ signum, k'.signals.actions.get? signum = k.signals.actions.get? signum
  mask : k'.signals.mask = k.signals.mask
  altStack : k'.signals.altStack = k.signals.altStack

structure SameResult (r r' : Int × Kernel) : Prop where
  value : r'.1 = r.1
  alike : Alike r.2 r'.2

namespace Alike

variable {k k' : Kernel}

theorem fails (h : Alike k k') (e : Int) : SameResult (e, k) (e, k') := ⟨rfl, h⟩

theorem setMemory (h : Alike k k') (memory : Option MemoryKind) :
    Alike { k with memory } { k' with memory } :=
  ⟨rfl, h.mm, h.vfs, h.comm, h.actions, h.mask, h.altStack⟩

theorem setMm (h : Alike k k') (mm : Mm.LinearAllocator) : Alike { k with mm } { k' with mm } :=
  ⟨h.memory, rfl, h.vfs, h.comm, h.actions, h.mask, h.altStack⟩

theorem action (h : Alike k k') (signum : Int32) :
    Signal.action k'.signals signum = Signal.action k.signals signum := by
  simp only [Signal.action, h.actions]

theorem rtSigaction (h : Alike k k') (signum act oldact : Int) :
    SameResult (Signal.rtSigaction k signum act oldact) (Signal.rtSigaction k' signum act oldact) := by
  simp only [Signal.rtSigaction, h.memory, h.action]
  by_cases hsig : 1 ≤ Int32.ofInt signum ∧ Int32.ofInt signum ≤ 64
  · simp only [hsig, and_self, not_true_eq_false, if_false]
    cases Signal.tell k.memory oldact (Signal.writeAction k.memory oldact
        (Signal.action k.signals (Int32.ofInt signum))) with
    | error e => exact h.fails e
    | ok memory =>
      by_cases hact : act ≠ 0
      · simp only [hact, ne_eq, not_false_eq_true, if_true]
        cases guestSlice memory act Signal.SIGACTION_SIZE with
        | error e => exact (h.setMemory memory).fails e
        | ok bytes =>
          refine ⟨rfl, rfl, h.mm, h.vfs, h.comm, fun other => ?_, h.mask, h.altStack⟩
          simp only [Signal.setAction, HashMap.get?_insert, h.actions]
      · simp only [hact, if_false]
        exact (h.setMemory memory).fails 0
  · simp only [hsig, not_false_eq_true, if_true]
    exact h.fails _

theorem rtSigprocmask (h : Alike k k') (how set oldset : Int) :
    SameResult (Signal.rtSigprocmask k how set oldset) (Signal.rtSigprocmask k' how set oldset) := by
  simp only [Signal.rtSigprocmask, h.memory, h.mask]
  cases Signal.tell k.memory oldset (Signal.writeMask k.memory oldset k.signals.mask) with
  | error e => exact h.fails e
  | ok memory =>
    by_cases hset : set ≠ 0
    · simp only [hset, ne_eq, not_false_eq_true, if_true]
      cases guestSlice memory set 8 with
      | error e => exact (h.setMemory memory).fails e
      | ok bytes =>
        simp only
        cases Signal.maskBy how k.signals.mask (ofLe64 bytes) with
        | none => exact (h.setMemory memory).fails _
        | some mask => exact ⟨rfl, rfl, h.mm, h.vfs, h.comm, h.actions, rfl, h.altStack⟩
    · simp only [hset, if_false]
      exact (h.setMemory memory).fails 0

theorem sigaltstack (h : Alike k k') (ss oldSs : Int) :
    SameResult (Signal.sigaltstack k ss oldSs) (Signal.sigaltstack k' ss oldSs) := by
  simp only [Signal.sigaltstack, h.memory, h.altStack]
  cases Signal.tell k.memory oldSs (guestCopy k.memory oldSs Signal.SIGALTSTACK_SIZE
      (Signal.oldStack k.signals.altStack)) with
  | error e => exact h.fails e
  | ok memory =>
    by_cases hss : ss ≠ 0
    · simp only [hss, ne_eq, not_false_eq_true, if_true]
      cases guestSlice memory ss Signal.SIGALTSTACK_SIZE with
      | error e => exact (h.setMemory memory).fails e
      | ok bytes => exact ⟨rfl, rfl, h.mm, h.vfs, h.comm, h.actions, h.mask, rfl⟩
    · simp only [hss, if_false]
      exact (h.setMemory memory).fails 0

theorem prctl (h : Alike k k') (option arg2 : Int) :
    SameResult (Signal.prctl k option arg2) (Signal.prctl k' option arg2) := by
  simp only [Signal.prctl, h.memory, h.comm]
  split_ifs
  · exact h.fails _
  · cases guestSlice k.memory arg2 16 with
    | error e => exact h.fails e
    | ok bytes =>
      simp only
      exact ⟨rfl, rfl, h.mm, h.vfs, rfl, h.actions, h.mask, h.altStack⟩
  · exact h.fails _
  · cases guestCopy k.memory arg2 16 k.comm.toList with
    | error e => exact h.fails e
    | ok memory =>
      simp only
      exact ⟨rfl, rfl, h.mm, h.vfs, rfl, h.actions, h.mask, h.altStack⟩
  all_goals exact h.fails _

theorem signal (h : Alike k k') (c : Signal.Call) : SameResult (Signal.step k c) (Signal.step k' c) := by
  cases c with
  | store ptr bytes =>
    simp only [Signal.step, h.memory]
    exact (h.setMemory _).fails _
  | sigaction signum act oldact => exact h.rtSigaction signum act oldact
  | sigprocmask how set oldset => exact h.rtSigprocmask how set oldset
  | altstack ss oldSs => exact h.sigaltstack ss oldSs
  | control option arg2 => exact h.prctl option arg2
  | sigreturn => exact h.fails _

theorem mmap (h : Alike k k') (addr len prot flags fd off : Int) :
    SameResult (Sys.mmap k addr len prot flags fd off) (Sys.mmap k' addr len prot flags fd off) := by
  simp only [Sys.mmap, Kernel.ownedMemory, h.memory, h.mm]
  cases usizeTryFrom len with
  | none => exact h.fails _
  | some len =>
    by_cases hlen : len = 0
    · simp only [hlen, if_true]
      exact h.fails _
    · simp only [hlen, if_false]
      cases ownedOf k.memory with
      | error e => exact h.fails e
      | ok mem =>
        simp only
        generalize k.mm.mmap mem.size len (.ofInt 32 prot) (.ofInt 32 flags) fd off = first
        cases growFor first.1 mem with
        | none => exact ⟨rfl, rfl, rfl, h.vfs, h.comm, h.actions, h.mask, h.altStack⟩
        | some mem =>
          simp only [mmapPlace]
          generalize first.2.mmap mem.size len (.ofInt 32 prot) (.ofInt 32 flags) fd off = second
          obtain ⟨result, mm⟩ := second
          cases result <;> exact ((h.setMm mm).setMemory _).fails _

theorem munmap (h : Alike k k') (addr len : Int) : SameResult (Sys.munmap k addr len) (Sys.munmap k' addr len) := by
  simp only [Sys.munmap, h.mm]
  cases u32TryFrom addr with
  | none => exact h.fails _
  | some addr =>
    cases usizeTryFrom len with
    | none => exact h.fails _
    | some len => exact (h.setMm _).fails _

theorem mremap (h : Alike k k') (old oldLen newLen flags newAddr : Int) :
    SameResult (Sys.mremap k old oldLen newLen flags newAddr) (Sys.mremap k' old oldLen newLen flags newAddr) := by
  simp only [Sys.mremap, h.mm]
  cases u32TryFrom old with
  | none => exact h.fails _
  | some old =>
    cases usizeTryFrom oldLen with
    | none => exact h.fails _
    | some oldLen =>
      cases usizeTryFrom newLen with
      | none =>
        simp only
        split_ifs <;> exact h.fails _
      | some newLen =>
        simp only
        generalize k.mm.growInPlace old oldLen newLen = grown
        obtain ⟨result, mm⟩ := grown
        split_ifs
        all_goals first | exact h.fails _ | cases result <;> exact (h.setMm mm).fails _

theorem getcwd (h : Alike k k') (bufPtr bufLen : Int) :
    SameResult (Snapshot.getcwd k bufPtr bufLen) (Snapshot.getcwd k' bufPtr bufLen) := by
  simp only [Snapshot.getcwd, h.memory, h.vfs]
  cases usizeTryFrom bufLen with
  | none => exact h.fails _
  | some bufLen =>
    simp only
    split_ifs
    · exact h.fails _
    · cases guestCopy k.memory bufPtr ((bytesOf k.vfs.cwd).length + 1 : Nat) (bytesOf k.vfs.cwd ++ [0]) with
      | error e => exact h.fails e
      | ok memory => exact ⟨rfl, rfl, h.mm, rfl, h.comm, h.actions, h.mask, h.altStack⟩

theorem run (h : Alike k k') (c : KeptCall) : SameResult (c.run k) (c.run k') := by
  cases c with
  | signal c => exact h.signal c
  | memory c =>
    cases c with
    | mmap addr len prot flags fd off => exact h.mmap addr len prot flags fd off
    | munmap addr len => exact h.munmap addr len
    | mremap old oldLen newLen flags newAddr => exact h.mremap old oldLen newLen flags newAddr
  | brk => exact ⟨by simp only [KeptCall.run, Snapshot.brk, h.mm], h⟩
  | getcwd bufPtr bufLen => exact h.getcwd bufPtr bufLen

end Alike

def shows (k : Kernel) : List KeptCall → List (Int × Option MemoryKind)
  | [] => []
  | c :: rest => ((c.run k).1, (c.run k).2.memory) :: shows (c.run k).2 rest

theorem Alike.shows {k k' : Kernel} (h : Alike k k') (calls : List KeptCall) : shows k' calls = shows k calls := by
  induction calls generalizing k k' with
  | nil => rfl
  | cons c rest ih =>
    have hstep := h.run c
    simp only [Snapshot.shows, hstep.value, hstep.alike.memory, ih hstep.alike]

-- ---------------------------------------------------------------------------
-- A restored kernel is alike
-- ---------------------------------------------------------------------------

theorem get?_ofList_snapshot (s : SignalState) (signum : Int32) :
    (HashMap.ofList s.snapshot.actions).get? signum = s.actions.get? signum := by
  have hnodup : (s.snapshot.actions.map Prod.fst).Nodup := nodup_sortByKey_map s.actions.nodup
  ext a
  rw [HashMap.get?_eq_some_iff, HashMap.get?_eq_some_iff, (HashMap.ofList_perm hnodup).mem_iff]
  exact mem_sortByKey

theorem applySnapshotToMemory_maxPages {source target m : LinearMemory} (hp : snap.pages = collectPages source.data)
    (h : applySnapshotToMemory snap target = .ok m) : m.maxPages = target.maxPages := by
  simp only [applySnapshotToMemory] at h
  split at h
  · cases h
    rfl
  · obtain ⟨n, -, h⟩ := bind_ok h
    obtain ⟨m₁, hg, hc⟩ := bind_ok h
    rw [hp] at hc
    have hcopy := copyPages_ok (fun _ => length_of_mem_collectPages) (collectPages_nodup source) hc
    rw [hcopy.2.1, (growTo_ok hg).2.1]

theorem dispatchMemoryApply_owned {source target : LinearMemory} {k k' : Kernel}
    (hp : snap.pages = collectPages source.data) (hm : k.memory = some (.owned target))
    (h : dispatchMemoryApply snap k = .ok k') :
    ∃ m, k' = { k with memory := some (.owned m) } ∧ m.maxPages = target.maxPages ∧ Restored source target m := by
  unfold dispatchMemoryApply at h
  split at h
  · rename_i hempty
    cases h
    rw [hp] at hempty
    exact ⟨target, by rw [← hm], rfl, restored_of_isEmpty hempty _⟩
  · rw [hm] at h
    obtain ⟨m, hr, h⟩ := bind_ok h
    cases h
    exact ⟨m, rfl, applySnapshotToMemory_maxPages hp hr, applySnapshotToMemory_ok hp hr⟩

theorem eq_of_data {m m' : LinearMemory} (hdata : m.data = m'.data) (hmax : m.maxPages = m'.maxPages) : m = m' := by
  cases m
  cases m'
  simp_all

/-- A target that is no larger, with the same maximum, takes the memory as it was. -/
theorem Restored.eq {source target m : LinearMemory} (h : Restored source target m)
    (hex : RestoresExactly source target) (hle : target.pages ≤ source.pages)
    (hmax : m.maxPages = source.maxPages) : m = source := by
  have htake := h.take_eq_of_exact hex
  have hpages : m.pages = source.pages := by
    have hge := ((LinearMemory.take_eq_iff _ _).mp htake).1
    rcases h.pages_eq with hp | ⟨i, hi, hp⟩
    · omega
    · have hlt := hi.1
      omega
  refine eq_of_data ?_ hmax
  rw [← htake, List.take_of_length_le]
  rw [m.data_length, source.size_eq, hpages]

theorem alike_of_apply {source target : LinearMemory} {k t kr : Kernel} (hk : k.memory = some (.owned source))
    (ht : t.memory = some (.owned target)) (hex : RestoresExactly source target)
    (hle : target.pages ≤ source.pages) (hmax : target.maxPages = source.maxPages)
    (h : applySnapshot host (tryToSnapshot k) t = .ok kr) : Alike k kr := by
  have hsnap : tryToSnapshot k = buildKernelSnapshot k (collectPages source.data) := by
    simp only [tryToSnapshot, hk, MemoryKind.mem]
  rw [hsnap] at h
  obtain ⟨k₁, hk₁, h⟩ := bind_ok h
  obtain ⟨-, fds, cells, -, rfl⟩ := applySnapshotKernelState_eq_ok.mp hk₁
  have ht₁ : (restoredKernel (buildKernelSnapshot k (collectPages source.data)) t
      (rebuildFromSnapshot (buildKernelSnapshot k (collectPages source.data)).futexTable t.cells).1 fds cells).memory =
        some (.owned target) := ht
  obtain ⟨m, rfl, hm, hr⟩ := dispatchMemoryApply_owned rfl ht₁ h
  obtain rfl := hr.eq hex hle (hm.trans hmax)
  exact ⟨hk.symm, rfl, rfl, rfl, get?_ofList_snapshot k.signals, rfl, rfl⟩

-- ---------------------------------------------------------------------------
-- The file
-- ---------------------------------------------------------------------------

/-- The file at `path` holds the snapshot, it is all that changed on the disk, and whoever is
restored from it goes on as `k` does. -/
structure HandedOver (d d' : Disk) (k : Kernel) (n : Int) (path : PathBuf) : Prop where
  file : readSnapshotFile d' path = .ok (tryToSnapshot k)
  length : ∃ bytes, d'.read (bytesOf path) = .ok bytes ∧ n = bytes.length
  others : ∀ q i, d.fileAt q = .ok i → d'.fileAt (bytesOf path) ≠ .ok i → d'.read q = d.read q
  resumes : ∀ host source target snap t kr, readSnapshotFile d' path = .ok snap →
    k.memory = some (.owned source) → t.memory = some (.owned target) → RestoresExactly source target →
    target.pages ≤ source.pages → target.maxPages = source.maxPages → applySnapshot host snap t = .ok kr →
    ∀ calls, shows kr calls = shows k calls

theorem writeSnapshotFile_ok (h : writeSnapshotFile d path snap fault = (.ok (), d')) :
    d.write (bytesOf path) (encodeSnapshot snap) fault = (.ok (), d') := by
  unfold writeSnapshotFile fsWrite at h
  split at h
  · rename_i hfs
    split at hfs
    · rename_i hwrite
      cases hfs
      cases h
      exact hwrite
    · cases hfs
    · cases hfs
  · cases h

/-- What was written is read back. -/
theorem readSnapshotFile_of_write (henc : Encodable snap) (h : writeSnapshotFile d path snap fault = (.ok (), d')) :
    readSnapshotFile d' path = .ok snap := by
  obtain ⟨hfound, hread, -⟩ := Disk.write_ok (writeSnapshotFile_ok h)
  simp only [readSnapshotFile, hfound, hread, decodeSnapshot_encodeSnapshot henc]
  rfl

theorem handedOver (henc : Encodable (tryToSnapshot k))
    (h : writeSnapshotFile d path (tryToSnapshot k) fault = (.ok (), d')) :
    HandedOver d d' k (encodeSnapshot (tryToSnapshot k)).length path := by
  obtain ⟨-, hread, hothers⟩ := Disk.write_ok (writeSnapshotFile_ok h)
  have hfile := readSnapshotFile_of_write henc h
  refine ⟨hfile, ⟨_, hread, rfl⟩, hothers, ?_⟩
  intro host source target snap t kr hsnap hk ht hex hle hmax happly calls
  obtain rfl := Except.ok.inj (hfile.symm.trans hsnap)
  exact (alike_of_apply hk ht hex hle hmax happly).shows calls

open Postcard Codec

def rootDir : HostTree.Files := HashMap.ofList [([], .dir)]

theorem path_fits : 8 + [47, 115, (0 : UInt8)].length ≤ LinearMemory.zeroPage.size := by
  rw [LinearMemory.zeroPage_size]
  decide

def askingKernel : Kernel :=
  { Kernel.new [] [] { root := "/", cwd := "/" } (Vector.replicate 32 0) with
    memory := some (.owned (LinearMemory.zeroPage.write 8 [47, 115, 0] path_fits))
    fds := .empty }

def restOf (s : KernelSnapshot) : Wire.KernelRest :=
  (s.mm, s.vfs, s.clock, s.brk, s.args, s.env, s.rngSeed, s.signals, s.exitCode, s.comm, s.futexTable, s.cpuNs)

theorem asking_rest_valid : Wire.kernelRest.valid (restOf (buildKernelSnapshot askingKernel [])) := by
  have hsignals : Wire.signalState.valid { actions := [], mask := 0, altStack := none } :=
    ⟨⟨seq_nil_valid _, by simp, by simp⟩, leU64_valid _, by simp [option]⟩
  have hlow : Mm.LinearAllocator.new.highWater < 256 ^ 4 := by decide
  have hrunning : leI32.option.valid none := by simp [option]
  exact ⟨⟨seq_nil_valid _, hlow⟩, ⟨usize_valid (by decide), usize_valid (by decide)⟩, leU64_valid _,
    leU32_valid _, seq_nil_valid _, seq_nil_valid _, array_byte_valid _, hsignals, hrunning,
    array_byte_valid _, seq_nil_valid _, leU64_valid _⟩

end EdgeLibos.Snapshot
