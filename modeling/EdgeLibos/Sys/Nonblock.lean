import EdgeLibos.Sys.Fcntl
import EdgeLibos.Sys.Pipe

/-!
# Setting `O_NONBLOCK`

`F_SETFL` sets the flag of the description behind a descriptor, and `F_GETFL` reports it
there and at every duplicate. Event counters keep the flag that `eventfd2` gave them:
`F_SETFL` accepts the request and drops it. No read waits, so one that finds a pipe empty
asks to try again whatever its flag is.
-/

namespace EdgeLibos

open Errno Lib

namespace Resource

/-- `F_SETFL` changes the flag: standard streams, pipe ends and sockets. -/
def settable : Resource → Bool
  | .file _ | .epoll _ | .eventFd _ => false
  | .stdin _ | .stdout _ | .stderr _ | .pipeRead _ | .pipeWrite _ | .socket _ => true

/-- The two refer to one pipe. -/
def SamePipe (r r' : Resource) : Prop := ∃ p, r.pipe? = some p ∧ r'.pipe? = some p

end Resource

namespace Sys

variable {w w' : World} {r r' : Resource}

def World.flag (w : World) : Resource → Option Bool
  | .stdin r | .pipeRead r => some (w.kernel.cells.pipes.read r.pipe).nonblock
  | .stdout p | .stderr p | .pipeWrite p => some (w.kernel.cells.pipes.read p.pipe).nonblock
  | .socket ref => some (w.kernel.cells.sockets.read ref).nonblock
  | .eventFd e => some e.nonblock
  | .file _ | .epoll _ => none

/-- `O_NONBLOCK` in what `F_GETFL` returns. -/
def reported (w : World) (fd : UInt32) (arg : Int) : Option Bool :=
  (fcntl w fd.toNat F_GETFL.toNat arg).map fun x => BitVec.ofInt 32 x.1 &&& O_NONBLOCK ≠ 0

def asksNonblock (arg : Int) : Bool := BitVec.ofInt 32 arg &&& O_NONBLOCK ≠ 0

/-- The description behind `r` has the flag `on` and says so; no other but the opposite
end of a pipe has changed. -/
structure FlagSet (w : World) (r : Resource) (on : Bool) (w' : World) : Prop where
  bindings : w'.kernel.fds = w.kernel.fds
  loaded : w'.flag r = some on
  told : ∀ fd arg, w.kernel.fds.table.get? fd = some r → reported w' fd arg = some on
  others : ∀ fd r', w.kernel.fds.table.get? fd = some r' → r' ≠ r → ¬ r.SamePipe r' →
    w'.flag r' = w.flag r'

theorem fcntl_setfl (w : World) (fd : UInt32) (arg : Int) :
    fcntl w fd.toNat F_SETFL.toNat arg = some (fcntlSetfl w fd.toNat arg) := by
  rw [fcntl, u32Fd_toNat]
  rfl

theorem fcntl_getfl (w : World) (fd : UInt32) (arg : Int) :
    fcntl w fd.toNat F_GETFL.toNat arg = some (fcntlGetfl w fd, w) := by
  rw [fcntl, u32Fd_toNat]
  rfl

theorem fcntlSetfl_bound (hr : w.kernel.fds.table.get? fd = some r) (arg : Int) :
    fcntlSetfl w fd.toNat arg = (0, setNonblock w (asksNonblock arg) r) := by
  rw [fcntlSetfl, u32Fd_toNat]
  simp only [FdTable.get_ok.mpr hr]
  rfl

theorem statusFlags_nonblock (hmode : mode = Paths.O_RDONLY ∨ mode = Paths.O_WRONLY ∨ mode = Paths.O_RDWR)
    (on : Bool) : decide (BitVec.ofInt 32 (statusFlags mode on) &&& O_NONBLOCK ≠ 0) = on := by
  rcases hmode with rfl | rfl | rfl <;> cases on <;> decide

theorem reported_eq (hr : w.kernel.fds.table.get? fd = some r) (hset : r.settable = true) (arg : Int) :
    reported w fd arg = w.flag r := by
  rw [reported, fcntl_getfl, Option.map_some]
  simp only [fcntlGetfl, FdTable.get_ok.mpr hr]
  cases r with
  | file | epoll | eventFd => cases hset
  | stdin | pipeRead => exact congrArg some (statusFlags_nonblock (.inl rfl) _)
  | stdout | stderr | pipeWrite => exact congrArg some (statusFlags_nonblock (.inr (.inl rfl)) _)
  | socket => exact congrArg some (statusFlags_nonblock (.inr (.inr rfl)) _)

theorem settable_cases (w : World) (on : Bool) (r : Resource) :
    (∃ p, r.pipe? = some p ∧ setNonblock w on r = w.setPipe p { w.pipe p with nonblock := on }) ∨
      (∃ ref, r = .socket ref) ∨ (r.settable = false ∧ setNonblock w on r = w) := by
  cases r with
  | stdin r | pipeRead r => exact .inl ⟨r.pipe, rfl, rfl⟩
  | stdout p | stderr p | pipeWrite p => exact .inl ⟨p.pipe, rfl, rfl⟩
  | socket ref => exact .inr (.inl ⟨ref, rfl⟩)
  | file | epoll | eventFd => exact .inr (.inr ⟨rfl, rfl⟩)

theorem flag_pipe (w : World) (hp : r.pipe? = some p) : w.flag r = some (w.pipe p).nonblock := by
  cases r <;> cases hp <;> rfl

theorem setPipe_flag_other (w : World) (q : Pipe) (hp : r'.pipe? ≠ some p) :
    (w.setPipe p q).flag r' = w.flag r' := by
  cases hq : r'.pipe? with
  | none => cases r' <;> cases hq <;> rfl
  | some x =>
    have hne : x ≠ p := fun he => hp (he ▸ hq)
    rw [flag_pipe _ hq, flag_pipe _ hq, setPipe_pipe, if_neg hne]

theorem setSocket_flag_other (w : World) (s : SocketInner) (hr : r' ≠ .socket ref) :
    (w.setSocket ref s).flag r' = w.flag r' := by
  cases r' with
  | socket ref' =>
    have hne : ref' ≠ ref := fun he => hr (he ▸ rfl)
    simp only [World.flag, World.setSocket, Heap.read_write_ne _ _ hne]
  | _ => rfl

theorem setNonblock_fds (w : World) (on : Bool) (r : Resource) :
    (setNonblock w on r).kernel.fds = w.kernel.fds := by
  cases r <;> rfl

theorem setNonblock_flag (w : World) (on : Bool) (hset : r.settable = true) :
    (setNonblock w on r).flag r = some on := by
  rcases settable_cases w on r with ⟨p, hp, hw'⟩ | ⟨ref, rfl⟩ | ⟨hfixed, -⟩
  · rw [hw', flag_pipe _ hp, setPipe_pipe, if_pos rfl]
  · simp only [setNonblock, World.flag, World.setSocket, Heap.read_write_same]
  · rw [hfixed] at hset
    cases hset

theorem setNonblock_other (w : World) (on : Bool) (hne : r' ≠ r) (hpipe : ¬ r.SamePipe r') :
    (setNonblock w on r).flag r' = w.flag r' := by
  rcases settable_cases w on r with ⟨p, hp, hw'⟩ | ⟨ref, rfl⟩ | ⟨-, hw'⟩
  · rw [hw']
    exact setPipe_flag_other w _ fun hq => hpipe ⟨p, hp, hq⟩
  · exact setSocket_flag_other w _ hne
  · rw [hw']

theorem setNonblock_pipe (w : World) (on : Bool) (r : Resource) (p : Nat) :
    ((setNonblock w on r).pipe p).buf = (w.pipe p).buf ∧
      ((setNonblock w on r).pipe p).closed = (w.pipe p).closed := by
  rcases settable_cases w on r with ⟨q, -, hw'⟩ | ⟨ref, rfl⟩ | ⟨-, hw'⟩
  · rw [hw', setPipe_pipe]
    split
    · rename_i hq
      rw [hq]
      exact ⟨rfl, rfl⟩
    · exact ⟨rfl, rfl⟩
  · exact ⟨rfl, rfl⟩
  · rw [hw']
    exact ⟨rfl, rfl⟩

theorem reported_fixed (hr : w.kernel.fds.table.get? fd = some r) (hset : r.settable = false) (arg : Int) :
    reported w fd arg = some false := by
  rw [reported, fcntl_getfl, Option.map_some]
  simp only [fcntlGetfl, FdTable.get_ok.mpr hr]
  cases r with
  | file | epoll | eventFd => exact congrArg some (statusFlags_nonblock (.inr (.inr rfl)) _)
  | _ => cases hset

theorem flagSet_setNonblock (w : World) (on : Bool) (hset : r.settable = true) :
    FlagSet w r on (setNonblock w on r) := by
  have hfds := setNonblock_fds w on r
  refine ⟨hfds, setNonblock_flag w on hset, fun fd arg hfd => ?_, fun fd r' _ => setNonblock_other w on⟩
  rw [reported_eq (hfds ▸ hfd) hset, setNonblock_flag w on hset]

-- ---------------------------------------------------------------------------
-- Reads afterwards
-- ---------------------------------------------------------------------------

def FindsNothing (sock : SocketCalls) (w : World) (fd : UInt32) (value : Int) : Prop :=
  ∀ buf len old, guestSlice w.kernel.memory buf len = .ok old → 8 ≤ len →
    (read sock w fd.toNat buf len).1 = value

theorem read_empty_counter (sock : SocketCalls) (hr : w.kernel.fds.table.get? fd = some (.eventFd e))
    (hzero : e.counter = 0) : FindsNothing sock w fd (if e.nonblock then -EAGAIN else 0) := by
  intro buf len old hs hlen
  have hpos : 0 < len := by omega
  have hlong : ¬ len.toNat < 8 := by omega
  have hout : e.read len.toNat = (.ret (if e.nonblock then -EAGAIN else 0), e) := by
    rw [EventFdInner.read, if_neg hlong, if_pos hzero]
  have hres : readFrom w fd len.toNat (.eventFd e) =
      some (.ret (if e.nonblock then -EAGAIN else 0), w.setEventFd fd e) := by
    rw [readFrom, hout]
  rw [read_eq sock (u32Fd_toNat fd) hs hpos hr hres]
  rfl

theorem read_empty_end (sock : SocketCalls) (hr : w.kernel.fds.table.get? fd = some r)
    (hp : p ∈ r.reads?) (hempty : (w.pipe p).buf = []) (hopen : (w.pipe p).closed = false) :
    FindsNothing sock w fd (-EAGAIN) := by
  intro buf len old hs hlen
  have hpos : 0 < len := by omega
  rw [read_empty_pipe sock (u32Fd_toNat fd) hs hpos hr hp hempty, hopen]
  rfl

/-- After `F_SETFL` a standard stream, a pipe end or a socket and its duplicates report the
flag that was asked for, and no other description but the opposite end of a pipe has
changed; what has no flag to set, and an event counter, stays as it was. -/
theorem setfl_nonblock (hr : w.kernel.fds.table.get? fd = some r) (arg : Int) :
    ∃ w', fcntl w fd.toNat F_SETFL.toNat arg = some (0, w') ∧
      (r.settable = true → FlagSet w r (asksNonblock arg) w') ∧
      (r.settable = false → w' = w ∧ ∀ arg', reported w fd arg' = some false) ∧
      (∀ sock fd' p, w.kernel.fds.table.get? fd' = some r → p ∈ r.reads? → (w.pipe p).buf = [] →
        (w.pipe p).closed = false → FindsNothing sock w' fd' (-EAGAIN)) ∧
      ∀ sock e, r = .eventFd e → e.counter = 0 →
        FindsNothing sock w' fd (if e.nonblock then -EAGAIN else 0) := by
  have hfds := setNonblock_fds w (asksNonblock arg) r
  refine ⟨setNonblock w (asksNonblock arg) r, ?_, flagSet_setNonblock w _, fun hfixed => ⟨?_, ?_⟩, ?_, ?_⟩
  · rw [fcntl_setfl, fcntlSetfl_bound hr]
  · cases r with
    | file | epoll | eventFd => rfl
    | _ => cases hfixed
  · exact reported_fixed hr hfixed
  · intro sock fd' p hfd' hp hempty hopen
    obtain ⟨hbuf, hclosed⟩ := setNonblock_pipe w (asksNonblock arg) r p
    exact read_empty_end sock (hfds ▸ hfd') hp (hbuf.trans hempty) (hclosed.trans hopen)
  · rintro sock e rfl hzero
    exact read_empty_counter sock hr hzero

def pageWorld : World where
  kernel := { Kernel.new [] [] { root := "/", cwd := "/" } (Vector.replicate 32 0) with
    memory := some (.owned .zeroPage) }
  fs := { contents := fun _ => none }

/-- Standard input made non-blocking. -/
theorem setfl_nonblock_stdin :
    ∃ w', fcntl pageWorld 0 F_SETFL.toNat 0o4000 = some (0, w') ∧
      FlagSet pageWorld (.stdin ⟨0, 0⟩) true w' := by
  have hr : pageWorld.kernel.fds.table.get? 0 = some (.stdin ⟨0, 0⟩) := rfl
  obtain ⟨w', hrun, hset, -⟩ := setfl_nonblock hr 0o4000
  exact ⟨w', hrun, hset rfl⟩

def counterWorld : World := { pageWorld with kernel := (eventfd2 pageWorld.kernel 0 0).2 }

def blockingCounter : EventFdInner := { counter := 0, notify := 4, nonblock := false }

/-- It accepts `O_NONBLOCK`, but neither `F_GETFL` nor a read shows it. -/
theorem setfl_ignored_by_counter :
    counterWorld.kernel.fds.table.get? 3 = some (.eventFd blockingCounter) ∧
      ∃ w', fcntl counterWorld 3 F_SETFL.toNat 0o4000 = some (0, w') ∧ asksNonblock 0o4000 = true ∧
        reported w' 3 0 = some false ∧ (read noSockets w' 3 0 8).1 = 0 ∧
        ¬ FlagSet counterWorld (.eventFd blockingCounter) true w' := by
  have hr : counterWorld.kernel.fds.table.get? 3 = some (.eventFd blockingCounter) := rfl
  have htold : reported counterWorld 3 0 = some false := reported_fixed hr rfl 0
  have hload : LinearMemory.zeroPage.load 0 8 = _ := LinearMemory.zeroPage_load (by decide)
  have hslice : guestSlice counterWorld.kernel.memory 0 8 = .ok _ := guestSlice_of_load hload (le_refl 8)
  have hset : fcntl counterWorld 3 F_SETFL.toNat 0o4000 = some (0, counterWorld) := by
    have hthree : ((3 : UInt32).toNat : Int) = 3 := rfl
    rw [← hthree, fcntl_setfl, fcntlSetfl_bound hr]
    rfl
  refine ⟨hr, counterWorld, hset, by decide, htold, ?_, fun h => ?_⟩
  · exact read_empty_counter noSockets hr rfl 0 8 _ hslice (by decide)
  · exact absurd (htold.symm.trans (h.told 3 0 hr)) (by decide)

end Sys

end EdgeLibos
