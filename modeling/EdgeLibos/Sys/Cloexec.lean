import EdgeLibos.Lib.Runs
import EdgeLibos.Sys.Fcntl

/-!
# Descriptors that are closed on exec

Runs of the calls that make, duplicate, mark and close descriptors, with a record of what
the calls asked for. The set of marked descriptors and the table stay in step as long as
only bound descriptors are marked and no new descriptor gets a number that is marked.
-/

namespace EdgeLibos.Sys

open Errno Lib

inductive FdOp
  | openat (flags : Int) (opened : Except Int FilePos)
  | pipe2 (fdarray flags : Int)
  | socket (family typeAndFlags : Int)
  | accept4 (sockfd addrPtr addrlenPtr flags : Int) (host : AcceptHost)
  | eventfd2 (initval flags : Int)
  | epollCreate1 (flags : Int)
  | dup (oldfd : Int)
  | dup2 (oldfd newfd : Int)
  | dup3 (oldfd newfd flags : Int)
  | fcntl (fd cmd arg : Int)
  | close (fd : Int)

namespace FdOp

def onKernel (w : World) (r : Int × Kernel) : Int × World := (r.1, { w with kernel := r.2 })

def onTable (w : World) (r : Int × FdTable) : Int × World := (r.1, { w with kernel.fds := r.2 })

/-- The value a call returns and the world after it; `none` when it never returns. -/
def run (w : World) : FdOp → Option (Int × World)
  | .openat _ opened => some (onKernel w (Sys.openat w.kernel opened))
  | .pipe2 fdarray flags => some (onKernel w (Sys.pipe2 w.kernel fdarray flags))
  | .socket family typeAndFlags => some (onKernel w (Sys.socket w.kernel family typeAndFlags))
  | .accept4 sockfd addrPtr addrlenPtr flags host =>
    -- There are two places at most where it waits.
    match ((Sys.accept4 w.kernel sockfd addrPtr addrlenPtr flags host.cloned).answered host).answered host with
    | .returns value k => some (onKernel w (value, k))
    | .waits _ _ => none
  | .eventfd2 initval flags => some (onKernel w (Sys.eventfd2 w.kernel initval flags))
  | .epollCreate1 _ => some (onKernel w (Sys.epollCreate1 w.kernel))
  | .dup oldfd => (Sys.dup w.kernel.fds oldfd).map (onTable w)
  | .dup2 oldfd newfd => (Sys.dup2 w.kernel.fds oldfd newfd).map (onTable w)
  | .dup3 oldfd newfd flags => (Sys.dup3 w.kernel.fds oldfd newfd flags).map (onTable w)
  | .fcntl fd cmd arg => Sys.fcntl w fd cmd arg
  | .close fd => some (onTable w (Sys.close w.kernel.fds fd))

def isDupfd (cmd : Int) : Bool :=
  BitVec.ofInt 32 cmd = F_DUPFD ∨ BitVec.ofInt 32 cmd = F_DUPFD_CLOEXEC

def created (w : World) (n : Int) : FdOp → List UInt32
  | .pipe2 fdarray _ =>
    if (guestSlice w.kernel.memory fdarray 8).isOk then [w.kernel.fds.nextFd, w.kernel.fds.nextFd + 1]
    else []
  | .openat _ opened => if opened.isOk then (u32Fd n).toList else []
  | .socket .. | .accept4 .. | .eventfd2 .. | .epollCreate1 .. | .dup .. | .dup3 .. => (u32Fd n).toList
  -- `dup2` of a descriptor to itself leaves its binding as it is.
  | .dup2 oldfd newfd => if oldfd = newfd then [] else (u32Fd n).toList
  | .fcntl _ cmd _ => if isDupfd cmd then (u32Fd n).toList else []
  | .close _ => []

/-- A call asks for its descriptor to be closed on exec. -/
def requests : FdOp → Bool
  | .openat flags _ | .pipe2 _ flags | .dup3 _ _ flags => BitVec.ofInt 32 flags &&& O_CLOEXEC ≠ 0
  | .socket _ flags | .accept4 _ _ _ flags _ => BitVec.ofInt 32 flags &&& SOCK_CLOEXEC ≠ 0
  | .eventfd2 _ flags => BitVec.ofInt 32 flags &&& EFD_CLOEXEC ≠ 0
  | .epollCreate1 flags => BitVec.ofInt 32 flags &&& EPOLL_CLOEXEC ≠ 0
  | .fcntl _ cmd _ => BitVec.ofInt 32 cmd = F_DUPFD_CLOEXEC
  | .dup _ | .dup2 _ _ | .close _ => false

/-- What becomes of the request: `socket` and `eventfd2` accept it and drop it, since there
is no exec. -/
def honours : FdOp → Bool
  | .socket .. | .eventfd2 .. => false
  | op => op.requests

/-- The numbers that a call takes from the table for new descriptors. -/
def takes (t : FdTable) : FdOp → List UInt32
  | .pipe2 .. => [t.nextFd, t.nextFd + 1]
  | .openat .. | .socket .. | .accept4 .. | .eventfd2 .. | .epollCreate1 .. => [t.nextFd]
  | .dup _ | .dup2 .. | .dup3 .. | .fcntl .. | .close _ => []

/-- The descriptor that an `F_SETFD` names, and whether it sets the bit. -/
def setsFd : FdOp → Option (UInt32 × Bool)
  | .fcntl fd cmd arg =>
    if BitVec.ofInt 32 cmd = F_SETFD then
      (u32Fd fd).map fun f => (f, BitVec.ofInt 32 arg &&& 1 ≠ 0)
    else none
  | _ => none

end FdOp

structure Marked where
  world : World
  marks : UInt32 → Bool

namespace Marked

/-- The record after a call that returned `n`: a new binding has the mark that its call
asked for, and an `F_SETFD` changes it. -/
def marksAfter (asks : FdOp → Bool) (s : Marked) (op : FdOp) (n : Int) : UInt32 → Bool := fun fd =>
  if fd ∈ op.created s.world n then asks op
  else
    match op.setsFd with
    | some (f, on) => if fd = f then on else s.marks fd
    | none => s.marks fd

def next (asks : FdOp → Bool) (s : Marked) (op : FdOp) : Option Marked :=
  (op.run s.world).map fun x => { world := x.2, marks := s.marksAfter asks op x.1 }

def start (args : List String) (env : List (String × String)) (vfs : Vfs) (seed : RngSeed)
    (memory : Option MemoryKind) (fs : HostFs) : Marked :=
  { world := { kernel := { Kernel.new args env vfs seed with memory }, fs }, marks := fun _ => false }

end Marked

/-- Only bound descriptors are in the set, and `F_GETFD` reports the mark of a bound one. -/
structure Bookkeeping (s : Marked) : Prop where
  bound : ∀ fd, s.world.kernel.fds.getCloexec fd = true → (s.world.kernel.fds.table.get? fd).isSome = true
  reported : ∀ fd r arg, s.world.kernel.fds.table.get? fd = some r →
    (fcntl s.world fd.toNat F_GETFD.toNat arg).map Prod.fst = some (if s.marks fd then 1 else 0)

/-- `F_GETFD` and `F_SETFD` fail on an argument that is not a bound descriptor. -/
def RefusesUnbound (s : Marked) (a : Int) : Prop :=
  ∀ cmd arg, cmd = F_GETFD ∨ cmd = F_SETFD → fcntl s.world a cmd.toNat arg = some (-EBADF, s.world)

-- ---------------------------------------------------------------------------
-- What a call does to the table
-- ---------------------------------------------------------------------------

/-- A call leaves the table alone, takes the next number or the next two, makes a
duplicate, sets the bit of a descriptor or closes one. -/
inductive FdOp.Effect (w : World) (op : FdOp) (n : Int) (t' : FdTable) : Prop
  | same (hcreated : op.created w n = []) (hset : op.setsFd = none) (ht : t' = w.kernel.fds)
  | made (r : Resource) (hcreated : op.created w n = [w.kernel.fds.nextFd])
      (htakes : op.takes w.kernel.fds = [w.kernel.fds.nextFd]) (hset : op.setsFd = none)
      (ht : t' = (w.kernel.fds.insert r).2)
  | madePair (r r' : Resource)
      (hcreated : op.created w n = [w.kernel.fds.nextFd, w.kernel.fds.nextFd + 1])
      (htakes : op.takes w.kernel.fds = [w.kernel.fds.nextFd, w.kernel.fds.nextFd + 1])
      (hset : op.setsFd = none) (ht : t' = ((w.kernel.fds.insert r).2.insert r').2)
  | duplicated (c : FdCall) (old new : UInt32) (hcreated : op.created w n = [new])
      (hset : op.setsFd = none) (hasks : c.wantsCloexec = op.honours)
      (h : Duplicate w.kernel.fds c old new t')
  | set (fd : UInt32) (on : Bool) (hcreated : op.created w n = []) (hset : op.setsFd = some (fd, on))
      (ht : t' = w.kernel.fds.setCloexec fd on)
  | closed (fd : UInt32) (hcreated : op.created w n = []) (hset : op.setsFd = none)
      (ht : t' = (w.kernel.fds.close fd).toOption.getD w.kernel.fds)

theorem u32Fd_neg (h : n < 0) : u32Fd n = none := by
  have hrange : ¬ (0 ≤ n ∧ n < 2 ^ 32) := by omega
  rw [u32Fd, u32TryFrom, if_neg hrange, Option.map_none]

-- ---------------------------------------------------------------------------
-- accept4
-- ---------------------------------------------------------------------------

/-- So far no descriptor was made: an error, or a wait. -/
def Accept.Keeps (k : Kernel) : Accept → Prop
  | .returns value k' => value < 0 ∧ k'.fds = k.fds
  | .waits _ k' => k'.fds = k.fds

/-- An error, or the next number for a new socket. -/
def Accept.Ends (k : Kernel) : Accept → Prop
  | .returns value k' => value < 0 ∧ k'.fds = k.fds ∨
      ∃ r, value = (k.fds.nextFd.toNat : Int) ∧ k'.fds = (k.fds.insert r).2
  | .waits _ k' => k'.fds = k.fds

theorem Accept.Keeps.ends {k : Kernel} {a : Accept} (h : a.Keeps k) : a.Ends k := by
  cases a with
  | returns value k' => exact .inl h
  | waits on k' => exact h

theorem checkOut_error_neg (h : checkOut memory ptr len = .error e) : e < 0 := by
  unfold checkOut at h
  split at h
  · cases h
  · split at h
    · rename_i hs
      cases h
      exact guestSlice_error_neg hs
    · cases h

theorem takeListener_keeps (k : Kernel) (call : AcceptCall) : (takeListener k call).Keeps k := by
  have hebadf : -EBADF < 0 := by decide
  have heinval : -EINVAL < 0 := by decide
  unfold takeListener
  split
  · rename_i hget
    exact ⟨get_error_neg hget, rfl⟩
  · simp only
    split
    · rfl
    · exact ⟨heinval, rfl⟩
  · exact ⟨hebadf, rfl⟩

theorem accept4Unix_keeps (k : Kernel) (call : AcceptCall) (ref : Nat) (cloned : Bool) :
    (accept4Unix k call ref cloned).Keeps k := by
  have heinval : -EINVAL < 0 := by decide
  have henomem : -ENOMEM < 0 := by decide
  unfold accept4Unix
  simp only
  split
  · rename_i hout
    exact ⟨checkOut_error_neg hout, rfl⟩
  · rename_i hout
    exact ⟨checkOut_error_neg hout, rfl⟩
  · split
    · split
      · split
        · rfl
        · exact ⟨henomem, rfl⟩
      · exact ⟨heinval, rfl⟩
    · exact ⟨heinval, rfl⟩

theorem accept4_keeps (k : Kernel) (sockfd addrPtr addrlenPtr flags : Int) (cloned : Bool) :
    (accept4 k sockfd addrPtr addrlenPtr flags cloned).Keeps k := by
  have hebadf : -EBADF < 0 := by decide
  have heinval : -EINVAL < 0 := by decide
  have heopnotsupp : -EOPNOTSUPP < 0 := by decide
  unfold accept4
  split
  · exact ⟨hebadf, rfl⟩
  · split
    · rename_i hout
      exact ⟨checkOut_error_neg hout, rfl⟩
    · rename_i hout
      exact ⟨checkOut_error_neg hout, rfl⟩
    · split
      · rename_i hget
        exact ⟨get_error_neg hget, rfl⟩
      · simp only
        split
        · exact accept4Unix_keeps ..
        · split
          · exact ⟨heinval, rfl⟩
          · split
            · split
              · rfl
              · exact takeListener_keeps ..
            · exact ⟨heopnotsupp, rfl⟩
            · exact ⟨heinval, rfl⟩
      · exact ⟨hebadf, rfl⟩

theorem acceptBound_keeps (k : Kernel) (call : AcceptCall) (listener : Option TcpListener) :
    (acceptBound k call listener).Keeps k := by
  have hebadf : -EBADF < 0 := by decide
  have headdrinuse : -EADDRINUSE < 0 := by decide
  unfold acceptBound
  split
  · exact ⟨headdrinuse, rfl⟩
  · split
    · rename_i hget
      exact ⟨get_error_neg hget, rfl⟩
    · simp only
      split
      · exact takeListener_keeps (setSocket k _ _) call
      · exact takeListener_keeps k call
    · exact ⟨hebadf, rfl⟩

theorem putListener_fds (k : Kernel) (fd : UInt32) (listener : TcpListener) :
    (putListener k fd listener).fds = k.fds := by
  unfold putListener
  split
  · simp only
    split
    · rfl
    · rfl
  · rfl

theorem insertSocket_ends {k k' : Kernel} (hfds : k'.fds = k.fds) (s : SocketInner) :
    (Accept.returns (insertSocket k' s).1.toNat (insertSocket k' s).2).Ends k := by
  refine .inr ⟨.socket (k'.cells.sockets.alloc s).1, ?_, ?_⟩
  · rw [← hfds]
    rfl
  · rw [← hfds]
    rfl

theorem acceptConnected_ends (k : Kernel) (call : AcceptCall) (listener : TcpListener)
    (peer : Option SockAddr) :
    (Accept.returns (acceptConnected k call listener peer).1
      (acceptConnected k call listener peer).2).Ends k := by
  have heio : - Errno.EIO < 0 := by decide
  have heopnotsupp : -EOPNOTSUPP < 0 := by decide
  unfold acceptConnected
  split
  · exact .inl ⟨heio, rfl⟩
  · simp only
    split
    · exact .inl ⟨heopnotsupp, rfl⟩
    · exact .inl ⟨heopnotsupp, rfl⟩
    · refine insertSocket_ends ?_ _
      rw [putListener_fds]

theorem acceptConnectedUnix_ends (k : Kernel) (call : AcceptCall) (peer : Option (Option PathBuf)) :
    (Accept.returns (acceptConnectedUnix k call peer).1 (acceptConnectedUnix k call peer).2).Ends k := by
  have heio : - Errno.EIO < 0 := by decide
  unfold acceptConnectedUnix
  split
  · exact .inl ⟨heio, rfl⟩
  · exact insertSocket_ends rfl _

theorem Accept.Ends.of_fds {k k' : Kernel} {a : Accept} (h : a.Ends k') (hfds : k'.fds = k.fds) :
    a.Ends k := by
  cases a with
  | returns value k'' =>
    rw [Accept.Ends, hfds] at h
    exact h
  | waits on k'' => exact h.trans hfds

theorem Accept.Ends.answered {k : Kernel} {a : Accept} (h : a.Ends k) (host : AcceptHost) :
    (a.answered host).Ends k := by
  cases a with
  | returns value k' => exact h
  | waits on k' =>
    have hfds : k'.fds = k.fds := h
    cases on with
    | bind call port addr => exact (acceptBound_keeps k' call host.listener).ends.of_fds hfds
    | accept call listener => exact (acceptConnected_ends k' call listener host.peer).of_fds hfds
    | acceptUnix call => exact (acceptConnectedUnix_ends k' call host.unixPeer).of_fds hfds

-- ---------------------------------------------------------------------------
-- One effect for each call
-- ---------------------------------------------------------------------------

variable {w w' : World}

theorem pipe2_effect (fdarray flags : Int) :
    FdOp.Effect w (.pipe2 fdarray flags) n (Sys.pipe2 w.kernel fdarray flags).2.fds := by
  unfold Sys.pipe2
  split
  · rename_i hs
    refine .same ?_ rfl rfl
    rw [FdOp.created, hs]
    rfl
  · rename_i hs
    have hcreated : FdOp.created w n (.pipe2 fdarray flags) =
        [w.kernel.fds.nextFd, w.kernel.fds.nextFd + 1] := by
      rw [FdOp.created, hs]
      rfl
    simp only
    split
    · exact .madePair _ _ hcreated rfl rfl rfl
    · exact .madePair _ _ hcreated rfl rfl rfl

theorem socket_effect (family typeAndFlags : Int) :
    FdOp.Effect w (.socket family typeAndFlags) (Sys.socket w.kernel family typeAndFlags).1
      (Sys.socket w.kernel family typeAndFlags).2.fds := by
  have herror {e : Int} (h : socketKind (BitVec.ofInt 32 family).toInt
      (BitVec.ofInt 32 typeAndFlags &&& 0xf).toNat = .error e) : e < 0 := by
    unfold socketKind at h
    split at h
    · split at h
      · cases h
      · split at h
        · cases h
        · cases h
          decide
    · cases h
      decide
  unfold Sys.socket
  simp only
  split
  · rename_i hkind
    refine .same ?_ rfl rfl
    rw [FdOp.created, u32Fd_neg (herror hkind), Option.toList_none]
  · refine .made (.socket w.kernel.cells.sockets.next) ?_ rfl rfl rfl
    simp only [FdOp.created, insertSocket, FdTable.insert, u32Fd_toNat, Option.toList_some]

theorem accept4_effect {sockfd addrPtr addrlenPtr flags : Int} {host : AcceptHost}
    (h : FdOp.run w (.accept4 sockfd addrPtr addrlenPtr flags host) = some (n, w')) :
    FdOp.Effect w (.accept4 sockfd addrPtr addrlenPtr flags host) n w'.kernel.fds := by
  have hends := ((accept4_keeps w.kernel sockfd addrPtr addrlenPtr flags host.cloned).ends.answered
    host).answered host
  rw [FdOp.run] at h
  generalize ((accept4 w.kernel sockfd addrPtr addrlenPtr flags host.cloned).answered host).answered
    host = a at h hends
  cases a with
  | waits on k => cases h
  | returns value k =>
    cases h
    rcases hends with ⟨hneg, hfds⟩ | ⟨r, rfl, hfds⟩
    · refine .same ?_ rfl hfds
      rw [FdOp.created, u32Fd_neg hneg, Option.toList_none]
    · refine .made r ?_ rfl rfl hfds
      rw [FdOp.created, u32Fd_toNat, Option.toList_some]

theorem duplicate_effect (c : FdCall) (hc : c.source = some oldfd) (hrun : c.run w.kernel.fds = some (n, t'))
    (hset : op.setsFd = none) (hasks : c.wantsCloexec = op.honours)
    (hcreated : op.created w n = if c = .dup2 oldfd oldfd then [] else (u32Fd n).toList) :
    FdOp.Effect w op n t' := by
  cases dup_cases w.kernel.fds hc with
  | refused e he hrun' =>
    cases hrun.symm.trans hrun'
    refine .same ?_ hset rfl
    rw [hcreated, u32Fd_neg he, Option.toList_none, ite_self]
  | itself hdup2 hrun' =>
    cases hrun.symm.trans hrun'
    refine .same ?_ hset rfl
    rw [hcreated, if_pos hdup2]
  | named old new r hold hr hnew hne hrun' =>
    cases hrun.symm.trans hrun'
    refine .duplicated c old new ?_ hset hasks (.ofNamed hr hnew)
    have hother : ¬ c = .dup2 oldfd oldfd := by
      rintro rfl
      exact hne (Option.some.inj (hold.symm.trans hnew))
    rw [hcreated, if_neg hother, u32Fd_toNat, Option.toList_some]
  | searched old r hold hr hsearch hmin hrun' =>
    obtain ⟨fd, hfd, hpair⟩ := Option.map_eq_some_iff.mp (hrun'.symm.trans hrun)
    cases hpair
    refine .duplicated c old fd ?_ hset hasks (.ofSearch hr hsearch hfd)
    have hother : ¬ c = .dup2 oldfd oldfd := by
      rintro rfl
      cases hsearch
    rw [hcreated, if_neg hother, u32Fd_toNat, Option.toList_some]

theorem isDupfd_false (hdupfd : BitVec.ofInt 32 cmd ≠ F_DUPFD)
    (hcloexec : BitVec.ofInt 32 cmd ≠ F_DUPFD_CLOEXEC) : FdOp.isDupfd cmd = false := by
  rw [FdOp.isDupfd, decide_eq_false_iff_not, not_or]
  exact ⟨hdupfd, hcloexec⟩

theorem fcntl_same (hdupfd : BitVec.ofInt 32 cmd ≠ F_DUPFD) (hcloexec : BitVec.ofInt 32 cmd ≠ F_DUPFD_CLOEXEC)
    (hset : BitVec.ofInt 32 cmd ≠ F_SETFD) (ht : t' = w.kernel.fds) :
    FdOp.Effect w (.fcntl fd cmd arg) n t' := by
  refine .same ?_ ?_ ht
  · rw [FdOp.created, isDupfd_false hdupfd hcloexec]
    rfl
  · rw [FdOp.setsFd, if_neg hset]

theorem fcntl_setfd (hfd : u32Fd fd = some f) (hcmd : BitVec.ofInt 32 cmd = F_SETFD) :
    FdOp.Effect w (.fcntl fd cmd arg) n (fcntlSetfd w f arg).2.kernel.fds := by
  refine .set f (BitVec.ofInt 32 arg &&& 1 ≠ 0) ?_ ?_ rfl
  · rw [FdOp.created, isDupfd_false]
    · rfl
    · rw [hcmd]
      decide
    · rw [hcmd]
      decide
  · rw [FdOp.setsFd, if_pos hcmd, hfd, Option.map_some]

theorem fcntl_dupfd (hdup : BitVec.ofInt 32 cmd = F_DUPFD ∨ BitVec.ofInt 32 cmd = F_DUPFD_CLOEXEC)
    (hset : BitVec.ofInt 32 cmd ≠ F_SETFD)
    (hrun : fcntlDupfd w.kernel.fds fd arg (BitVec.ofInt 32 cmd = F_DUPFD_CLOEXEC) = some (n, t')) :
    FdOp.Effect w (.fcntl fd cmd arg) n t' := by
  refine duplicate_effect (.dupfd fd arg (BitVec.ofInt 32 cmd = F_DUPFD_CLOEXEC)) rfl hrun ?_ rfl ?_
  · rw [FdOp.setsFd, if_neg hset]
  · have hdup' : FdOp.isDupfd cmd = true := decide_eq_true hdup
    have hother : ¬ FdCall.dupfd fd arg (BitVec.ofInt 32 cmd = F_DUPFD_CLOEXEC) = .dup2 fd fd := nofun
    rw [FdOp.created, if_pos hdup', if_neg hother]

theorem fcntlSetfl_fds (w : World) (fd arg : Int) : (fcntlSetfl w fd arg).2.kernel.fds = w.kernel.fds := by
  unfold fcntlSetfl
  split
  · rfl
  · split
    · rfl
    · rename_i r _
      cases r <;> rfl

theorem fcntl_effect (fd cmd arg : Int) (h : Sys.fcntl w fd cmd arg = some (n, w')) :
    FdOp.Effect w (.fcntl fd cmd arg) n w'.kernel.fds := by
  have hebadf : -EBADF < 0 := by decide
  unfold Sys.fcntl at h
  cases hfd : u32Fd fd with
  | none =>
    rw [hfd] at h
    cases h
    refine .same ?_ ?_ rfl
    · rw [FdOp.created, u32Fd_neg hebadf, Option.toList_none, ite_self]
    · rw [FdOp.setsFd, hfd, Option.map_none, ite_self]
  | some f =>
    have hother {x y : BitVec 32} (hcmd : BitVec.ofInt 32 cmd = x) (hne : x ≠ y) :
        BitVec.ofInt 32 cmd ≠ y := hcmd.trans_ne hne
    simp only [hfd] at h
    split at h
    · rename_i hcmd
      cases h
      exact fcntl_same (hother hcmd (by decide)) (hother hcmd (by decide)) (hother hcmd (by decide)) rfl
    · split at h
      · rename_i hcmd
        have hw : (fcntlSetfl w fd arg).2 = w' := congrArg Prod.snd (Option.some.inj h)
        exact fcntl_same (hother hcmd (by decide)) (hother hcmd (by decide)) (hother hcmd (by decide))
          (hw ▸ fcntlSetfl_fds w fd arg)
      · split at h
        · rename_i hcmd
          cases h
          exact fcntl_same (hother hcmd (by decide)) (hother hcmd (by decide)) (hother hcmd (by decide)) rfl
        · split at h
          · rename_i hcmd
            cases h
            exact fcntl_setfd hfd hcmd
          · rename_i hset
            split at h
            · rename_i hdup
              obtain ⟨⟨m, t'⟩, hrun, hpair⟩ := Option.map_eq_some_iff.mp h
              cases hpair
              exact fcntl_dupfd hdup hset hrun
            · rename_i hnone
              rw [not_or] at hnone
              cases h
              exact fcntl_same hnone.1 hnone.2 hset rfl

theorem created_next (fd : UInt32) : (u32Fd (fd.toNat : Int)).toList = [fd] := by
  rw [u32Fd_toNat, Option.toList_some]

theorem FdOp.run_effect (op : FdOp) (h : op.run w = some (n, w')) : op.Effect w n w'.kernel.fds := by
  cases op with
  | openat flags opened =>
    cases h
    cases opened with
    | error e => exact .same rfl rfl rfl
    | ok fp =>
      exact .made (.file w.kernel.cells.files.next) (created_next w.kernel.fds.nextFd) rfl rfl rfl
  | pipe2 fdarray flags =>
    cases h
    exact pipe2_effect fdarray flags
  | socket family typeAndFlags =>
    cases h
    exact socket_effect family typeAndFlags
  | accept4 sockfd addrPtr addrlenPtr flags host => exact accept4_effect h
  | eventfd2 initval flags =>
    cases h
    exact .made _ (created_next w.kernel.fds.nextFd) rfl rfl rfl
  | epollCreate1 flags =>
    cases h
    exact .made _ (created_next w.kernel.fds.nextFd) rfl rfl rfl
  | dup oldfd =>
    obtain ⟨⟨m, t'⟩, hrun, hpair⟩ := Option.map_eq_some_iff.mp h
    cases hpair
    exact duplicate_effect (.dup oldfd) rfl hrun rfl rfl rfl
  | dup2 oldfd newfd =>
    obtain ⟨⟨m, t'⟩, hrun, hpair⟩ := Option.map_eq_some_iff.mp h
    cases hpair
    refine duplicate_effect (.dup2 oldfd newfd) rfl hrun rfl rfl ?_
    simp only [FdOp.created, FdCall.dup2.injEq, true_and, eq_comm]
  | dup3 oldfd newfd flags =>
    obtain ⟨⟨m, t'⟩, hrun, hpair⟩ := Option.map_eq_some_iff.mp h
    cases hpair
    exact duplicate_effect (.dup3 oldfd newfd flags) rfl hrun rfl rfl rfl
  | fcntl fd cmd arg => exact fcntl_effect fd cmd arg h
  | close fd =>
    cases h
    simp only [Sys.close]
    cases u32Fd fd with
    | none => exact .same rfl rfl rfl
    | some f =>
      refine .closed f rfl rfl ?_
      simp only
      cases w.kernel.fds.close f <;> rfl

-- ---------------------------------------------------------------------------
-- The set and the table in step
-- ---------------------------------------------------------------------------

/-- The descriptors in the set are the bound ones with a mark. -/
def MarksMatch (t : FdTable) (marks : UInt32 → Bool) : Prop :=
  ∀ fd, t.getCloexec fd = ((t.table.get? fd).isSome && marks fd)

variable {t t' : FdTable} {marks marks' : UInt32 → Bool}

theorem MarksMatch.insert (h : MarksMatch t marks) (r : Resource) (hclear : t.getCloexec t.nextFd = false)
    (hnew : marks' t.nextFd = false) (hold : ∀ fd ≠ t.nextFd, marks' fd = marks fd) :
    MarksMatch (t.insert r).2 marks' := by
  intro fd
  have hbits : (t.insert r).2.getCloexec fd = t.getCloexec fd := rfl
  have htable : (t.insert r).2.table.get? fd = if fd = t.nextFd then some r else t.table.get? fd :=
    HashMap.get?_insert ..
  rw [hbits, htable]
  by_cases hfd : fd = t.nextFd
  · rw [hfd, hclear, hnew, Bool.and_false]
  · rw [if_neg hfd, h fd, hold fd hfd]

theorem MarksMatch.duplicate (h : MarksMatch t marks) (hd : Duplicate t c old new t')
    (hnew : marks' new = c.wantsCloexec) (hold : ∀ fd ≠ new, marks' fd = marks fd) :
    MarksMatch t' marks' := by
  intro fd
  by_cases hfd : fd = new
  · obtain ⟨r, -, -, hr⟩ := hd.aliased
    rw [hfd, hd.marked, hr, hnew, Option.isSome_some, Bool.true_and]
  · obtain ⟨htable, hbits⟩ := hd.others fd hfd
    rw [hbits, htable, h fd, hold fd hfd]

theorem MarksMatch.set (h : MarksMatch t marks) (hbound : on = true → (t.table.get? fd).isSome = true)
    (hfd : marks' fd = on) (hold : ∀ x ≠ fd, marks' x = marks x) : MarksMatch (t.setCloexec fd on) marks' := by
  intro x
  rw [FdTable.getCloexec_setCloexec, setCloexec_table]
  by_cases hx : x = fd
  · rw [if_pos hx, hx, hfd]
    cases on with
    | true => rw [hbound rfl, Bool.and_true]
    | false => rw [Bool.and_false]
  · rw [if_neg hx, h x, hold x hx]

theorem MarksMatch.close (h : MarksMatch t marks) (fd : UInt32) :
    MarksMatch ((t.close fd).toOption.getD t) marks := by
  intro x
  by_cases hx : x = fd
  · rw [hx, (close_cases fd).1, if_pos rfl, Option.isSome_none, Bool.false_and]
    unfold FdTable.close
    split
    · simp only [Except.toOption, Option.getD_some, FdTable.getCloexec, HashMap.containsKey,
        HashMap.get?_erase, if_true, Option.isSome_none]
    · rename_i hunbound
      have hnone : (t.table.get? fd).isSome = false := Bool.not_eq_true _ ▸ hunbound
      simp only [Except.toOption, Option.getD_none]
      rw [h fd, hnone, Bool.false_and]
  · rw [FdTable.close_getCloexec fd hx, (close_cases fd).1, if_neg hx, h x]

/-- A step that keeps the two in step: only bound descriptors are marked, and a new one is
given a number without a mark. What `openat`, `pipe2`, `accept4` and `epoll_create1` do
with a request is left open. -/
structure Tidy (s : Marked) (op : FdOp) : Prop where
  unasked : op.takes s.world.kernel.fds ≠ [] → op.honours = false
  unmarked : ∀ fd ∈ op.takes s.world.kernel.fds, s.world.kernel.fds.getCloexec fd = false
  bound : ∀ fd, op.setsFd = some (fd, true) → (s.world.kernel.fds.table.get? fd).isSome = true

section
variable {s s' : Marked} {asks : FdOp → Bool}

theorem marksAfter_created (h : fd ∈ op.created s.world n) : s.marksAfter asks op n fd = asks op := if_pos h

theorem marksAfter_kept (h : fd ∉ op.created s.world n) (hset : op.setsFd = none) :
    s.marksAfter asks op n fd = s.marks fd := by
  rw [Marked.marksAfter, if_neg h, hset]

theorem marksAfter_set (hcreated : op.created s.world n = []) (hset : op.setsFd = some (f, on)) :
    s.marksAfter asks op n fd = if fd = f then on else s.marks fd := by
  have hnot : fd ∉ op.created s.world n := hcreated ▸ List.not_mem_nil
  rw [Marked.marksAfter, if_neg hnot, hset]

theorem MarksMatch.step (h : MarksMatch s.world.kernel.fds s.marks) (htidy : Tidy s op)
    (hrun : op.run s.world = some (n, w')) :
    MarksMatch w'.kernel.fds (s.marksAfter FdOp.honours op n) := by
  cases op.run_effect hrun with
  | same hcreated hset ht =>
    intro fd
    have hnot : fd ∉ op.created s.world n := hcreated ▸ List.not_mem_nil
    rw [ht, h fd, marksAfter_kept hnot hset]
  | made r hcreated htakes hset ht =>
    have hasks := htidy.unasked (by rw [htakes]; exact List.cons_ne_nil _ _)
    rw [ht]
    refine h.insert r (htidy.unmarked _ (htakes ▸ List.mem_cons_self)) ?_ fun fd hfd => ?_
    · rw [marksAfter_created (hcreated ▸ List.mem_cons_self), hasks]
    · exact marksAfter_kept (by rw [hcreated, List.mem_singleton]; exact hfd) hset
  | madePair r r' hcreated htakes hset ht =>
    have hasks := htidy.unasked (by rw [htakes]; exact List.cons_ne_nil _ _)
    have hfirst : MarksMatch (s.world.kernel.fds.insert r).2
        fun fd => if fd = s.world.kernel.fds.nextFd then false else s.marks fd := by
      refine h.insert r (htidy.unmarked _ (htakes ▸ List.mem_cons_self)) (if_pos rfl) fun fd hfd => ?_
      exact if_neg hfd
    rw [ht]
    refine hfirst.insert r' (htidy.unmarked _ ?_) ?_ fun fd hfd => ?_
    · rw [htakes]
      exact List.mem_cons_of_mem _ List.mem_cons_self
    · rw [marksAfter_created (hcreated ▸ List.mem_cons_of_mem _ List.mem_cons_self), hasks]
    · by_cases hnext : fd = s.world.kernel.fds.nextFd
      · rw [if_pos hnext, hnext, marksAfter_created (hcreated ▸ List.mem_cons_self), hasks]
      · rw [if_neg hnext]
        refine marksAfter_kept ?_ hset
        rw [hcreated, List.mem_cons, List.mem_singleton, not_or]
        exact ⟨hnext, hfd⟩
  | duplicated c old new hcreated hset hasks hd =>
    refine h.duplicate hd ?_ fun fd hfd => ?_
    · rw [marksAfter_created (hcreated ▸ List.mem_cons_self), hasks]
    · exact marksAfter_kept (by rw [hcreated, List.mem_singleton]; exact hfd) hset
  | set fd on hcreated hset ht =>
    rw [ht]
    refine h.set (fun hon => htidy.bound fd (hon ▸ hset)) ?_ fun x hx => ?_
    · rw [marksAfter_set hcreated hset, if_pos rfl]
    · rw [marksAfter_set hcreated hset, if_neg hx]
  | closed fd hcreated hset ht =>
    have hsame : s.marksAfter FdOp.honours op n = s.marks := by
      funext x
      exact marksAfter_kept (hcreated ▸ List.not_mem_nil) hset
    rw [ht, hsame]
    exact h.close fd

theorem MarksMatch.bookkeeping (h : MarksMatch s.world.kernel.fds s.marks) : Bookkeeping s := by
  refine ⟨fun fd hfd => ?_, fun fd r arg hr => ?_⟩
  · rw [h fd, Bool.and_eq_true] at hfd
    exact hfd.1
  · have hbit : s.world.kernel.fds.getCloexec fd = s.marks fd := by
      rw [h fd, hr, Option.isSome_some, Bool.true_and]
    have hget : fcntl s.world fd.toNat F_GETFD.toNat arg = some (fcntlGetfd s.world fd arg) := by
      rw [fcntl, u32Fd_toNat]
      rfl
    rw [hget, Option.map_some, fcntlGetfd, hbit]

theorem marksMatch_start (args : List String) (env : List (String × String)) (vfs : Vfs) (seed : RngSeed)
    (memory : Option MemoryKind) (fs : HostFs) :
    MarksMatch (Marked.start args env vfs seed memory fs).world.kernel.fds
      (Marked.start args env vfs seed memory fs).marks := by
  intro fd
  exact (Bool.and_false _).symm

/-- In every run of tidy steps the set holds bound descriptors only, and `F_GETFD` of a
bound descriptor reports what was asked for last: by the call that bound it, where it
honours the request, or by an `F_SETFD` since. -/
theorem cloexec_bookkeeping
    (h : Reaches (Marked.next FdOp.honours) Tidy (Marked.start args env vfs seed memory fs) s) :
    Bookkeeping s ∧ ∀ a, u32Fd a = none → RefusesUnbound s a := by
  have hstep : MarksMatch s.world.kernel.fds s.marks := by
    refine h.invariant (I := fun s => MarksMatch s.world.kernel.fds s.marks)
      (marksMatch_start args env vfs seed memory fs) ?_
    intro s op s' hs htidy hnext
    obtain ⟨⟨n, w'⟩, hrun, rfl⟩ := Option.map_eq_some_iff.mp hnext
    exact hs.step htidy hrun
  refine ⟨hstep.bookkeeping, fun a ha cmd arg _ => ?_⟩
  rw [fcntl, ha]

end

def unmarked : Marked :=
  Marked.start [] [] { root := "/", cwd := "/" } (Vector.replicate 32 0) none { contents := fun _ => none }

theorem tidy_dup3 (s : Marked) (oldfd newfd flags : Int) : Tidy s (.dup3 oldfd newfd flags) :=
  ⟨fun h => absurd rfl h, fun _ h => absurd h List.not_mem_nil, nofun⟩

/-- Standard input to number 1000, to be closed on exec. -/
theorem cloexec_bookkeeping_dup3 :
    ∃ s, Reaches (Marked.next FdOp.honours) Tidy unmarked s ∧ s.marks 1000 = true ∧ Bookkeeping s ∧
      ∀ a, u32Fd a = none → RefusesUnbound s a := by
  have hreach : Reaches (Marked.next FdOp.honours) Tidy unmarked _ :=
    .step .start (tidy_dup3 unmarked 0 1000 0o2000000) rfl
  exact ⟨_, hreach, rfl, cloexec_bookkeeping hreach⟩

/-- A socket that was to be closed on exec is not. -/
theorem cloexec_dropped :
    ∃ s, Reaches (Marked.next FdOp.requests) (fun _ _ => True) unmarked s ∧ s.marks 3 = true ∧
      (fcntl s.world 3 F_GETFD.toNat 0).map Prod.fst = some 0 ∧ ¬ Bookkeeping s := by
  have hreach : Reaches (Marked.next FdOp.requests) (fun _ _ => True) unmarked _ :=
    .step .start trivial (rfl : Marked.next FdOp.requests unmarked (.socket 2 0o2000001) = some _)
  refine ⟨_, hreach, rfl, rfl, fun h => ?_⟩
  have hreported := h.reported 3 (.socket 0) 0 rfl
  exact absurd hreported (by decide)

end EdgeLibos.Sys
