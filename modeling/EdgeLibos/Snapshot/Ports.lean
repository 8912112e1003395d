import EdgeLibos.Snapshot.Build
import EdgeLibos.Sys.Socket

/-!
# The port of a frozen server

A guest that serves, one call at a time. A freeze finds it between two calls or where
an `accept4` waits for the host; dropping the call then leaves the kernel as it is.
-/

namespace EdgeLibos.Snapshot

open Errno Lib Sys

inductive LastAccept
  | waiting
  | returned
  | failed
  deriving DecidableEq, Repr

/-- A kernel and the `accept4` that waits in it. `given` is the port the host gave to
the last listener of a socket. -/
structure Server where
  kernel : Kernel
  call : Option Waiting
  given : Nat → Option UInt16
  accepts : Nat → Option LastAccept

inductive ServerAct
  | memory (m : Option MemoryKind)
  | cells (c : Cells)
  | table (c : FdCall)
  | update (fd : UInt32) (r : Resource)
  | socketCall (ref : Nat) (s : SocketInner)
  | socket (family typeAndFlags : Int)
  | bind (fd addrPtr addrLen : Int) (host : BindHost)
  | listen (fd backlog : Int)
  | accept4 (fd addrPtr addrlenPtr flags : Int) (cloned : Bool)
  | bound (answer : Option TcpListener)
  | connected (answer : Option SockAddr)
  | connectedUnix (answer : Option (Option PathBuf))

def born (k k' : Kernel) (ref : Nat) : Bool :=
  k.cells.sockets.next ≤ ref && ref < k'.cells.sockets.next

namespace Server

variable (s : Server)

def start (k : Kernel) : Server :=
  { kernel := k, call := none, given := fun _ => none, accepts := fun _ => none }

/-- A new socket has no history. -/
def withKernel (k : Kernel) : Server :=
  { s with
    kernel := k
    given := fun ref => if born s.kernel k ref then none else s.given ref
    accepts := fun ref => if born s.kernel k ref then none else s.accepts ref }

def mark (fd : UInt32) (last : LastAccept) : Server :=
  { s with
    accepts := fun ref => if s.kernel.fds.table.get? fd = some (.socket ref) then some last else s.accepts ref }

def give (fd : UInt32) : Option TcpListener → Server
  | none => s
  | some listener =>
    { s with
      given := fun ref =>
        if s.kernel.fds.table.get? fd = some (.socket ref) then listener.localPort else s.given ref }

def settle : Accept → Server
  | .returns _ k => { s.withKernel k with call := none }
  | .waits (.accept call listener) k =>
    { (s.mark call.fd .waiting).withKernel k with call := some (.accept call listener) }
  | .waits on k => { s.withKernel k with call := some on }

def resume (on : Waiting) : ServerAct → Option Server
  | .bound answer =>
    match on with
    | .bind call _ _ => some ((s.give call.fd answer).settle (acceptBound s.kernel call answer))
    | _ => none
  | .connected answer =>
    match on with
    | .accept call listener =>
      let (value, k) := acceptConnected s.kernel call listener answer
      let last := if 0 ≤ value then .returned else .failed
      some { (s.mark call.fd last).withKernel k with call := none }
    | _ => none
  | .connectedUnix answer =>
    match on with
    | .acceptUnix call =>
      some { s.withKernel (acceptConnectedUnix s.kernel call answer).2 with call := none }
    | _ => none
  | _ => none

/-- Other calls on a socket leave its listener, and the address unless it is a Unix
socket. -/
def socketCall (ref : Nat) (new : SocketInner) : Server :=
  let old := s.kernel.cells.sockets.read ref
  s.withKernel (setSocket s.kernel ref
    { new with
      kind := old.kind
      bound := if old.familyUnix then new.bound else old.bound
      listener := old.listener
      familyUnix := old.familyUnix })

def isSocket (r : Resource) : Bool := r.socket?.isSome

def insertsSocket : FdCall → Bool
  | .insert r _ => isSocket r
  | _ => false

/-- A call of the guest. Calls on other resources change cells that are no sockets, and
what is at a descriptor that is none. -/
def callOf : ServerAct → Option Server
  | .memory m => some (s.withKernel { s.kernel with memory := m })
  | .cells c => some (s.withKernel { s.kernel with cells := { c with sockets := s.kernel.cells.sockets } })
  | .table c =>
    if insertsSocket c then none
    else (c.run s.kernel.fds).map fun (_, fds) => s.withKernel { s.kernel with fds }
  | .update fd r =>
    if isSocket r ∨ (s.kernel.fds.table.get? fd).any isSocket then none
    else some (s.withKernel { s.kernel with fds.table := s.kernel.fds.table.insert fd r })
  | .socketCall ref new => some (s.socketCall ref new)
  | .socket family typeAndFlags => some (s.withKernel (Sys.socket s.kernel family typeAndFlags).2)
  | .bind fd addrPtr addrLen host => some (s.withKernel (Sys.bind s.kernel fd addrPtr addrLen host).2)
  | .listen fd backlog => some (s.withKernel (Sys.listen s.kernel fd backlog).2)
  | .accept4 fd addrPtr addrlenPtr flags cloned =>
    some (s.settle (Sys.accept4 s.kernel fd addrPtr addrlenPtr flags cloned))
  | _ => none

def next (a : ServerAct) : Option Server :=
  match s.call with
  | none => s.callOf a
  | some on => s.resume on a

end Server

/-- A listener that the host has bound has a port, and it is not 0. -/
def HostGivesPort (_ : Server) : ServerAct → Prop
  | .bound (some listener) => ∃ port, listener.localPort = some port ∧ port ≠ 0
  | _ => True

/-- The address of a socket in a snapshot has this port, which is not 0. -/
def RecordsPort (snap : KernelSnapshot) (fd : UInt32) (port : UInt16) : Prop :=
  port ≠ 0 ∧ ∃ socket addr, { fd, kind := .fromSocket socket } ∈ snap.fds.entries ∧
    socket.bound = some (.v4 port addr)

-- ---------------------------------------------------------------------------
-- What the calls do to the listeners
-- ---------------------------------------------------------------------------

def listenerAt (k : Kernel) (ref : Nat) : Option TcpListener := (k.cells.sockets.read ref).listener

/-- Listeners stay where they are, and a new socket has none. -/
def Keeps (k k' : Kernel) : Prop :=
  ∀ ref, listenerAt k' ref = if born k k' ref then none else listenerAt k ref

variable {k k' : Kernel} {s s' : Server}

theorem born_same (h : k'.cells.sockets.next = k.cells.sockets.next) : born k k' ref = false := by
  simp only [born, h, Bool.and_eq_false_iff, decide_eq_false_iff_not]
  omega

theorem Keeps.of_same (h : k'.cells.sockets = k.cells.sockets) : Keeps k k' := by
  intro ref
  rw [born_same (congrArg Heap.next h), listenerAt, h]
  rfl

theorem listenerAt_setSocket (k : Kernel) (ref ref' : Nat) (new : SocketInner) :
    listenerAt (setSocket k ref new) ref' = if ref' = ref then new.listener else listenerAt k ref' := by
  simp only [listenerAt, setSocket, Heap.read_write]
  split <;> rfl

theorem born_setSocket (k : Kernel) (ref ref' : Nat) (new : SocketInner) :
    born k (setSocket k ref new) ref' = false := born_same rfl

theorem Keeps.setSocket (h : new.listener = listenerAt k ref) : Keeps k (setSocket k ref new) := by
  intro ref'
  rw [born_setSocket, listenerAt_setSocket, h]
  simp only [Bool.false_eq_true, if_false, ite_eq_right_iff]
  rintro rfl
  rfl

theorem insertSocket_next (k : Kernel) (new : SocketInner) :
    (insertSocket k new).2.cells.sockets.next = k.cells.sockets.next + 1 := rfl

theorem born_insertSocket (hn : k'.cells.sockets.next = k.cells.sockets.next) :
    born k (insertSocket k' new).2 ref = decide (ref = k.cells.sockets.next) := by
  rw [born, insertSocket_next, hn, Bool.eq_iff_iff]
  simp only [Bool.and_eq_true, decide_eq_true_eq]
  omega

theorem listenerAt_insertSocket (h : new.listener = none) : listenerAt (insertSocket k new).2 ref =
    if ref = k.cells.sockets.next then none else listenerAt k ref := by
  simp only [listenerAt, insertSocket, Heap.read_alloc]
  split
  · exact h
  · rfl

theorem Keeps.insertSocket (h : new.listener = none) : Keeps k (insertSocket k new).2 := by
  intro ref
  rw [born_insertSocket rfl, listenerAt_insertSocket h]
  simp only [decide_eq_true_eq]

theorem keeps_socket (k : Kernel) (family typeAndFlags : Int) :
    Keeps k (Sys.socket k family typeAndFlags).2 := by
  unfold Sys.socket
  dsimp only
  split
  · exact .of_same rfl
  · apply Keeps.insertSocket
    split <;> rfl

theorem keeps_bind (k : Kernel) (fd addrPtr addrLen : Int) (host : BindHost) :
    Keeps k (Sys.bind k fd addrPtr addrLen host).2 := by
  unfold Sys.bind
  dsimp only
  repeat' split
  all_goals first | exact .of_same rfl | exact .setSocket rfl

theorem keeps_listen (k : Kernel) (fd backlog : Int) : Keeps k (Sys.listen k fd backlog).2 := by
  unfold Sys.listen
  dsimp only
  repeat' split
  all_goals first | exact .of_same rfl | exact .setSocket rfl

theorem keeps_acceptConnectedUnix (k : Kernel) (call : AcceptCall) (answer : Option (Option PathBuf)) :
    Keeps k (acceptConnectedUnix k call answer).2 := by
  cases answer with
  | none => exact .of_same rfl
  | some path =>
    unfold acceptConnectedUnix
    exact Keeps.insertSocket (k := { k with memory := _ }) rfl

/-- An `accept4` that waits for a connection has taken the listener of its socket. -/
inductive Begins (k : Kernel) : Accept → Prop
  | returns (h : Keeps k after) : Begins k (.returns value after)
  | bind (h : listenerAt k ref = none) (hfd : k.fds.table.get? call.fd = some (.socket ref)) :
      Begins k (.waits (.bind call port addr) k)
  | accept (hfd : k.fds.table.get? call.fd = some (.socket ref)) (h : listenerAt k ref = some listener) :
      Begins k (.waits (.accept call listener)
        (setSocket k ref { k.cells.sockets.read ref with listener := none }))
  | unix : Begins k (.waits (.acceptUnix call) k)

theorem begins_takeListener (k : Kernel) (call : AcceptCall) : Begins k (takeListener k call) := by
  unfold takeListener
  split
  · exact .returns (.of_same rfl)
  · rename_i ref hget
    dsimp only
    split
    · rename_i listener hl
      exact .accept (FdTable.get_ok.mp hget) hl
    · exact .returns (.of_same rfl)
  · exact .returns (.of_same rfl)

theorem begins_accept4Unix (k : Kernel) (call : AcceptCall) (ref : Nat) (cloned : Bool) :
    Begins k (accept4Unix k call ref cloned) := by
  unfold accept4Unix
  dsimp only
  repeat' split
  all_goals first
    | exact .unix
    | exact .returns (.of_same rfl)
    | exact .returns (.setSocket rfl)

theorem begins_accept4 (k : Kernel) (fd addrPtr addrlenPtr flags : Int) (cloned : Bool) :
    Begins k (Sys.accept4 k fd addrPtr addrlenPtr flags cloned) := by
  unfold Sys.accept4
  split
  · exact .returns (.of_same rfl)
  · split
    · exact .returns (.of_same rfl)
    · exact .returns (.of_same rfl)
    · split
      · exact .returns (.of_same rfl)
      · rename_i ref hget
        dsimp only
        split
        · exact begins_accept4Unix ..
        · split
          · exact .returns (.of_same rfl)
          · split
            · split
              · rename_i hnone
                apply Begins.bind (Option.isNone_iff_eq_none.mp hnone)
                exact FdTable.get_ok.mp hget
              · exact begins_takeListener ..
            · exact .returns (.of_same rfl)
            · exact .returns (.of_same rfl)
      · exact .returns (.of_same rfl)

theorem acceptBound_some (hfd : k.fds.table.get? call.fd = some (.socket ref)) (h : listenerAt k ref = none)
    (listener : TcpListener) : ∃ new, new.listener = none ∧
      acceptBound k call (some listener) = .waits (.accept call listener) (setSocket k ref new) := by
  have hnone : (k.cells.sockets.read ref).listener.isNone = true := Option.isNone_iff_eq_none.mpr h
  refine ⟨{ k.cells.sockets.read ref with listener := none, isAcceptor := true }, rfl, ?_⟩
  simp only [acceptBound, FdTable.get_ok.mpr hfd, hnone, if_true, takeListener, setSocket, Heap.write,
    Function.update_self, Function.update_idem]

theorem putListener_eq (hfd : k.fds.table.get? fd = some (.socket ref)) (h : listenerAt k ref = none)
    (memory : Option MemoryKind) (listener : TcpListener) : putListener { k with memory } fd listener =
      setSocket { k with memory } ref { k.cells.sockets.read ref with listener := some listener } := by
  have hnone : (k.cells.sockets.read ref).listener.isNone = true := Option.isNone_iff_eq_none.mpr h
  simp only [putListener, FdTable.get_ok.mpr hfd, hnone, if_true]

theorem acceptConnected_cases (hfd : k.fds.table.get? call.fd = some (.socket ref))
    (h : listenerAt k ref = none) (listener : TcpListener) (answer : Option SockAddr) :
    ((acceptConnected k call listener answer).1 < 0 ∧ (acceptConnected k call listener answer).2 = k) ∨
      (0 ≤ (acceptConnected k call listener answer).1 ∧
        ∃ memory old new, old.listener = some listener ∧ new.listener = none ∧
          (acceptConnected k call listener answer).2 =
            (insertSocket (setSocket { k with memory } ref old) new).2) := by
  have hio : - Errno.EIO < 0 := by decide
  have hfamily : -EOPNOTSUPP < 0 := by decide
  cases answer with
  | none => exact .inl ⟨hio, rfl⟩
  | some peer =>
    unfold acceptConnected
    dsimp only
    split
    · exact .inl ⟨hfamily, rfl⟩
    · exact .inl ⟨hfamily, rfl⟩
    · rw [putListener_eq hfd h]
      exact .inr ⟨Int.natCast_nonneg _, _, _, _, rfl, rfl, rfl⟩

-- ---------------------------------------------------------------------------
-- Where the listeners are
-- ---------------------------------------------------------------------------

/-- What the call that waits knows of its socket. -/
def Server.CallOk (s : Server) : Waiting → Prop
  | .bind call _ _ => ∃ ref, s.kernel.fds.table.get? call.fd = some (.socket ref) ∧
      listenerAt s.kernel ref = none
  | .accept call listener => ∃ ref, s.kernel.fds.table.get? call.fd = some (.socket ref) ∧
      listenerAt s.kernel ref = none ∧ listener.localPort = s.given ref
  | .acceptUnix _ => True

structure Server.Ok (s : Server) : Prop where
  home : ∀ ref, (listenerAt s.kernel ref).isSome ↔ s.accepts ref = some .returned
  port : ∀ ref listener, listenerAt s.kernel ref = some listener → listener.localPort = s.given ref
  nonzero : ∀ ref, s.given ref ≠ some 0
  call : ∀ on, s.call = some on → s.CallOk on

theorem Server.start_ok (args : List String) (env : List (String × String)) (vfs : Vfs) (seed : RngSeed) :
    (start (.new args env vfs seed)).Ok where
  home ref := by
    constructor
    · intro h
      cases h
    · intro h
      cases h
  port ref listener h := by cases h
  nonzero ref h := by cases h
  call on h := by cases h

theorem Server.Ok.keeps (h : s.Ok) (hk : Keeps s.kernel k) (c : Option Waiting)
    (hcall : ∀ on, c = some on → ({ s.withKernel k with call := c } : Server).CallOk on) :
    ({ s.withKernel k with call := c } : Server).Ok where
  home ref := by
    have hl : listenerAt k ref = _ := hk ref
    simp only [Server.withKernel, hl]
    split
    · simp
    · exact h.home ref
  port ref listener hl := by
    have hl' : listenerAt k ref = _ := hk ref
    simp only [Server.withKernel] at hl ⊢
    rw [hl'] at hl
    split at hl
    · cases hl
    · rename_i hborn
      rw [if_neg hborn]
      exact h.port ref listener hl
  nonzero ref := by
    simp only [Server.withKernel]
    split
    · exact Option.some_ne_none _ ∘ Eq.symm
    · exact h.nonzero ref
  call := hcall

theorem Server.Ok.ends (h : s.Ok) (hk : Keeps s.kernel k) :
    ({ s.withKernel k with call := none } : Server).Ok := by
  apply h.keeps hk none
  intro on hon
  cases hon

/-- A call waits for a connection and has the listener. -/
theorem Server.Ok.takes (h : s.Ok) (hfd : s.kernel.fds.table.get? c.fd = some (.socket ref))
    (hport : listener.localPort = s.given ref) (hnew : new.listener = none) :
    (s.settle (.waits (.accept c listener) (setSocket s.kernel ref new))).Ok where
  home ref' := by
    simp only [Server.settle, Server.withKernel, Server.mark, born_setSocket, Bool.false_eq_true, if_false,
      listenerAt_setSocket, hfd, Option.some.injEq, Resource.socket.injEq, hnew, eq_comm (a := ref)]
    split
    · simp
    · exact h.home ref'
  port ref' listener hl := by
    simp only [Server.settle, Server.withKernel, Server.mark, born_setSocket, Bool.false_eq_true, if_false,
      listenerAt_setSocket, hnew] at hl ⊢
    split at hl
    · cases hl
    · exact h.port ref' listener hl
  nonzero ref' := by
    simp only [Server.settle, Server.withKernel, Server.mark, born_setSocket, Bool.false_eq_true, if_false]
    exact h.nonzero ref'
  call on hon := by
    cases hon
    refine ⟨ref, hfd, ?_, ?_⟩
    · simp only [Server.settle, Server.withKernel, listenerAt_setSocket, if_true, hnew]
    · simp only [Server.settle, Server.withKernel, Server.mark, born_setSocket, Bool.false_eq_true, if_false]
      exact hport

theorem Server.Ok.begins (h : s.Ok) (hb : Begins s.kernel r) : (s.settle r).Ok := by
  cases hb with
  | returns hk => exact h.ends hk
  | bind hnone hfd =>
    apply h.keeps (.of_same rfl)
    rintro on ⟨rfl⟩
    exact ⟨_, hfd, hnone⟩
  | accept hfd hl => exact h.takes hfd (h.port _ _ hl) rfl
  | unix =>
    apply h.keeps (.of_same rfl)
    rintro on ⟨rfl⟩
    trivial

theorem Server.Ok.give (h : s.Ok) (hfd : s.kernel.fds.table.get? fd = some (.socket ref))
    (hnone : listenerAt s.kernel ref = none) (hport : ∃ port, listener.localPort = some port ∧ port ≠ 0) :
    ({ s.give fd (some listener) with call := none } : Server).Ok where
  home := h.home
  port ref' listener' hl := by
    simp only [Server.give, hfd, Option.some.injEq, Resource.socket.injEq]
    split
    · rename_i heq
      subst heq
      cases hnone.symm.trans hl
    · exact h.port ref' listener' hl
  nonzero ref' := by
    simp only [Server.give]
    split
    · obtain ⟨port, hp, hne⟩ := hport
      rw [hp]
      exact fun heq => hne (Option.some.inj heq)
    · exact h.nonzero ref'
  call on hon := by cases hon

theorem Server.Ok.bound (h : s.Ok) (hcall : s.CallOk (.bind c p addr))
    (hhost : HostGivesPort s (.bound answer)) :
    ((s.give c.fd answer).settle (acceptBound s.kernel c answer)).Ok := by
  obtain ⟨ref, hfd, hnone⟩ := hcall
  cases answer with
  | none => exact h.ends (.of_same rfl)
  | some listener =>
    obtain ⟨new, hnew, hres⟩ := acceptBound_some hfd hnone listener
    rw [hres]
    refine (h.give hfd hnone hhost).takes hfd ?_ hnew
    simp only [Server.give, hfd, if_true]

theorem Server.Ok.returns (h : s.Ok) (hfd : s.kernel.fds.table.get? fd = some (.socket ref))
    (hport : listener.localPort = s.given ref) (hold : old.listener = some listener)
    (hnew : new.listener = none) (memory : Option MemoryKind) :
    ({ (s.mark fd .returned).withKernel (insertSocket (setSocket { s.kernel with memory } ref old) new).2 with
      call := none } : Server).Ok := by
  have hl : ∀ ref', listenerAt (insertSocket (setSocket { s.kernel with memory } ref old) new).2 ref' =
      if ref' = s.kernel.cells.sockets.next then none
      else if ref' = ref then some listener else listenerAt s.kernel ref' := by
    intro ref'
    rw [listenerAt_insertSocket hnew, listenerAt_setSocket, hold]
    rfl
  have hborn : ∀ ref', born s.kernel (insertSocket (setSocket { s.kernel with memory } ref old) new).2 ref' =
      decide (ref' = s.kernel.cells.sockets.next) := fun ref' => born_insertSocket rfl
  refine ⟨fun ref' => ?_, fun ref' listener' hl' => ?_, fun ref' => ?_, fun on hon => by cases hon⟩
  · simp only [Server.withKernel, Server.mark, hl, hborn, decide_eq_true_eq, hfd, Option.some.injEq,
      Resource.socket.injEq, eq_comm (a := ref)]
    split
    · simp
    · split
      · simp
      · exact h.home ref'
  · simp only [Server.withKernel, Server.mark, hl, hborn, decide_eq_true_eq] at hl' ⊢
    split at hl'
    · cases hl'
    · rename_i hold
      rw [if_neg hold]
      split at hl'
      · rename_i heq
        cases hl'
        rw [heq, hport]
      · exact h.port ref' listener' hl'
  · simp only [Server.withKernel, Server.mark, hborn, decide_eq_true_eq]
    split
    · exact Option.some_ne_none _ ∘ Eq.symm
    · exact h.nonzero ref'

/-- A listener whose `accept` failed is lost. -/
theorem Server.Ok.fails (h : s.Ok) (hfd : s.kernel.fds.table.get? fd = some (.socket ref))
    (hnone : listenerAt s.kernel ref = none) :
    ({ (s.mark fd .failed).withKernel s.kernel with call := none } : Server).Ok := by
  have hborn : ∀ ref', born s.kernel s.kernel ref' = false := fun ref' => born_same rfl
  refine ⟨fun ref' => ?_, fun ref' listener' hl' => ?_, fun ref' => ?_, fun on hon => by cases hon⟩
  · simp only [Server.withKernel, Server.mark, hborn, Bool.false_eq_true, if_false, hfd, Option.some.injEq,
      Resource.socket.injEq]
    split
    · rename_i heq
      subst heq
      simp [hnone]
    · exact h.home ref'
  · simp only [Server.withKernel, Server.mark, hborn, Bool.false_eq_true, if_false] at hl' ⊢
    exact h.port ref' listener' hl'
  · simp only [Server.withKernel, Server.mark, hborn, Bool.false_eq_true, if_false]
    exact h.nonzero ref'

theorem Server.Ok.resume (h : s.Ok) (hcall : s.CallOk on) (hhost : HostGivesPort s a)
    (hs : s.resume on a = some s') : s'.Ok := by
  cases a with
  | bound answer =>
    cases on with
    | bind c port addr =>
      cases hs
      exact h.bound hcall hhost
    | _ => cases hs
  | connected answer =>
    cases on with
    | accept c listener =>
      simp only [Server.resume, Option.some.injEq] at hs
      subst hs
      obtain ⟨ref, hfd, hnone, hport⟩ := hcall
      rcases acceptConnected_cases hfd hnone listener answer with
        ⟨hneg, hk⟩ | ⟨hpos, memory, old, new, hold, hnew, hk⟩
      · rw [if_neg (Int.not_le.mpr hneg), hk]
        exact h.fails hfd hnone
      · rw [if_pos hpos, hk]
        exact h.returns hfd hport hold hnew memory
    | _ => cases hs
  | connectedUnix answer =>
    cases on with
    | acceptUnix c =>
      cases hs
      exact h.ends (keeps_acceptConnectedUnix _ _ _)
    | _ => cases hs
  | _ => cases hs

/-- A call that ends, and moves no listener. -/
theorem Server.Ok.quiet (h : s.Ok) (hcall : s.call = none) (hk : Keeps s.kernel k) :
    (s.withKernel k).Ok := by
  have hsame : ({ s.withKernel k with call := none } : Server) = s.withKernel k := by
    rw [← hcall]
    rfl
  rw [← hsame]
  exact h.ends hk

theorem Server.Ok.callOf (h : s.Ok) (hcall : s.call = none) (hs : s.callOf a = some s') : s'.Ok := by
  cases a with
  | memory m =>
    cases hs
    exact h.quiet hcall (.of_same rfl)
  | cells c =>
    cases hs
    exact h.quiet hcall (.of_same rfl)
  | table c =>
    simp only [Server.callOf] at hs
    split at hs
    · cases hs
    · obtain ⟨r, -, rfl⟩ := Option.map_eq_some_iff.mp hs
      exact h.quiet hcall (.of_same rfl)
  | update fd r =>
    simp only [Server.callOf] at hs
    split at hs
    · cases hs
    · cases hs
      exact h.quiet hcall (.of_same rfl)
  | socketCall ref new =>
    cases hs
    exact h.quiet hcall (.setSocket rfl)
  | socket family typeAndFlags =>
    cases hs
    exact h.quiet hcall (keeps_socket _ _ _)
  | bind fd addrPtr addrLen host =>
    cases hs
    exact h.quiet hcall (keeps_bind _ _ _ _ _)
  | listen fd backlog =>
    cases hs
    exact h.quiet hcall (keeps_listen _ _ _)
  | accept4 fd addrPtr addrlenPtr flags cloned =>
    cases hs
    exact h.begins (begins_accept4 ..)
  | _ => cases hs

theorem Server.Ok.next (h : s.Ok) (hhost : HostGivesPort s a) (hs : s.next a = some s') : s'.Ok := by
  unfold Server.next at hs
  split at hs
  · rename_i hcall
    exact h.callOf hcall hs
  · rename_i on hcall
    exact h.resume (h.call on hcall) hhost hs

theorem Server.reaches_ok (args : List String) (env : List (String × String)) (vfs : Vfs) (seed : RngSeed)
    (h : Reaches Server.next HostGivesPort (start (.new args env vfs seed)) s) : s.Ok := by
  apply h.invariant
  · exact start_ok args env vfs seed
  · intro s a s' hok hhost hs
    exact hok.next hhost hs

-- ---------------------------------------------------------------------------
-- The recorded port
-- ---------------------------------------------------------------------------

theorem recordsPort_iff (hfd : k.fds.table.get? fd = some (.socket ref))
    (hbound : (k.cells.sockets.read ref).bound = some (.v4 0 addr)) (pages : List MemoryPageSnapshot) :
    RecordsPort (buildKernelSnapshot k pages) fd port ↔
      port ≠ 0 ∧ (listenerAt k ref).bind TcpListener.localPort = some port := by
  have hentry : ∀ socket, ({ fd, kind := .fromSocket socket } : FdEntrySnapshot) ∈
      (buildKernelSnapshot k pages).fds.entries ↔
        socket = recordPort (k.cells.sockets.read ref) (k.cells.sockets.read ref).snapshot := by
    intro socket
    refine mem_fdSnapshot_iff.trans ?_
    simp only [hfd, Option.some.injEq, exists_eq_left', resourceSnapshot, ResourceSnapshot.fromSocket,
      ResourceSnapshot.mk.injEq, ResourceBody.mk.injEq, true_and, and_true]
  have hrec : ∀ addr', (recordPort (k.cells.sockets.read ref) (k.cells.sockets.read ref).snapshot).bound =
      some (.v4 port addr') ↔
        ((listenerAt k ref).bind TcpListener.localPort).getD 0 = port ∧ addr = addr' := by
    intro addr'
    simp only [recordPort, listenerAt, SocketInner.snapshot, hbound]
    cases (k.cells.sockets.read ref).listener.bind TcpListener.localPort with
    | none => simp
    | some actual => simp
  have hsome : RecordsPort (buildKernelSnapshot k pages) fd port ↔
      port ≠ 0 ∧ ((listenerAt k ref).bind TcpListener.localPort).getD 0 = port := by
    constructor
    · rintro ⟨hne, socket, addr', hmem, haddr⟩
      rw [(hentry socket).mp hmem] at haddr
      exact ⟨hne, ((hrec addr').mp haddr).1⟩
    · rintro ⟨hne, hp⟩
      exact ⟨hne, _, addr, (hentry _).mpr rfl, (hrec addr).mpr ⟨hp, rfl⟩⟩
  rw [hsome, and_congr_right_iff]
  intro hne
  cases (listenerAt k ref).bind TcpListener.localPort with
  | none => simp [eq_comm, hne]
  | some actual => simp

/-- In every state in which a guest can be frozen: the port of a socket bound to port 0,
whose own address still reads port 0, is recorded exactly when its listener is at home, that
is when the last `accept4` that waited for a connection on it returned with one. -/
theorem records_port_iff_returned (args : List String) (env : List (String × String)) (vfs : Vfs)
    (seed : RngSeed) (h : Reaches Server.next HostGivesPort (.start (.new args env vfs seed)) s)
    (hfd : s.kernel.fds.table.get? fd = some (.socket ref))
    (hbound : (s.kernel.cells.sockets.read ref).bound = some (.v4 0 addr))
    (hport : s.given ref = some port) (pages : List MemoryPageSnapshot) :
    RecordsPort (buildKernelSnapshot s.kernel pages) fd port ↔ s.accepts ref = some .returned := by
  have hok := Server.reaches_ok args env vfs seed h
  have hne : port ≠ 0 := by
    rintro rfl
    exact hok.nonzero ref hport
  rw [recordsPort_iff hfd hbound, ← hok.home ref]
  cases hl : listenerAt s.kernel ref with
  | none => simp
  | some listener => simp [hne, hok.port ref listener hl, hport]

-- ---------------------------------------------------------------------------
-- One server
-- ---------------------------------------------------------------------------

/-- `127.0.0.1`, port 0. -/
def loopbackAny : List UInt8 := [2, 0, 0, 0, 127, 0, 0, 1, 0, 0, 0, 0, 0, 0, 0, 0]

theorem loopbackAny_fits : 16 + loopbackAny.length ≤ LinearMemory.zeroPage.size := by
  rw [LinearMemory.zeroPage_size]
  decide

def loopback : Vector UInt8 4 := LOCALHOST

theorem parse_loopbackAny {m : LinearMemory} (h : m.load 16 16 = some loopbackAny) :
    Paths.parseSockaddr (some (.owned m)) 16 16 = .ok (.v4 0 loopback) := by
  have hheader : guestSlice (some (.owned m)) 16 2 = .ok [2, 0] := guestSlice_of_load (k := 2) h (by decide)
  have hbytes : guestSlice (some (.owned m)) 16 Paths.SOCKADDR_IN_SIZE = .ok loopbackAny :=
    guestSlice_of_load (k := 16) h (by decide)
  unfold Paths.parseSockaddr
  rw [if_neg (by decide), if_neg (by decide), hheader, hbytes]
  rfl

def listeningSocket : SocketInner :=
  { SocketInner.new .stream false with bound := some (.v4 0 loopback), listenBacklog := some 5 }

def serverKernel (memory : Option MemoryKind) (inner : SocketInner) : Kernel :=
  let k := Kernel.new [] [] { root := "/", cwd := "/" } (Vector.replicate 32 0)
  (insertSocket { k with memory } inner).2

theorem setSocket_serverKernel (memory : Option MemoryKind) (inner new : SocketInner) :
    setSocket (serverKernel memory inner) 0 new = serverKernel memory new := by
  unfold setSocket serverKernel insertSocket
  simp only [Heap.write, Heap.alloc]
  congr 2
  exact congrArg (Heap.mk · 1) (Function.update_idem ..)

def noHost : BindHost := { unix := .error 0, datagram := .error 0 }

/-- A guest of a new kernel can come to have this kernel, in this call. -/
def CanHave (k : Kernel) (call : Option Waiting) : Prop :=
  ∃ s, Reaches Server.next HostGivesPort
    (.start (.new [] [] { root := "/", cwd := "/" } (Vector.replicate 32 0))) s ∧ s.kernel = k ∧ s.call = call

theorem CanHave.quiet (h : CanHave k none) (a : ServerAct) (hhost : ∀ s, HostGivesPort s a)
    (ha : ∀ s : Server, s.kernel = k → s.callOf a = some (s.withKernel k')) : CanHave k' none := by
  obtain ⟨s, hreach, hk, hcall⟩ := h
  have hnext : s.next a = some (s.withKernel k') := by
    rw [Server.next, hcall]
    exact ha s hk
  exact ⟨_, hreach.step (hhost s) hnext, rfl, hcall⟩

/-- The guest makes the socket, binds it and listens. -/
theorem canHave_listening {m : LinearMemory} (h : m.load 16 16 = some loopbackAny) :
    CanHave (serverKernel (some (.owned m)) listeningSocket) none := by
  have hmemory : CanHave { Kernel.new [] [] { root := "/", cwd := "/" } (Vector.replicate 32 0) with
      memory := some (.owned m) } none := by
    have hstart : CanHave (Kernel.new [] [] { root := "/", cwd := "/" } (Vector.replicate 32 0)) none :=
      ⟨_, .start, rfl, rfl⟩
    refine hstart.quiet (.memory (some (.owned m))) (fun _ => trivial) ?_
    rintro s hk
    rw [Server.callOf, hk]
  have hsocket : CanHave (serverKernel (some (.owned m)) (.new .stream false)) none := by
    refine hmemory.quiet (.socket 2 1) (fun _ => trivial) ?_
    rintro s hk
    rw [Server.callOf, hk]
    rfl
  have hbind : CanHave (serverKernel (some (.owned m))
      { SocketInner.new .stream false with bound := some (.v4 0 loopback) }) none := by
    refine hsocket.quiet (.bind 3 16 16 noHost) (fun _ => trivial) ?_
    rintro s hk
    have hparse : Paths.parseSockaddr (serverKernel (some (.owned m)) (.new .stream false)).memory 16 16 =
        .ok (.v4 0 loopback) := parse_loopbackAny h
    have hres : (Sys.bind (serverKernel (some (.owned m)) (.new .stream false)) 3 16 16 noHost).2 =
        serverKernel (some (.owned m)) { SocketInner.new .stream false with bound := some (.v4 0 loopback) } := by
      refine Eq.trans ?_ (setSocket_serverKernel _ (.new .stream false) _)
      unfold Sys.bind
      rw [hparse]
      rfl
    rw [Server.callOf, hk, hres]
  refine hbind.quiet (.listen 3 5) (fun _ => trivial) ?_
  rintro s hk
  rw [Server.callOf, hk]
  exact congrArg (fun k => some (s.withKernel k)) (setSocket_serverKernel _ _ listeningSocket)

def acceptThree : AcceptCall :=
  { fd := 3, addrPtr := 0, addrlenPtr := 0, kind := .stream, nonblock := false }

def somePort : TcpListener := { localPort := some 40000 }

theorem acceptBound_serverKernel (memory : Option MemoryKind) :
    acceptBound (serverKernel memory listeningSocket) acceptThree (some somePort) =
      .waits (.accept acceptThree somePort)
        (serverKernel memory { listeningSocket with isAcceptor := true }) := by
  have hbound : acceptBound (serverKernel memory listeningSocket) acceptThree (some somePort) =
      takeListener (setSocket (serverKernel memory listeningSocket) 0
        { listeningSocket with listener := some somePort, isAcceptor := true }) acceptThree := rfl
  rw [hbound, setSocket_serverKernel]
  exact congrArg (Accept.waits _) (setSocket_serverKernel ..)

/-- The guest waits in `accept4`; the host gave its listener port 40000. -/
theorem canHave_parked {m : LinearMemory} (h : m.load 16 16 = some loopbackAny) :
    CanHave (serverKernel (some (.owned m)) { listeningSocket with isAcceptor := true })
      (some (.accept acceptThree somePort)) := by
  have hbinding : CanHave (serverKernel (some (.owned m)) listeningSocket)
      (some (.bind acceptThree 0 loopback)) := by
    obtain ⟨s, hreach, hk, hcall⟩ := canHave_listening h
    have hnext : s.next (.accept4 3 0 0 0 true) = some { s.withKernel
        (serverKernel (some (.owned m)) listeningSocket) with call := some (.bind acceptThree 0 loopback) } := by
      rw [Server.next, hcall, Server.callOf, hk]
      rfl
    exact ⟨_, hreach.step (a := .accept4 3 0 0 0 true) trivial hnext, rfl, rfl⟩
  obtain ⟨s, hreach, hk, hcall⟩ := hbinding
  have hnext : s.next (.bound (some somePort)) = some ((s.give 3 (some somePort)).settle
      (.waits (.accept acceptThree somePort)
        (serverKernel (some (.owned m)) { listeningSocket with isAcceptor := true }))) := by
    rw [Server.next, hcall]
    simp only [Server.resume, hk, acceptBound_serverKernel]
    rfl
  exact ⟨_, hreach.step (a := .bound (some somePort)) ⟨40000, rfl, by decide⟩ hnext, rfl, rfl⟩

def homeSocket : SocketInner := { listeningSocket with listener := some somePort, isAcceptor := true }

def peerSocket : SocketInner := { SocketInner.new .stream false with peerAddr := some (.v4 50000 loopback) }

/-- A connection came, and `accept4` has returned. -/
theorem canHave_returned {m : LinearMemory} (h : m.load 16 16 = some loopbackAny) :
    CanHave (insertSocket (serverKernel (some (.owned m)) homeSocket) peerSocket).2 none := by
  obtain ⟨s, hreach, hk, hcall⟩ := canHave_parked h
  have hres : acceptConnected (serverKernel (some (.owned m)) { listeningSocket with isAcceptor := true })
      acceptThree somePort (some (.v4 50000 loopback)) =
        (4, (insertSocket (serverKernel (some (.owned m)) homeSocket) peerSocket).2) := by
    rw [← setSocket_serverKernel _ { listeningSocket with isAcceptor := true } homeSocket]
    rfl
  have hnext : s.next (.connected (some (.v4 50000 loopback))) = some { (s.mark 3 .returned).withKernel
      (insertSocket (serverKernel (some (.owned m)) homeSocket) peerSocket).2 with call := none } := by
    rw [Server.next, hcall]
    simp only [Server.resume, hk, hres]
    rfl
  exact ⟨_, hreach.step (a := .connected (some (.v4 50000 loopback))) trivial hnext, rfl, rfl⟩

def serverMemory : LinearMemory := LinearMemory.zeroPage.write 16 loopbackAny loopbackAny_fits

theorem serverMemory_load : serverMemory.load 16 16 = some loopbackAny :=
  LinearMemory.load_write loopbackAny_fits

/-- Frozen after a connection, the server has its port in the snapshot. -/
theorem records_port_iff_returned_once : ∃ s,
    Reaches Server.next HostGivesPort
      (.start (.new [] [] { root := "/", cwd := "/" } (Vector.replicate 32 0))) s ∧
    s.kernel.fds.table.get? 3 = some (.socket 0) ∧
    (s.kernel.cells.sockets.read 0).bound = some (.v4 0 loopback) ∧ s.given 0 = some 40000 ∧
    RecordsPort (buildKernelSnapshot s.kernel []) 3 40000 := by
  obtain ⟨s, hreach, hk, -⟩ := canHave_returned serverMemory_load
  have hok := Server.reaches_ok _ _ _ _ hreach
  have hfd : s.kernel.fds.table.get? 3 = some (.socket 0) := hk ▸ rfl
  have hbound : (s.kernel.cells.sockets.read 0).bound = some (.v4 0 loopback) := hk ▸ rfl
  have hlistener : listenerAt s.kernel 0 = some somePort := hk ▸ rfl
  have hgiven : s.given 0 = some 40000 := (hok.port 0 somePort hlistener).symm
  have hreturned : s.accepts 0 = some .returned := (hok.home 0).mp (by rw [hlistener]; rfl)
  exact ⟨s, hreach, hfd, hbound, hgiven,
    (records_port_iff_returned _ _ _ _ hreach hfd hbound hgiven []).mpr hreturned⟩

/-- Frozen while it waits, it is recorded with port 0. -/
theorem parked_port_lost : ∃ s,
    Reaches Server.next HostGivesPort
      (.start (.new [] [] { root := "/", cwd := "/" } (Vector.replicate 32 0))) s ∧
    s.kernel.fds.table.get? 3 = some (.socket 0) ∧
    (s.kernel.cells.sockets.read 0).bound = some (.v4 0 loopback) ∧ s.given 0 = some 40000 ∧
    ¬ RecordsPort (buildKernelSnapshot s.kernel []) 3 40000 := by
  obtain ⟨s, hreach, hk, hcall⟩ := canHave_parked serverMemory_load
  have hok := Server.reaches_ok _ _ _ _ hreach
  have hfd : s.kernel.fds.table.get? 3 = some (.socket 0) := hk ▸ rfl
  have hbound : (s.kernel.cells.sockets.read 0).bound = some (.v4 0 loopback) := hk ▸ rfl
  obtain ⟨ref, href, hnone, hgiven⟩ := hok.call _ hcall
  obtain rfl : 0 = ref := Resource.socket.inj (Option.some.inj (hfd.symm.trans href))
  refine ⟨s, hreach, hfd, hbound, hgiven.symm, ?_⟩
  rw [recordsPort_iff hfd hbound, hnone]
  rintro ⟨-, hport⟩
  cases hport

end EdgeLibos.Snapshot
