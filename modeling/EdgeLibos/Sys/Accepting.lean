import EdgeLibos.Sys.Fcntl

/-!
# The listener of an `accept4`

An `accept4` on an IPv4 socket moves the listener out of the socket before it waits and
puts it back in one place, near its end; the Unix path moves it out and back around the
clone. What a socket accepts from is followed through whole calls, with every answer of
the host, to the next `accept4`.
-/

namespace EdgeLibos.Sys.Accepting

open Errno Lib
open Paths (SOCKADDR_IN_SIZE SOCKADDR_UN_SIZE)

inductive Holding
  | tcp (listener : TcpListener)
  | unix (path : Option PathBuf)
  deriving DecidableEq, Repr

def holding (s : SocketInner) : Option Holding :=
  if s.familyUnix then (s.unix.filter UnixSockInner.listener).map fun u => .unix u.path
  else s.listener.map .tcp

/-- An open descriptor for a listening socket, Unix or bound to an IPv4 address. -/
structure ListeningAt (k : Kernel) (sockfd : Int) (fd : UInt32) (ref : Nat) : Prop where
  number : u32Fd sockfd = some fd
  opened : k.fds.get fd = .ok (.socket ref)
  listening : isListening (k.cells.sockets.read ref) = true
  address : (k.cells.sockets.read ref).familyUnix = true ∨
    ∃ port addr, (k.cells.sockets.read ref).bound = some (.v4 port addr)

def call (k : Kernel) (sockfd addrPtr addrlenPtr flags : Int) (host : AcceptHost) : Accept :=
  ((accept4 k sockfd addrPtr addrlenPtr flags host.cloned).answered host).answered host

/-- What the socket held at the start, or what the call had the host bind for it. -/
def held (k : Kernel) (ref : Nat) (sockfd addrPtr addrlenPtr flags : Int) (host : AcceptHost) :
    Option Holding :=
  match holding (k.cells.sockets.read ref), accept4 k sockfd addrPtr addrlenPtr flags host.cloned with
  | some h, _ => some h
  | none, .waits (.bind _ _ _) _ => host.listener.map .tcp
  | none, _ => none

/-- The call waits for a connection to what is held. -/
def WaitsAt (h : Holding) : Accept → Prop
  | .waits (.accept _ listener) _ => h = .tcp listener
  | .waits (.acceptUnix _) _ => ∃ path, h = .unix path
  | _ => False

/-- The socket has what it held, for the same address, and the next call waits there. -/
structure HeldAfter (s : SocketInner) (k' : Kernel) (ref : Nat) (h : Holding) : Prop where
  holds : holding (k'.cells.sockets.read ref) = some h
  bound : (k'.cells.sockets.read ref).bound = s.bound
  backlog : (k'.cells.sockets.read ref).listenBacklog = s.listenBacklog
  next : ∀ sockfd fd, u32Fd sockfd = some fd → k'.fds.get fd = .ok (.socket ref) → ∀ flags,
    WaitsAt h (accept4 k' sockfd 0 0 flags true)

def GivesBack (k : Kernel) (ref : Nat) (sockfd addrPtr addrlenPtr flags : Int) (host : AcceptHost) : Prop :=
  ∀ h ∈ held k ref sockfd addrPtr addrlenPtr flags host,
    ∀ value k', call k sockfd addrPtr addrlenPtr flags host = .returns value k' →
      HeldAfter (k.cells.sockets.read ref) k' ref h

/-- The output pointers pass the checks at the top. -/
def OutsOk (memory : Option MemoryKind) (addrPtr addrlenPtr : Int) : Prop :=
  checkOut memory addrPtr SOCKADDR_IN_SIZE = .ok () ∧ checkOut memory addrlenPtr 4 = .ok ()

/-- The ways out that leave the listener behind. -/
def LeftBehind (k : Kernel) (ref : Nat) (addrPtr addrlenPtr : Int) (host : AcceptHost) : Prop :=
  OutsOk k.memory addrPtr addrlenPtr ∧
    if (k.cells.sockets.read ref).familyUnix then
      checkOut k.memory addrPtr SOCKADDR_UN_SIZE = .ok () ∧
        holding (k.cells.sockets.read ref) ≠ none ∧ host.cloned = false
    else
      ((k.cells.sockets.read ref).listener ≠ none ∨ host.listener ≠ none) ∧
        (host.peer = none ∨ (addrPtr ≠ 0 ∧ ∀ port addr, host.peer ≠ some (.v4 port addr)))

-- ---------------------------------------------------------------------------
-- The first phases
-- ---------------------------------------------------------------------------

variable {k k' : Kernel} {fd : UInt32} {ref : Nat} {sockfd addrPtr addrlenPtr : Int} {host : AcceptHost}

theorem not_outsOk (h : ¬ OutsOk memory addrPtr addrlenPtr) :
    ∃ e, checkOut memory addrPtr SOCKADDR_IN_SIZE = .error e ∨
      (checkOut memory addrPtr SOCKADDR_IN_SIZE = .ok () ∧ checkOut memory addrlenPtr 4 = .error e) := by
  cases haddr : checkOut memory addrPtr SOCKADDR_IN_SIZE with
  | error e => exact ⟨e, .inl rfl⟩
  | ok u =>
    cases hlen : checkOut memory addrlenPtr 4 with
    | error e => exact ⟨e, .inr ⟨rfl, rfl⟩⟩
    | ok u => exact absurd ⟨haddr, hlen⟩ h

theorem accept4_refused (hfd : u32Fd sockfd = some fd) (h : ¬ OutsOk k.memory addrPtr addrlenPtr)
    (flags : Int) (cloned : Bool) :
    ∃ e, accept4 k sockfd addrPtr addrlenPtr flags cloned = .returns e k := by
  obtain ⟨e, haddr | ⟨haddr, hlen⟩⟩ := not_outsOk h
  · exact ⟨e, by simp only [accept4, hfd, haddr]⟩
  · exact ⟨e, by simp only [accept4, hfd, haddr, hlen]⟩

theorem outsOk_null (memory : Option MemoryKind) : OutsOk memory 0 0 := ⟨rfl, rfl⟩

theorem accept4_v4 (hl : ListeningAt k sockfd fd ref) (hfamily : (k.cells.sockets.read ref).familyUnix = false)
    (houts : OutsOk k.memory addrPtr addrlenPtr) (flags : Int) (cloned : Bool) :
    ∃ c port addr, c.fd = fd ∧ c.addrPtr = addrPtr ∧ c.addrlenPtr = addrlenPtr ∧
      accept4 k sockfd addrPtr addrlenPtr flags cloned =
        match (k.cells.sockets.read ref).listener with
        | none => .waits (.bind c port addr) k
        | some l => .waits (.accept c l) (setSocket k ref { k.cells.sockets.read ref with listener := none }) := by
  obtain ⟨port, addr, hbound⟩ := hl.address.resolve_left (by simp [hfamily])
  refine ⟨⟨fd, addrPtr, addrlenPtr, (k.cells.sockets.read ref).kind,
    decide (BitVec.ofInt 32 flags &&& SOCK_NONBLOCK ≠ 0) || (k.cells.sockets.read ref).nonblock⟩, port, addr,
    rfl, rfl, rfl, ?_⟩
  cases hlistener : (k.cells.sockets.read ref).listener with
  | none =>
    simp [accept4, hl.number, houts.1, houts.2, hl.opened, hfamily, hl.listening, hbound, hlistener]
  | some l =>
    simp [accept4, hl.number, houts.1, houts.2, hl.opened, hfamily, hl.listening, hbound, hlistener,
      takeListener]

theorem accept4_unix (hl : ListeningAt k sockfd fd ref)
    (hfamily : (k.cells.sockets.read ref).familyUnix = true) (houts : OutsOk k.memory addrPtr addrlenPtr)
    (hun : checkOut k.memory addrPtr SOCKADDR_UN_SIZE = .ok ())
    (hunix : (k.cells.sockets.read ref).unix = some u) (hlistener : u.listener = true) (flags : Int) (cloned : Bool) :
    ∃ c, c.fd = fd ∧ accept4 k sockfd addrPtr addrlenPtr flags cloned =
      if cloned then .waits (.acceptUnix c) k
      else .returns (-ENOMEM)
        (setSocket k ref { k.cells.sockets.read ref with unix := some { u with listener := false } }) := by
  refine ⟨⟨fd, addrPtr, addrlenPtr, .stream, decide (BitVec.ofInt 32 flags &&& SOCK_NONBLOCK ≠ 0)⟩, rfl, ?_⟩
  simp only [accept4, hl.number, houts.1, houts.2, hl.opened, hfamily, if_true, accept4Unix, hun, hl.listening,
    hunix, hlistener]

/-- Short of the clone, the Unix path touches nothing. -/
theorem accept4_unix_refused (hl : ListeningAt k sockfd fd ref)
    (hfamily : (k.cells.sockets.read ref).familyUnix = true)
    (h : checkOut k.memory addrPtr SOCKADDR_UN_SIZE ≠ .ok ()) (flags : Int) (cloned : Bool) :
    ∃ e, accept4 k sockfd addrPtr addrlenPtr flags cloned = .returns e k := by
  by_cases houts : OutsOk k.memory addrPtr addrlenPtr
  · cases hun : checkOut k.memory addrPtr SOCKADDR_UN_SIZE with
    | ok u => exact absurd hun h
    | error e =>
      refine ⟨e, ?_⟩
      simp only [accept4, hl.number, houts.1, houts.2, hl.opened, hfamily, if_true, accept4Unix, hun]
  · exact accept4_refused hl.number houts flags cloned

-- ---------------------------------------------------------------------------
-- After the host's answers
-- ---------------------------------------------------------------------------

@[simp] theorem setSocket_fds (k : Kernel) (ref : Nat) (s : SocketInner) : (setSocket k ref s).fds = k.fds := rfl

@[simp] theorem setSocket_memory (k : Kernel) (ref : Nat) (s : SocketInner) :
    (setSocket k ref s).memory = k.memory := rfl

@[simp] theorem setSocket_next (k : Kernel) (ref : Nat) (s : SocketInner) :
    (setSocket k ref s).cells.sockets.next = k.cells.sockets.next := rfl

@[simp] theorem setSocket_read (k : Kernel) (ref : Nat) (s : SocketInner) :
    (setSocket k ref s).cells.sockets.read ref = s := Heap.read_write_same ..

theorem insertSocket_read (k : Kernel) (s : SocketInner) (hlive : ref < k.cells.sockets.next) :
    (insertSocket k s).2.cells.sockets.read ref = k.cells.sockets.read ref := Heap.read_alloc_old _ _ hlive

theorem checkOut_ok_of_outs (houts : OutsOk memory addrPtr addrlenPtr) :
    (checkOut memory addrPtr SOCKADDR_IN_SIZE).isOk = true := by
  rw [houts.1]
  rfl

/-- Phases 2 to 5: an early way out leaves the socket as it is, without a listener. -/
theorem acceptConnected_lost {c : AcceptCall} (houts : OutsOk k.memory c.addrPtr c.addrlenPtr)
    (h : peer = none ∨ (c.addrPtr ≠ 0 ∧ ∀ port addr, peer ≠ some (.v4 port addr))) (listener : TcpListener) :
    (acceptConnected k c listener peer).2 = k := by
  rcases h with rfl | ⟨hptr, hpeer⟩
  · rfl
  · cases peer with
    | none => rfl
    | some peer =>
      have hwanted : decide (c.addrPtr ≠ 0 ∧ (checkOut k.memory c.addrPtr SOCKADDR_IN_SIZE).isOk = true) = true :=
        decide_eq_true ⟨hptr, checkOut_ok_of_outs houts⟩
      cases peer with
      | v4 port addr => exact absurd rfl (hpeer port addr)
      | v6 port addr => simp only [acceptConnected, hwanted]
      | unix path => simp only [acceptConnected, hwanted]

/-- Phase 4 is reached and the socket has the listener again. -/
theorem acceptConnected_back {c : AcceptCall} (hget : k.fds.get c.fd = .ok (.socket ref))
    (hlive : ref < k.cells.sockets.next) (hnone : (k.cells.sockets.read ref).listener = none)
    (h : ¬ (peer = none ∨ (c.addrPtr ≠ 0 ∧ ∀ port addr, peer ≠ some (.v4 port addr)))) (listener : TcpListener) :
    (acceptConnected k c listener peer).2.cells.sockets.read ref =
      { k.cells.sockets.read ref with listener := some listener } := by
  obtain ⟨hsome, hv4⟩ := not_or.mp h
  obtain ⟨peer, rfl⟩ := Option.ne_none_iff_exists'.mp hsome
  have hput : ∀ memory, (putListener { k with memory } c.fd listener).cells.sockets.read ref =
      { k.cells.sockets.read ref with listener := some listener } := by
    intro memory
    simp only [putListener, hget, hnone, Option.isNone_none, if_true, setSocket_read]
  have hnext : ∀ memory, (putListener { k with memory } c.fd listener).cells.sockets.next =
      k.cells.sockets.next := by
    intro memory
    simp only [putListener, hget, hnone, Option.isNone_none, if_true, setSocket_next]
  have hkept : ∀ memory s, (insertSocket (putListener { k with memory } c.fd listener) s).2.cells.sockets.read ref =
      { k.cells.sockets.read ref with listener := some listener } := by
    intro memory s
    rw [insertSocket_read _ _ (hnext memory ▸ hlive), hput]
  unfold acceptConnected
  dsimp only
  split
  · rename_i hwanted
    exact absurd ⟨(of_decide_eq_true hwanted).1, fun port addr h => by cases h⟩ hv4
  · rename_i hwanted
    exact absurd ⟨(of_decide_eq_true hwanted).1, fun port addr h => by cases h⟩ hv4
  · exact hkept _ _

-- ---------------------------------------------------------------------------
-- The next call
-- ---------------------------------------------------------------------------

theorem holding_tcp (h : s.familyUnix = false) : holding s = s.listener.map .tcp := by
  rw [holding, h, if_neg Bool.false_ne_true]

theorem holding_unix (h : s.familyUnix = true) (hh : holding s = some hd) :
    ∃ u, s.unix = some u ∧ u.listener = true ∧ hd = .unix u.path := by
  rw [holding, if_pos h] at hh
  obtain ⟨u, hu, rfl⟩ := Option.map_eq_some_iff.mp hh
  obtain ⟨hu, hlistener⟩ := Option.filter_eq_some_iff.mp hu
  exact ⟨u, hu, hlistener, rfl⟩

theorem next_waits (hl : ListeningAt k sockfd fd ref) (hh : holding (k.cells.sockets.read ref) = some hd)
    (flags : Int) : WaitsAt hd (accept4 k sockfd 0 0 flags true) := by
  cases hfamily : (k.cells.sockets.read ref).familyUnix with
  | true =>
    obtain ⟨u, hu, hlistener, rfl⟩ := holding_unix hfamily hh
    obtain ⟨c, -, hcall⟩ := accept4_unix hl hfamily (outsOk_null _) rfl hu hlistener flags true
    rw [hcall]
    exact ⟨u.path, rfl⟩
  | false =>
    rw [holding_tcp hfamily] at hh
    obtain ⟨l, hlistener, rfl⟩ := Option.map_eq_some_iff.mp hh
    obtain ⟨c, port, addr, -, -, -, hcall⟩ := accept4_v4 hl hfamily (outsOk_null _) flags true
    rw [hcall, hlistener]
    exact rfl

/-- The socket after the call differs in nothing that matters to the next one. -/
theorem HeldAfter.of_socket (hl : ListeningAt k sockfd fd ref)
    (hbound : (k'.cells.sockets.read ref).bound = (k.cells.sockets.read ref).bound)
    (hbacklog : (k'.cells.sockets.read ref).listenBacklog = (k.cells.sockets.read ref).listenBacklog)
    (hfamily : (k'.cells.sockets.read ref).familyUnix = (k.cells.sockets.read ref).familyUnix)
    (hh : holding (k'.cells.sockets.read ref) = some hd) : HeldAfter (k.cells.sockets.read ref) k' ref hd where
  holds := hh
  bound := hbound
  backlog := hbacklog
  next sockfd fd hfd hget := by
    have hl' : ListeningAt k' sockfd fd ref := by
      refine ⟨hfd, hget, ?_, ?_⟩
      · rw [isListening, hbound, hbacklog]
        exact hl.listening
      · rw [hfamily, hbound]
        exact hl.address
    exact next_waits hl' hh

theorem HeldAfter.same (hl : ListeningAt k sockfd fd ref) (hh : holding (k.cells.sockets.read ref) = some hd) :
    HeldAfter (k.cells.sockets.read ref) k ref hd := .of_socket hl rfl rfl rfl hh

theorem not_heldAfter (hh : holding (k'.cells.sockets.read ref) = none) : ¬ HeldAfter s k' ref hd := by
  intro h
  rw [h.holds] at hh
  cases hh

-- ---------------------------------------------------------------------------
-- Whole calls
-- ---------------------------------------------------------------------------

/-- The kernel while the call waits for a connection: the listener is out. -/
structure TakenOut (k : Kernel) (ref : Nat) (k' : Kernel) : Prop where
  fds : k'.fds = k.fds
  memory : k'.memory = k.memory
  next : k'.cells.sockets.next = k.cells.sockets.next
  bound : (k'.cells.sockets.read ref).bound = (k.cells.sockets.read ref).bound
  backlog : (k'.cells.sockets.read ref).listenBacklog = (k.cells.sockets.read ref).listenBacklog
  family : (k'.cells.sockets.read ref).familyUnix = (k.cells.sockets.read ref).familyUnix
  listener : (k'.cells.sockets.read ref).listener = none

theorem connected_heldAfter (hl : ListeningAt k sockfd fd ref) (hlive : ref < k.cells.sockets.next)
    (hfamily : (k.cells.sockets.read ref).familyUnix = false) (htaken : TakenOut k ref k') {c : AcceptCall}
    (hfd : c.fd = fd) (houts : OutsOk k.memory c.addrPtr c.addrlenPtr) (l : TcpListener) (peer : Option SockAddr) :
    HeldAfter (k.cells.sockets.read ref) (acceptConnected k' c l peer).2 ref (.tcp l) ↔
      ¬ (peer = none ∨ (c.addrPtr ≠ 0 ∧ ∀ port addr, peer ≠ some (.v4 port addr))) := by
  have houts' : OutsOk k'.memory c.addrPtr c.addrlenPtr := htaken.memory ▸ houts
  have hfamily' : (k'.cells.sockets.read ref).familyUnix = false := htaken.family.trans hfamily
  constructor
  · intro h hlost
    rw [acceptConnected_lost houts' hlost] at h
    refine not_heldAfter ?_ h
    rw [holding_tcp hfamily', htaken.listener]
    rfl
  · intro hlost
    have hget : k'.fds.get c.fd = .ok (.socket ref) := by rw [htaken.fds, hfd, hl.opened]
    have hread := acceptConnected_back hget (htaken.next ▸ hlive) htaken.listener hlost l
    refine .of_socket hl ?_ ?_ ?_ ?_
    · rw [hread, ← htaken.bound]
    · rw [hread, ← htaken.backlog]
    · rw [hread, ← htaken.family]
    · rw [hread]
      exact holding_tcp hfamily'

theorem givesBack_of_returns (hl : ListeningAt k sockfd fd ref) {flags e : Int}
    (h : accept4 k sockfd addrPtr addrlenPtr flags host.cloned = .returns e k) :
    GivesBack k ref sockfd addrPtr addrlenPtr flags host := by
  intro hd hheld value k' hcall
  rw [call, h] at hcall
  cases hcall
  rw [held, h] at hheld
  split at hheld
  · rename_i hholding
    cases hheld
    exact .same hl hholding
  · rename_i hwaits
    cases hwaits
  · cases hheld

/-- The call returns and something was held: it is held after. -/
theorem givesBack_iff_heldAfter {flags value : Int}
    (hheld : held k ref sockfd addrPtr addrlenPtr flags host = some hd)
    (hcall : call k sockfd addrPtr addrlenPtr flags host = .returns value k') :
    GivesBack k ref sockfd addrPtr addrlenPtr flags host ↔ HeldAfter (k.cells.sockets.read ref) k' ref hd := by
  constructor
  · exact fun h => h hd hheld value k' hcall
  · intro h hd' hheld' value' k'' hcall'
    cases hheld.symm.trans hheld'
    cases hcall.symm.trans hcall'
    exact h

theorem givesBack_taken (hl : ListeningAt k sockfd fd ref) (hlive : ref < k.cells.sockets.next)
    (hfamily : (k.cells.sockets.read ref).familyUnix = false) {c : AcceptCall} (hfd : c.fd = fd)
    (houts : OutsOk k.memory c.addrPtr c.addrlenPtr) {flags : Int}
    (hheld : held k ref sockfd c.addrPtr c.addrlenPtr flags host = some (.tcp l)) (htaken : TakenOut k ref k')
    (hcall : call k sockfd c.addrPtr c.addrlenPtr flags host =
      .returns (acceptConnected k' c l host.peer).1 (acceptConnected k' c l host.peer).2) :
    GivesBack k ref sockfd c.addrPtr c.addrlenPtr flags host ↔
      ¬ (host.peer = none ∨ (c.addrPtr ≠ 0 ∧ ∀ port addr, host.peer ≠ some (.v4 port addr))) :=
  (givesBack_iff_heldAfter hheld hcall).trans (connected_heldAfter hl hlive hfamily htaken hfd houts l host.peer)

theorem givesBack_v4 (hl : ListeningAt k sockfd fd ref) (hlive : ref < k.cells.sockets.next)
    (hfamily : (k.cells.sockets.read ref).familyUnix = false) (houts : OutsOk k.memory addrPtr addrlenPtr)
    (flags : Int) :
    GivesBack k ref sockfd addrPtr addrlenPtr flags host ↔
      ¬ (((k.cells.sockets.read ref).listener ≠ none ∨ host.listener ≠ none) ∧
        (host.peer = none ∨ (addrPtr ≠ 0 ∧ ∀ port addr, host.peer ≠ some (.v4 port addr)))) := by
  obtain ⟨c, port, addr, hfd, rfl, rfl, hcall⟩ := accept4_v4 hl hfamily houts flags host.cloned
  have hholding := holding_tcp hfamily
  cases hlistener : (k.cells.sockets.read ref).listener with
  | some l =>
    rw [hlistener] at hcall hholding
    have hheld : held k ref sockfd c.addrPtr c.addrlenPtr flags host = some (.tcp l) := by
      rw [held, hholding]
      rfl
    have htaken : TakenOut k ref (setSocket k ref { k.cells.sockets.read ref with listener := none }) := by
      refine ⟨rfl, rfl, rfl, ?_, ?_, ?_, ?_⟩ <;> rw [setSocket_read]
    rw [givesBack_taken hl hlive hfamily hfd houts hheld htaken (by rw [call, hcall]; rfl)]
    simp
  | none =>
    rw [hlistener] at hcall hholding
    cases hbinds : host.listener with
    | none =>
      refine ⟨fun _ h => ?_, fun _ hd hheld => ?_⟩
      · simp at h
      · rw [held, hholding, hcall, hbinds] at hheld
        cases hheld
    | some l =>
      have hheld : held k ref sockfd c.addrPtr c.addrlenPtr flags host = some (.tcp l) := by
        rw [held, hholding, hcall, hbinds]
        rfl
      have hwaits : (accept4 k sockfd c.addrPtr c.addrlenPtr flags host.cloned).answered host =
          .waits (.accept c l) (setSocket (setSocket k ref
            { k.cells.sockets.read ref with listener := some l, isAcceptor := true }) ref
            { k.cells.sockets.read ref with listener := none, isAcceptor := true }) := by
        rw [hcall]
        simp only [Accept.answered, hbinds, acceptBound, hfd, hl.opened, hlistener, Option.isNone_none, if_true,
          takeListener, setSocket_fds, setSocket_read]
      have htaken : TakenOut k ref (setSocket (setSocket k ref
          { k.cells.sockets.read ref with listener := some l, isAcceptor := true }) ref
          { k.cells.sockets.read ref with listener := none, isAcceptor := true }) := by
        refine ⟨rfl, rfl, rfl, ?_, ?_, ?_, ?_⟩ <;> rw [setSocket_read]
      rw [givesBack_taken hl hlive hfamily hfd houts hheld htaken (by rw [call, hwaits]; rfl)]
      simp

theorem accept4_unix_none (hl : ListeningAt k sockfd fd ref)
    (hfamily : (k.cells.sockets.read ref).familyUnix = true) (houts : OutsOk k.memory addrPtr addrlenPtr)
    (hun : checkOut k.memory addrPtr SOCKADDR_UN_SIZE = .ok ())
    (hh : holding (k.cells.sockets.read ref) = none) (flags : Int) (cloned : Bool) :
    accept4 k sockfd addrPtr addrlenPtr flags cloned = .returns (-EINVAL) k := by
  rw [holding, if_pos hfamily] at hh
  cases hunix : (k.cells.sockets.read ref).unix with
  | none =>
    simp only [accept4, hl.number, houts.1, houts.2, hl.opened, hfamily, if_true, accept4Unix, hun, hl.listening,
      hunix]
  | some u =>
    have hlistener : u.listener = false := by
      cases hb : u.listener with
      | false => rfl
      | true => simp [hunix, hb, Option.filter] at hh
    simp only [accept4, hl.number, houts.1, houts.2, hl.opened, hfamily, if_true, accept4Unix, hun, hl.listening,
      hunix, hlistener, if_neg Bool.false_ne_true]

theorem acceptConnectedUnix_read (c : AcceptCall) (peer : Option (Option PathBuf))
    (hlive : ref < k.cells.sockets.next) :
    (acceptConnectedUnix k c peer).2.cells.sockets.read ref = k.cells.sockets.read ref := by
  cases peer with
  | none => rfl
  | some path => exact Heap.read_alloc_old _ _ hlive

theorem givesBack_unix (hl : ListeningAt k sockfd fd ref) (hlive : ref < k.cells.sockets.next)
    (hfamily : (k.cells.sockets.read ref).familyUnix = true) (houts : OutsOk k.memory addrPtr addrlenPtr)
    (hun : checkOut k.memory addrPtr SOCKADDR_UN_SIZE = .ok ()) (flags : Int) :
    GivesBack k ref sockfd addrPtr addrlenPtr flags host ↔
      ¬ (holding (k.cells.sockets.read ref) ≠ none ∧ host.cloned = false) := by
  cases hh : holding (k.cells.sockets.read ref) with
  | none =>
    refine iff_of_true (givesBack_of_returns hl (accept4_unix_none hl hfamily houts hun hh flags _)) ?_
    simp
  | some hd =>
    obtain ⟨u, hu, hlistener, rfl⟩ := holding_unix hfamily hh
    obtain ⟨c, hfd, hcall⟩ := accept4_unix hl hfamily houts hun hu hlistener flags host.cloned
    have hheld : held k ref sockfd addrPtr addrlenPtr flags host = some (.unix u.path) := by
      rw [held, hh]
    cases hcloned : host.cloned with
    | false =>
      rw [hcloned, if_neg Bool.false_ne_true] at hcall
      rw [givesBack_iff_heldAfter hheld (by rw [call, hcloned, hcall]; rfl)]
      refine ⟨fun h => absurd h (not_heldAfter ?_), fun h => ?_⟩
      · rw [setSocket_read, holding, if_pos hfamily]
        rfl
      · simp at h
    | true =>
      rw [hcloned, if_pos rfl] at hcall
      have hreturns : call k sockfd addrPtr addrlenPtr flags host =
          .returns (acceptConnectedUnix k c host.unixPeer).1 (acceptConnectedUnix k c host.unixPeer).2 := by
        rw [call, hcloned, hcall]
        rfl
      rw [givesBack_iff_heldAfter hheld hreturns]
      have hread := acceptConnectedUnix_read c host.unixPeer hlive
      refine iff_of_true (.of_socket hl ?_ ?_ ?_ ?_) (by simp)
      · rw [hread]
      · rw [hread]
      · rw [hread]
      · rw [hread, hh]

/-- After every call the socket accepts from what it did, for the same address, unless the
connection fails, the peer's address was asked for and is not IPv4, or the host cannot
clone a Unix listener. -/
theorem accept4_gives_back_iff (hl : ListeningAt k sockfd fd ref) (hlive : ref < k.cells.sockets.next)
    (addrPtr addrlenPtr flags : Int) (host : AcceptHost) :
    GivesBack k ref sockfd addrPtr addrlenPtr flags host ↔ ¬ LeftBehind k ref addrPtr addrlenPtr host := by
  by_cases houts : OutsOk k.memory addrPtr addrlenPtr
  · cases hfamily : (k.cells.sockets.read ref).familyUnix with
    | false =>
      rw [givesBack_v4 hl hlive hfamily houts flags, LeftBehind, hfamily, if_neg Bool.false_ne_true]
      simp only [houts, true_and]
    | true =>
      rw [LeftBehind, hfamily, if_pos rfl]
      by_cases hun : checkOut k.memory addrPtr SOCKADDR_UN_SIZE = .ok ()
      · rw [givesBack_unix hl hlive hfamily houts hun flags]
        simp only [houts, hun, true_and]
      · have hrefused : ∃ e, accept4 k sockfd addrPtr addrlenPtr flags host.cloned = .returns e k :=
          accept4_unix_refused hl hfamily hun flags host.cloned
        obtain ⟨e, hcall⟩ := hrefused
        exact iff_of_true (givesBack_of_returns hl hcall) fun h => hun h.2.1
  · obtain ⟨e, hcall⟩ := accept4_refused hl.number houts flags host.cloned
    exact iff_of_true (givesBack_of_returns hl hcall) fun h => houts h.1

def serving : Kernel :=
  (insertSocket (.new [] [] { root := "/", cwd := "/" } (Vector.replicate 32 0))
    { SocketInner.new .stream false with
      bound := some (.v4 0 LOCALHOST)
      listenBacklog := some 128
      listener := some { localPort := some 40000 }
      isAcceptor := true }).2

theorem serving_listening : ListeningAt serving 3 3 0 := ⟨rfl, rfl, rfl, .inr ⟨_, _, rfl⟩⟩

def connects : AcceptHost :=
  { cloned := true, listener := none, peer := some (.v4 50000 LOCALHOST), unixPeer := none }

def fails : AcceptHost := { cloned := true, listener := none, peer := none, unixPeer := none }

theorem accept4_gives_back_connected :
    0 < serving.cells.sockets.next ∧ GivesBack serving 0 3 0 0 0 connects ∧
      held serving 0 3 0 0 0 connects = some (.tcp { localPort := some 40000 }) := by
  refine ⟨Nat.zero_lt_one, (accept4_gives_back_iff serving_listening Nat.zero_lt_one 0 0 0 connects).mpr ?_, rfl⟩
  rintro ⟨-, -, h | ⟨h, -⟩⟩
  · cases h
  · exact h rfl

/-- The connection fails: the listener is gone, and the next call binds another one. -/
theorem failed_accept_loses_listener :
    ∃ k', call serving 3 0 0 0 fails = .returns (- Errno.EIO) k' ∧
      holding (serving.cells.sockets.read 0) = some (.tcp { localPort := some 40000 }) ∧
      holding (k'.cells.sockets.read 0) = none ∧
      (∃ c, accept4 k' 3 0 0 0 true = .waits (.bind c 0 #v[127, 0, 0, 1]) k') ∧
      ¬ GivesBack serving 0 3 0 0 0 fails := by
  have hcall : call serving 3 0 0 0 fails = .returns (- Errno.EIO) _ := rfl
  refine ⟨_, hcall, rfl, rfl, ⟨_, rfl⟩, fun h => ?_⟩
  exact not_heldAfter rfl (h _ rfl _ _ hcall)

end EdgeLibos.Sys.Accepting
