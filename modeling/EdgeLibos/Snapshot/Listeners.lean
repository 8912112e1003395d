import EdgeLibos.Snapshot.Serve
import EdgeLibos.Sys.Socket

/-!
# Listeners after a restore

A listener is opened anew, from the address, `SO_REUSEADDR` and `O_NONBLOCK` that the
snapshot records. The host picks its backlog.
-/

namespace EdgeLibos.Snapshot

open Lib Sys

/-- A listening socket of this process, over IPv4 or over Unix paths. -/
structure Listener (k : Kernel) (fd : UInt32) (s : SocketInner) : Prop where
  socket : ∃ ref, k.fds.table.get? fd = some (.socket ref) ∧ k.cells.sockets.read ref = s
  listening : isListening s = true
  own : s.inherited = false
  family : s.familyUnix = true ∨ ∃ port addr, s.bound = some (.v4 port addr)

def Records (snap : KernelSnapshot) (fd : UInt32) (sock : SocketSnapshot) : Prop :=
  { fd, kind := .fromSocket sock } ∈ snap.fds.entries

/-- What a restore does not set is as a new listener of the family has it. -/
structure Plain (sock : SocketSnapshot) : Prop where
  sockKind : sock.sockKind = .stream
  options : sock.soKeepalive = false ∧ sock.tcpNodelay = false
  lastError : sock.lastError = 0
  shutdownFlags : sock.shutdownFlags = 0
  peekBuf : sock.peekBuf = []
  acceptor : sock.isAcceptor = true ∧ sock.peerAddrPresent = false
  inet : sock.familyUnix = false → sock.unixInner = none ∧ ∀ addr, sock.bound ≠ some (.v4 0 addr)
  unix : sock.familyUnix = true → sock.soReuseaddr = false ∧
    ∃ path, sock.bound = some (.unix path) ∧ sock.unixInner = some { path := some path, peerAddrPresent := false }

/-- What of a listener's snapshot is the same after a restore. -/
structure Kept (sock sock' : SocketSnapshot) : Prop where
  nonblock : sock'.nonblock = sock.nonblock
  familyUnix : sock'.familyUnix = sock.familyUnix
  inherited : sock'.inherited = sock.inherited
  passive : sock'.isAcceptor = true ∧ sock'.listenBacklog = some 0
  inet : sock.familyUnix = false → sock'.soReuseaddr = sock.soReuseaddr ∧
    sock'.peerAddrPresent = sock.peerAddrPresent ∧
      ∃ port addr port', sock.bound = some (.v4 port addr) ∧ sock'.bound = some (.v4 port' addr) ∧
        (port ≠ 0 → port' = port)
  unix : sock.familyUnix = true → ∃ path, sock.unixInner.bind (·.path) = some path ∧
    sock'.bound = some (.unix path) ∧ sock'.unixInner = some { path := some path, peerAddrPresent := false }
  -- What a restore does not set comes back where it is as in a new listener, field by field.
  sockKind : sock.sockKind = .stream → sock'.sockKind = sock.sockKind
  soReuseaddr : sock.soReuseaddr = false → sock'.soReuseaddr = sock.soReuseaddr
  soKeepalive : sock.soKeepalive = false → sock'.soKeepalive = sock.soKeepalive
  tcpNodelay : sock.tcpNodelay = false → sock'.tcpNodelay = sock.tcpNodelay
  lastError : sock.lastError = 0 → sock'.lastError = sock.lastError
  shutdownFlags : sock.shutdownFlags = 0 → sock'.shutdownFlags = sock.shutdownFlags
  peekBuf : sock.peekBuf = [] → sock'.peekBuf = sock.peekBuf
  peer : sock.peerAddrPresent = false → sock'.peerAddrPresent = sock.peerAddrPresent
  unixInner : sock.familyUnix = false → sock.unixInner = none → sock'.unixInner = sock.unixInner
  plain : Plain sock → sock' = { sock with listenBacklog := some 0 }

-- ---------------------------------------------------------------------------
-- What the two constructors keep
-- ---------------------------------------------------------------------------

theorem recordPort_bound (s : SocketInner) {snap : SocketSnapshot} (h : snap.bound = some (.v4 port addr)) :
    ∃ port', recordPort s snap = { snap with bound := some (.v4 port' addr) } ∧ (port ≠ 0 → port' = port) := by
  have hsame : snap = { snap with bound := some (.v4 port addr) } := by rw [← h]
  unfold recordPort
  rw [h]
  cases s.listener.bind (·.localPort) with
  | none => exact ⟨port, hsame, fun _ => rfl⟩
  | some actual =>
    dsimp only
    split
    · rename_i hzero
      exact ⟨actual, rfl, fun hne => absurd hzero hne⟩
    · exact ⟨port, hsame, fun _ => rfl⟩

theorem recordPort_inherited (s : SocketInner) (snap : SocketSnapshot) :
    (recordPort s snap).inherited = snap.inherited := by
  unfold recordPort
  split
  · split
    · rfl
    · rfl
  · rfl

theorem filesystemPath_some {sock : SocketSnapshot} (h : filesystemPath sock = some path) :
    sock.unixInner.bind (·.path) = some path := by
  unfold filesystemPath at h
  split at h
  · rename_i p hp
    split at h
    · cases h
    · cases h
      exact hp
  · cases h

theorem kept_unix {sock : SocketSnapshot} (family : sock.familyUnix = true) (own : sock.inherited = false)
    (h : filesystemPath sock = some path) : Kept sock (SocketInner.fromUnixListener path sock.nonblock).snapshot := by
  have hpath := filesystemPath_some h
  refine ⟨rfl, family.symm, own.symm, ⟨rfl, rfl⟩, fun hinet => ?_, fun _ => ⟨path, hpath, rfl, rfl⟩, Eq.symm, Eq.symm,
    Eq.symm, Eq.symm, Eq.symm, Eq.symm, Eq.symm, Eq.symm, fun hinet => ?_, fun hplain => ?_⟩
  · rw [family] at hinet
    cases hinet
  · rw [family] at hinet
    cases hinet
  · obtain ⟨hkind, ⟨halive, hdelay⟩, herror, hshut, hpeek, ⟨hacceptor, hpeer⟩, -, hunix⟩ := hplain
    obtain ⟨hreuse, p, hbound, hinner⟩ := hunix family
    rw [hinner] at hpath
    cases hpath
    cases sock
    simp only at *
    subst_vars
    rfl

theorem kept_tcp {sock : SocketSnapshot} (family : sock.familyUnix = false) (own : sock.inherited = false)
    (acceptor : sock.isAcceptor = true) (hpeer : sock.peerAddrPresent = false)
    (hbound : sock.bound = some (.v4 port addr)) (listener : TcpListener) :
    let s := SocketInner.fromTcpListener listener (.v4 port addr) sock.soReuseaddr sock.nonblock
    Kept sock (recordPort s s.snapshot) := by
  intro s
  have hsaved : s.snapshot.bound = some (.v4 port addr) := rfl
  obtain ⟨port', hrecord, hport⟩ := recordPort_bound s hsaved
  rw [hrecord]
  refine ⟨rfl, family.symm, own.symm, ⟨rfl, rfl⟩, fun _ => ?_, fun hunix => ?_, Eq.symm, fun _ => rfl,
    Eq.symm, Eq.symm, Eq.symm, Eq.symm, Eq.symm, Eq.symm, fun _ => Eq.symm, fun hplain => ?_⟩
  · exact ⟨rfl, hpeer.symm, port, addr, port', hbound, rfl, hport⟩
  · rw [family] at hunix
    cases hunix
  · obtain ⟨hkind, ⟨halive, hdelay⟩, herror, hshut, hpeek, -, hinet, -⟩ := hplain
    obtain ⟨hinner, hnonzero⟩ := hinet family
    have hsame : port' = port := hport fun hzero => hnonzero addr (hzero ▸ hbound)
    cases sock
    simp only at *
    subst_vars
    rfl

theorem kept_of_reopened {sock : SocketSnapshot} (h : SocketReopened host fd sock s) (own : sock.inherited = false)
    (hpeer : (sock.isAcceptor && sock.peerAddrPresent) = false) : Kept sock (recordPort s s.snapshot) := by
  cases h with
  | unix family path => exact kept_unix family own path
  | tcp family acceptor bound opened =>
    rw [acceptor, Bool.true_and] at hpeer
    exact kept_tcp family own acceptor hpeer bound _

-- ---------------------------------------------------------------------------
-- The restored kernel
-- ---------------------------------------------------------------------------

variable {k k' target : Kernel} {fd : UInt32} {s : SocketInner}

theorem records_socket (h : k.fds.table.get? fd = some (.socket ref)) (pages : List MemoryPageSnapshot) :
    Records (buildKernelSnapshot k pages) fd
      (recordPort (k.cells.sockets.read ref) (k.cells.sockets.read ref).snapshot) :=
  mem_fdSnapshot_iff.mpr ⟨.socket ref, h, rfl⟩

theorem Records.unique (h : Records (buildKernelSnapshot k pages) fd sock)
    (h' : Records (buildKernelSnapshot k pages) fd sock') : sock' = sock := by
  obtain ⟨r, hget, hkind⟩ := mem_fdSnapshot_iff.mp h
  obtain ⟨r', hget', hkind'⟩ := mem_fdSnapshot_iff.mp h'
  cases hget.symm.trans hget'
  have hsame := congrArg (fun r => ResourceBody.socket r.body) (hkind'.trans hkind.symm)
  exact Option.some.inj hsame

/-- What a restore that succeeds has made of a socket that it opens anew. -/
theorem reopened_of_apply (hget : k.fds.table.get? fd = some (.socket ref))
    (own : (k.cells.sockets.read ref).inherited = false)
    (h : applySnapshotKernelState host (buildKernelSnapshot k pages) target = .ok k')
    (pages' : List MemoryPageSnapshot) : ∃ sock s',
      sock = recordPort (k.cells.sockets.read ref) (k.cells.sockets.read ref).snapshot ∧
      Records (buildKernelSnapshot k pages) fd sock ∧ (sock.isAcceptor && sock.peerAddrPresent) = false ∧
        SocketReopened host fd sock s' ∧ Records (buildKernelSnapshot k' pages') fd (recordPort s' s'.snapshot) := by
  have hrecords := records_socket hget pages
  generalize hsock : recordPort (k.cells.sockets.read ref) (k.cells.sockets.read ref).snapshot = sock at hrecords
  have own : sock.inherited = false := by
    rw [← hsock, recordPort_inherited]
    exact own
  have hinherited : isInherited (ResourceSnapshot.fromSocket sock) = false := by
    simp [isInherited, ResourceSnapshot.fromSocket, own]
  obtain ⟨r, hr, c₁, c₂, -, hres, hext⟩ := (filled_of_apply h).1.rebuilt _ hrecords hinherited
  have hres : restoreSocket host c₁ fd (ResourceSnapshot.fromSocket sock).body = .ok (r, c₂) := hres
  obtain ⟨_, s', hbody, hpeer, hmade, rfl, rfl⟩ := restoreSocket_ok hres
  cases hbody
  have hread : k'.cells.sockets.read c₁.sockets.next = s' :=
    (hext.sockets.read_eq _ (Nat.lt_succ_self _)).trans (Heap.read_alloc_new _ _)
  exact ⟨sock, s', rfl, hrecords, hpeer, hmade, hread ▸ records_socket hr pages'⟩

/-- A restore that succeeds has opened the listener again, and keeps what a listener is
opened with. -/
theorem listener_restored (hs : Listener k fd s)
    (h : applySnapshotKernelState host (buildKernelSnapshot k pages) target = .ok k')
    (pages' : List MemoryPageSnapshot) : ∃ sock sock', sock = recordPort s s.snapshot ∧
      Records (buildKernelSnapshot k pages) fd sock ∧ Records (buildKernelSnapshot k' pages') fd sock' ∧
      Kept sock sock' := by
  obtain ⟨⟨ref, hget, rfl⟩, -, own, -⟩ := hs
  obtain ⟨sock, s', hsock, hrecords, hpeer, hmade, hrecords'⟩ := reopened_of_apply hget own h pages'
  refine ⟨sock, _, hsock, hrecords, hrecords', kept_of_reopened hmade ?_ hpeer⟩
  rw [hsock, recordPort_inherited]
  exact own

-- ---------------------------------------------------------------------------
-- A server with a backlog
-- ---------------------------------------------------------------------------

def bindingHost : Host where
  openReadWrite _ _ := .error (.os Errno.EACCES)
  isSocket _ _ := none
  bindUnix _ _ := .ok ()
  bindTcp _ port _ := .ok { localPort := some port }
  setsockoptReuseaddr _ := .ok ()
  fromStd _ := .ok ()

def webListener : SocketInner :=
  { SocketInner.new .stream true with
    bound := some (.v4 8080 LOCALHOST)
    listenBacklog := some 128
    soReuseaddr := true
    listener := some { localPort := some 8080 }
    isAcceptor := true }

def webKernel : Kernel :=
  (insertSocket (.new [] [] { root := "/", cwd := "/" } (Vector.replicate 32 0)) webListener).2

theorem webKernel_listener : Listener webKernel 3 webListener :=
  ⟨⟨0, rfl, rfl⟩, rfl, rfl, .inr ⟨_, _, rfl⟩⟩

theorem webKernel_entries : ∀ p ∈ webKernel.fds.table.entries, InKernel p.2 ∨ p.2.socket? = some 0 := by decide

theorem webKernel_restored : ∃ k', applySnapshotKernelState bindingHost (buildKernelSnapshot webKernel []) otherKernel =
    .ok k' := by
  obtain ⟨fds, cells, hfds⟩ : ∃ fds cells, restoreFds bindingHost (fdSnapshot webKernel.cells webKernel.fds)
      (rebuildFromSnapshot webKernel.futexTable.snapshot otherKernel.cells).2 = .ok (fds, cells) := by
    refine restoreFds_total _ (by decide) ?_
    rintro ⟨fd, r⟩ hp c
    rcases webKernel_entries _ hp with hkernel | hsocket
    · exact hkernel.restores
    · cases r with
      | socket ref =>
        cases hsocket
        exact ⟨_, _, rfl⟩
      | _ => cases hsocket
  exact ⟨_, applySnapshotKernelState_eq_ok.mpr ⟨rfl, fds, cells, hfds, rfl⟩⟩

theorem listener_restored_web : ∃ k' sock sock', sock = recordPort webListener webListener.snapshot ∧
    Records (buildKernelSnapshot webKernel []) 3 sock ∧ Records (buildKernelSnapshot k' []) 3 sock' ∧
      Kept sock sock' := by
  obtain ⟨k', h⟩ := webKernel_restored
  exact ⟨k', listener_restored webKernel_listener h []⟩

/-- The backlog is recorded, and a restored listener has 0 in its place. -/
theorem backlog_not_restored : ∃ k' sock sock',
    applySnapshotKernelState bindingHost (buildKernelSnapshot webKernel []) otherKernel = .ok k' ∧
      Listener webKernel 3 webListener ∧ Records (buildKernelSnapshot webKernel []) 3 sock ∧
        Records (buildKernelSnapshot k' []) 3 sock' ∧ sock.listenBacklog = some 128 ∧
          sock'.listenBacklog = some 0 ∧ ¬ Records (buildKernelSnapshot k' []) 3 sock := by
  obtain ⟨k', h⟩ := webKernel_restored
  have hget : webKernel.fds.table.get? 3 = some (.socket 0) := rfl
  obtain ⟨sock, s', hsock, hrecords, hpeer, hmade, hrecords'⟩ := reopened_of_apply hget rfl h []
  have hbacklog : sock.listenBacklog = some 128 := by
    rw [hsock]
    rfl
  have hzero : (recordPort s' s'.snapshot).listenBacklog = some 0 :=
    (kept_of_reopened hmade (hsock ▸ rfl) hpeer).passive.2
  refine ⟨k', sock, _, h, webKernel_listener, hrecords, hrecords', hbacklog, hzero, fun hsame => ?_⟩
  rw [hrecords'.unique hsame, hzero] at hbacklog
  cases hbacklog

end EdgeLibos.Snapshot
