import EdgeLibos.Snapshot.Wire

/-!
# Snapshots from before the additive fields

The format before `SocketSnapshot::inherited` and `KernelSnapshot::module_sha256`
were added, under the same version number, and the value its documentation
promises under the current types. The wire format has no field names, so
`serde(default)` never applies: every missing byte is taken from what follows,
and the bytes run out.
-/

namespace EdgeLibos.Snapshot

open Lib Lib.Postcard

namespace Old

structure SocketSnapshot where
  sockKind : SocketKind
  nonblock : Bool
  bound : Option SockAddr
  listenBacklog : Option Int32
  soReuseaddr : Bool
  soKeepalive : Bool
  tcpNodelay : Bool
  peerAddrPresent : Bool
  lastError : Int32
  shutdownFlags : UInt8
  isAcceptor : Bool
  peekBuf : List UInt8
  familyUnix : Bool
  unixInner : Option UnixSockSnapshot

structure ResourceBody where
  pipe : Option PipeSnapshot
  file : Option FileSnapshot
  socket : Option SocketSnapshot
  epoll : Option EpollSnapshot
  eventfd : Option EventFdSnapshot

structure ResourceSnapshot where
  kind : ResourceKind
  body : ResourceBody

structure FdEntrySnapshot where
  fd : UInt32
  kind : ResourceSnapshot

structure FdSnapshot where
  entries : List FdEntrySnapshot
  nextFd : UInt32
  cloexec : List UInt32

structure KernelSnapshot where
  formatVersion : UInt32
  pages : List MemoryPageSnapshot
  fds : FdSnapshot
  mm : LinearAllocatorSnapshot
  vfs : VfsSnapshot
  clock : ClockStateSnapshot
  brk : UInt32
  args : List String
  env : List (String × String)
  rngSeed : RngSeed
  signals : SignalStateSnapshot
  exitCode : Option Int32
  comm : Vector UInt8 16
  futexTable : List FutexAddrSnapshot
  cpuNs : UInt64

-- ---------------------------------------------------------------------------
-- The bytes
-- ---------------------------------------------------------------------------

open Codec

def SocketSnapshot.base (s : SocketSnapshot) : Wire.SocketBase :=
  (s.sockKind, s.nonblock, s.bound, s.listenBacklog, s.soReuseaddr, s.soKeepalive, s.tcpNodelay,
    s.peerAddrPresent, s.lastError, s.shutdownFlags, s.isAcceptor, s.peekBuf, s.familyUnix,
    s.unixInner)

def socket : Codec SocketSnapshot :=
  Wire.socketBase.iso
    (fun (k, n, b, l, ra, ka, nd, pp, e, s, a, pb, u, ui) =>
      ⟨k, n, b, l, ra, ka, nd, pp, e, s, a, pb, u, ui⟩)
    SocketSnapshot.base (fun _ => rfl) (fun _ _ => rfl)

def resourceBody : Codec ResourceBody :=
  (Wire.pipe.option.pair (Wire.file.option.pair (socket.option.pair
    (Wire.epoll.option.pair Wire.eventFd.option)))).iso
    (fun (p, f, s, e, v) => ⟨p, f, s, e, v⟩) (fun b => (b.pipe, b.file, b.socket, b.epoll, b.eventfd))
    (fun _ => rfl) (fun _ _ => rfl)

def resource : Codec ResourceSnapshot :=
  (Wire.resourceKind.pair resourceBody).iso (fun (k, b) => ⟨k, b⟩) (fun r => (r.kind, r.body))
    (fun _ => rfl) (fun _ _ => rfl)

def fdEntry : Codec FdEntrySnapshot :=
  (leU32.pair resource).iso (fun (fd, k) => ⟨fd, k⟩) (fun e => (e.fd, e.kind))
    (fun _ => rfl) (fun _ _ => rfl)

def fds : Codec FdSnapshot :=
  (fdEntry.seq.pair (leU32.pair leU32.seq)).iso (fun (es, n, c) => ⟨es, n, c⟩)
    (fun f => (f.entries, f.nextFd, f.cloexec)) (fun _ => rfl) (fun _ _ => rfl)

def KernelSnapshot.rest (s : KernelSnapshot) : Wire.KernelRest :=
  (s.mm, s.vfs, s.clock, s.brk, s.args, s.env, s.rngSeed, s.signals, s.exitCode, s.comm,
    s.futexTable, s.cpuNs)

def kernel : Codec KernelSnapshot :=
  (leU32.pair (Wire.memoryPage.seq.pair (fds.pair Wire.kernelRest))).iso
    (fun (v, ps, fd, mm, vf, cl, br, ar, en, rs, sg, ex, co, fu, cp) =>
      ⟨v, ps, fd, mm, vf, cl, br, ar, en, rs, sg, ex, co, fu, cp⟩)
    (fun s => (s.formatVersion, s.pages, s.fds, s.rest)) (fun _ => rfl) (fun _ _ => rfl)

/-- `encode_snapshot` as it was. -/
def encodeSnapshot (snap : KernelSnapshot) : List UInt8 := kernel.enc snap

-- ---------------------------------------------------------------------------
-- The promised value
-- ---------------------------------------------------------------------------

def SocketSnapshot.upgrade (s : SocketSnapshot) : Snapshot.SocketSnapshot :=
  ⟨s.sockKind, s.nonblock, s.bound, s.listenBacklog, s.soReuseaddr, s.soKeepalive, s.tcpNodelay,
    s.peerAddrPresent, s.lastError, s.shutdownFlags, s.isAcceptor, s.peekBuf, s.familyUnix,
    s.unixInner, false⟩

def ResourceBody.upgrade (b : ResourceBody) : Snapshot.ResourceBody :=
  ⟨b.pipe, b.file, b.socket.map (·.upgrade), b.epoll, b.eventfd⟩

def FdEntrySnapshot.upgrade (e : FdEntrySnapshot) : Snapshot.FdEntrySnapshot :=
  ⟨e.fd, e.kind.kind, e.kind.body.upgrade⟩

def FdSnapshot.upgrade (f : FdSnapshot) : Snapshot.FdSnapshot :=
  ⟨f.entries.map (·.upgrade), f.nextFd, f.cloexec⟩

/-- `inherited` is false for every socket, and no module hash is recorded. -/
def KernelSnapshot.upgrade (s : KernelSnapshot) : Snapshot.KernelSnapshot :=
  ⟨s.formatVersion, s.pages, s.fds.upgrade, s.mm, s.vfs, s.clock, s.brk, s.args, s.env, s.rngSeed,
    s.signals, s.exitCode, s.comm, s.futexTable, s.cpuNs, Vector.replicate 32 0⟩

-- ---------------------------------------------------------------------------
-- The missing bytes
-- ---------------------------------------------------------------------------

def sockets (l : List FdEntrySnapshot) : Nat := l.countP fun e => e.kind.body.socket.isSome

theorem socket_length (s : SocketSnapshot) :
    (Wire.socket.enc s.upgrade).length = (socket.enc s).length + 1 := by
  show (Wire.socketBase.enc s.base ++ bool.enc false).length = _
  rw [List.length_append]
  rfl

theorem fdEntry_length (e : FdEntrySnapshot) : (Wire.fdEntry.enc e.upgrade).length =
    (fdEntry.enc e).length + if e.kind.body.socket.isSome then 1 else 0 := by
  have hsocket : (Wire.socket.option.enc (e.kind.body.socket.map (·.upgrade))).length =
      (socket.option.enc e.kind.body.socket).length +
        if e.kind.body.socket.isSome then 1 else 0 := by
    cases e.kind.body.socket with
    | none => rfl
    | some s =>
      have := socket_length s
      simp only [option, Option.map_some, List.length_cons, Option.isSome_some, if_true, this]
  simp only [Wire.fdEntry, Wire.resource, Wire.resourceBody, fdEntry, resource, resourceBody, iso,
    pair, FdEntrySnapshot.upgrade, ResourceBody.upgrade, List.length_append, hsocket]
  omega

theorem fdEntries_length (l : List FdEntrySnapshot) :
    ((l.map (·.upgrade)).flatMap Wire.fdEntry.enc).length =
      (l.flatMap fdEntry.enc).length + sockets l := by
  induction l with
  | nil => rfl
  | cons e l ih =>
    have he := fdEntry_length e
    simp only [List.map_cons, List.flatMap_cons, List.length_append, sockets, List.countP_cons,
      he] at ih ⊢
    omega

theorem fds_length (f : FdSnapshot) :
    (Wire.fds.enc f.upgrade).length = (fds.enc f).length + sockets f.entries := by
  have := fdEntries_length f.entries
  simp only [Wire.fds, fds, iso, pair, seq, FdSnapshot.upgrade, List.length_append, List.length_map,
    this]
  omega

theorem encodeSnapshot_upgrade_length (s : KernelSnapshot) :
    (Snapshot.encodeSnapshot s.upgrade).length =
      (encodeSnapshot s).length + sockets s.fds.entries + 32 := by
  have hfds := fds_length s.fds
  have hsha : ((byte.array 32).enc (Vector.replicate 32 0)).length = 32 := rfl
  show (leU32.enc s.formatVersion ++ (Wire.memoryPage.seq.enc s.pages ++ (Wire.fds.enc s.fds.upgrade ++
    (Wire.kernelRest.enc s.rest ++ (byte.array 32).enc (Vector.replicate 32 0))))).length =
    (leU32.enc s.formatVersion ++ (Wire.memoryPage.seq.enc s.pages ++ (fds.enc s.fds ++
      Wire.kernelRest.enc s.rest))).length + sockets s.fds.entries + 32
  simp only [List.length_append, hfds, hsha]
  omega

theorem old_snapshot_never_upgrades (s : KernelSnapshot) :
    decodeSnapshot (encodeSnapshot s) ≠ .ok s.upgrade := by
  intro h
  have hlen := decodeSnapshot_length h
  rw [encodeSnapshot_upgrade_length] at hlen
  omega

-- ---------------------------------------------------------------------------
-- Without sockets only the end is missing
-- ---------------------------------------------------------------------------

theorem fdEntry_enc (e : FdEntrySnapshot) (h : e.kind.body.socket = none) :
    Wire.fdEntry.enc e.upgrade = fdEntry.enc e := by
  simp only [Wire.fdEntry, Wire.resource, Wire.resourceBody, fdEntry, resource, resourceBody, iso,
    pair, FdEntrySnapshot.upgrade, ResourceBody.upgrade, h, Option.map_none]
  rfl

theorem fdEntry_valid (e : FdEntrySnapshot) (h : e.kind.body.socket = none)
    (hv : fdEntry.valid e) : Wire.fdEntry.valid e.upgrade := by
  obtain ⟨hfd, hkind, hpipe, hfile, -, hepoll, hevent⟩ := hv
  refine ⟨hfd, hkind, hpipe, hfile, ?_, hepoll, hevent⟩
  simp only [FdEntrySnapshot.upgrade, ResourceBody.upgrade, h, Option.map_none]
  rintro _ ⟨⟩

theorem fds_dec {f : FdSnapshot} (hn : ∀ e ∈ f.entries, e.kind.body.socket = none)
    (hv : fds.valid f) : Wire.fds.dec (fds.enc f ++ rest) = .ok (f.upgrade, rest) := by
  obtain ⟨⟨hlen, hentries⟩, hnext, hcloexec⟩ := hv
  have henc : Wire.fds.enc f.upgrade = fds.enc f := by
    have hflat : (f.entries.map (·.upgrade)).flatMap Wire.fdEntry.enc =
        f.entries.flatMap fdEntry.enc := by
      rw [List.flatMap_map]
      exact List.flatMap_congr fun e he => fdEntry_enc e (hn e he)
    simp only [Wire.fds, fds, iso, pair, seq, FdSnapshot.upgrade, List.length_map, hflat]
  rw [← henc]
  refine Wire.fds.dec_enc _ _ ⟨⟨?_, ?_⟩, hnext, hcloexec⟩
  · simpa [FdSnapshot.upgrade] using hlen
  · intro e he
    obtain ⟨e', he', rfl⟩ := List.mem_map.mp he
    exact fdEntry_valid e' (hn e' he') (hentries e' he')

/-- The thirty-two bytes of the module hash are not there to be read. -/
theorem decodeSnapshot_without_sockets {s : KernelSnapshot}
    (hn : ∀ e ∈ s.fds.entries, e.kind.body.socket = none) (hv : kernel.valid s) :
    decodeSnapshot (encodeSnapshot s) = .error (.postcard .deserializeUnexpectedEnd) := by
  obtain ⟨hversion, hpages, hfds, hrest⟩ := hv
  have hdec : Wire.kernel.dec (encodeSnapshot s) = .error .deserializeUnexpectedEnd := by
    have hrest' := Wire.kernelRest.dec_enc _ [] hrest
    rw [List.append_nil] at hrest'
    simp only [encodeSnapshot, kernel, Wire.kernel, iso, pair, leU32.dec_enc _ _ hversion,
      Wire.memoryPage.seq.dec_enc _ _ hpages, fds_dec hn hfds, hrest', bind, Except.bind]
    rfl
  simp only [decodeSnapshot, hdec]

/-- A kernel frozen with no descriptors, before there was a module hash. -/
def fixtureSnapshot : KernelSnapshot where
  formatVersion := SNAPSHOT_FORMAT_VERSION
  pages := []
  fds := { entries := [], nextFd := 0, cloexec := [] }
  mm := { arenas := [], highWater := 0 }
  vfs := { root := "/", cwd := "/" }
  clock := { bootMonotonicNs := 0 }
  brk := 0
  args := ["a"]
  env := [("K", "V")]
  rngSeed := Vector.replicate 32 7
  signals := { actions := [], mask := 0, altStack := none }
  exitCode := none
  comm := Vector.replicate 16 0
  futexTable := []
  cpuNs := 0

theorem fixtureSnapshot_valid : kernel.valid fixtureSnapshot := by
  have hone : ∀ s ∈ ["/", "a", "K", "V"], string.valid s := by
    intro s hs
    refine usize_valid (Nat.lt_of_le_of_lt (m := 1) ?_ (by decide))
    revert s
    decide
  refine ⟨leU32_valid _, seq_nil_valid _, ⟨seq_nil_valid _, leU32_valid _, seq_nil_valid _⟩,
    ⟨seq_nil_valid _, Nat.pow_pos (by decide)⟩, ⟨hone _ (by decide), hone _ (by decide)⟩, leU64_valid _,
    leU32_valid _, ⟨usize_valid (by decide), ?_⟩, ⟨usize_valid (by decide), ?_⟩, array_byte_valid _,
    ⟨⟨seq_nil_valid _, .nil, .nil⟩, leU64_valid _, ?_⟩, ?_, array_byte_valid _, seq_nil_valid _,
    leU64_valid _⟩
  · rintro s (_ | ⟨_, ⟨⟩⟩)
    exact hone _ (by decide)
  · rintro s (_ | ⟨_, ⟨⟩⟩)
    exact ⟨hone _ (by decide), hone _ (by decide)⟩
  · rintro _ ⟨⟩
  · rintro _ ⟨⟩

theorem fixture_runs_out_of_bytes :
    decodeSnapshot (encodeSnapshot fixtureSnapshot) =
        .error (.postcard .deserializeUnexpectedEnd) ∧
      decodeSnapshot (encodeSnapshot fixtureSnapshot) ≠ .ok fixtureSnapshot.upgrade := by
  have h := decodeSnapshot_without_sockets (s := fixtureSnapshot) (by rintro _ ⟨⟩)
    fixtureSnapshot_valid
  refine ⟨h, ?_⟩
  rw [h]
  rintro ⟨⟩

end Old

end EdgeLibos.Snapshot
