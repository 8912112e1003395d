import EdgeLibos.Sys.Names

/-!
# Binding a socket

`bind` with all that it asks of the host, and what `getsockname` reports after it. A Unix
socket listens at its path at once; a datagram socket gets a host socket, and only once;
any other stream socket records the address.
-/

namespace EdgeLibos.Sys.Bind

open Errno Lib
open FdSets (Fits)
open Names (getsockname)
open Paths (parseSockaddr bytesOf AF_INET6 SOCKADDR_IN6_SIZE SOCKADDR_UN_SIZE)

inductive HostError
  | notFound
  | permissionDenied
  | addrInUse
  | addrNotAvailable
  | other
  deriving DecidableEq, Repr

inductive Family
  | v4
  | v6
  deriving DecidableEq, Repr

/-- The host socket of a datagram socket is known by its address. -/
structure UdpSocketState where
  family : Family
  ipv6V6only : Bool
  soReuseaddr : Bool
  boundAddr : Option SockAddr
  deriving DecidableEq, Repr

/-- What `bind` uses of a socket beside its record. -/
structure InetInner where
  familyV6 : Bool
  ipv6V6only : Bool
  udp : Option UdpSocketState
  deriving DecidableEq, Repr

/-- The host's answers: whether a path is a socket, its removal, a listener there; and a
datagram socket, its address, and the port it has then if none was asked for. -/
structure Host where
  isSocket : PathBuf → Except HostError Bool
  removeFile : PathBuf → Except HostError Unit
  listen : PathBuf → Except HostError Unit
  newSocket : Family → Except HostError Unit
  bindSocket : UdpSocketState → SockAddr → Except HostError Unit
  localPort : Except HostError UInt16

structure BindState where
  kernel : Kernel
  inet : Nat → InetInner

def BindState.read (st : BindState) (ref : Nat) : SocketInner := st.kernel.cells.sockets.read ref

def BindState.setBound (st : BindState) (ref : Nat) (bound : SockAddr) : BindState :=
  { st with kernel := setSocket st.kernel ref { st.read ref with bound := some bound } }

/-- The listener is installed with the path. -/
def BindState.setPath (st : BindState) (ref : Nat) (path : PathBuf) : BindState :=
  let s := st.read ref
  let unix := s.unix.map fun u => { u with path := some path, listener := true }
  { st with kernel := setSocket st.kernel ref { s with bound := some (.unix path), unix } }

def BindState.setUdp (st : BindState) (ref : Nat) (udp : UdpSocketState) : BindState :=
  { st with inet := fun r => if r = ref then { st.inet ref with udp := some udp } else st.inet r }

/-- `AF_INET6` is remembered beside the record. -/
def socket (st : BindState) (family typeAndFlags : Int) : Int × BindState :=
  let (fd, kernel) := Sys.socket st.kernel family typeAndFlags
  let v6 : Bool := (BitVec.ofInt 32 family).toInt = AF_INET6
  let inner : InetInner := { familyV6 := v6, ipv6V6only := v6, udp := none }
  (fd, { kernel, inet := fun r => if r = st.kernel.cells.sockets.next then inner else st.inet r })

-- ---------------------------------------------------------------------------
-- bind
-- ---------------------------------------------------------------------------

def listenAt (path : PathBuf) (host : Host) : Except Int Unit :=
  match host.listen path with
  | .ok _ => .ok ()
  | .error .addrInUse => .error (-EADDRINUSE)
  | .error .notFound => .error (-ENOENT)
  | .error _ => .error (- Errno.EIO)

/-- A stale socket is removed first. -/
def bindPath (path : PathBuf) (host : Host) : Except Int Unit :=
  match host.isSocket path with
  | .ok true =>
    match host.removeFile path with
    | .ok _ => listenAt path host
    -- The comment says that this falls through to the bind, but it returns.
    | .error .notFound => .error 0
    | .error _ => .error (-EADDRINUSE)
  | .ok false => .error (-EADDRINUSE)
  | .error .notFound => listenAt path host
  | .error .permissionDenied => .error (-EACCES)
  | .error _ => .error (- Errno.EIO)

def bindUnix (st : BindState) (ref : Nat) (path : PathBuf) (host : Host) : Int × BindState :=
  if (st.read ref).familyUnix then
    match bindPath path host with
    | .error e => (e, st)
    | .ok _ => (0, st.setPath ref path)
  else (-EOPNOTSUPP, st)

/-- What the host's `local_addr` says of a socket that was bound. -/
def withPort (port : UInt16) : SockAddr → SockAddr
  | .v4 asked addr => .v4 (if asked = 0 then port else asked) addr
  | .v6 asked addr => .v6 (if asked = 0 then port else asked) addr
  | .unix path => .unix path

def ensureBound (udp : UdpSocketState) (requested : SockAddr) (host : Host) : Except Int UdpSocketState :=
  match udp.boundAddr with
  | some _ =>
    match host.localPort with
    | .ok _ => .ok udp
    | .error _ => .error (- Errno.EIO)
  | none =>
    match host.newSocket udp.family with
    | .error .permissionDenied => .error (-EACCES)
    | .error _ => .error (- Errno.EIO)
    | .ok _ =>
      match host.bindSocket udp requested with
      | .error .addrInUse => .error (-EADDRINUSE)
      | .error .addrNotAvailable => .error (-EADDRNOTAVAIL)
      | .error .permissionDenied => .error (-EACCES)
      | .error _ => .error (- Errno.EIO)
      | .ok _ =>
        match host.localPort with
        | .error _ => .error (- Errno.EIO)
        | .ok port => .ok { udp with boundAddr := some (withPort port requested) }

def isV6 : SockAddr → Bool
  | .v6 _ _ => true
  | _ => false

/-- The state that the first bind of a datagram socket makes. -/
def BindState.udpOf (st : BindState) (ref : Nat) : UdpSocketState :=
  let i := st.inet ref
  i.udp.getD {
    family := if i.familyV6 then .v6 else .v4
    ipv6V6only := i.ipv6V6only
    soReuseaddr := (st.read ref).soReuseaddr
    boundAddr := none }

def bindUdp (st : BindState) (ref : Nat) (addr : SockAddr) (host : Host) : Int × BindState :=
  if isV6 addr ≠ (st.inet ref).familyV6 then (-EINVAL, st)
  else
    let st := st.setUdp ref (st.udpOf ref)
    match ensureBound (st.udpOf ref) addr host with
    | .error e => (e, st)
    | .ok udp =>
      match udp.boundAddr with
      | none => (- Errno.EIO, st)
      | some actual => (0, (st.setUdp ref udp).setBound ref actual)

def bind (st : BindState) (fd addrPtr addrLen : Int) (host : Host) : Int × BindState :=
  match u32Fd fd with
  | none => (-EBADF, st)
  | some fd =>
    match parseSockaddr st.kernel.memory addrPtr addrLen with
    | .error e => (e, st)
    | .ok (.unix path) =>
      match st.kernel.fds.get fd with
      | .ok (.socket ref) => bindUnix st ref path host
      | _ => (-EOPNOTSUPP, st)
    | .ok addr =>
      match st.kernel.fds.get fd with
      | .error e => (e, st)
      | .ok (.socket ref) =>
        match (st.read ref).kind with
        | .datagram => bindUdp st ref addr host
        | .stream => (0, st.setBound ref addr)
      | .ok _ => (-EBADF, st)

-- ---------------------------------------------------------------------------
-- bind and getsockname
-- ---------------------------------------------------------------------------

/-- What `getsockname` asks room for. -/
def room (s : SocketInner) : Int := if s.familyUnix then SOCKADDR_UN_SIZE else SOCKADDR_IN6_SIZE

/-- Through every descriptor of the socket, and with every memory that has room for it,
`getsockname` reports what parses as the address. -/
def Tells (k : Kernel) (ref : Nat) (bound : SockAddr) : Prop :=
  ∀ fd fd', u32Fd fd = some fd' → k.fds.get fd' = .ok (.socket ref) →
    ∀ memory addrPtr addrlenPtr, addrPtr ≠ 0 → addrlenPtr ≠ 0 →
      Fits memory addrPtr (room (k.cells.sockets.read ref)) → Fits memory addrlenPtr 4 →
      (addrPtr + room (k.cells.sockets.read ref) ≤ addrlenPtr ∨ addrlenPtr + 4 ≤ addrPtr) →
        ∃ k' len, getsockname { k with memory } fd addrPtr addrlenPtr = some (0, k') ∧
          guestSlice k'.memory addrlenPtr 4 = .ok (le32 len) ∧
          parseSockaddr k'.memory addrPtr len.toNat = .ok bound

def Answers (s : SocketInner) (requested bound : SockAddr) : Prop :=
  match s.kind with
  | .stream => bound = requested
  | .datagram => ∃ port, bound = withPort port requested

structure Agrees (st : BindState) (ref : Nat) (fd addrPtr addrLen : Int) (host : Host) : Prop where
  recorded : (bind st fd addrPtr addrLen host).1 = 0 → ∃ requested bound,
    parseSockaddr st.kernel.memory addrPtr addrLen = .ok requested ∧
      ((bind st fd addrPtr addrLen host).2.read ref).bound = some bound ∧
      Answers (st.read ref) requested bound ∧ Tells (bind st fd addrPtr addrLen host).2.kernel ref bound
  refused : (bind st fd addrPtr addrLen host).1 ≠ 0 →
    ((bind st fd addrPtr addrLen host).2.read ref).bound = (st.read ref).bound

/-- The host gives the socket an address, or has done so before. -/
def HostBinds (udp : UdpSocketState) (addr : SockAddr) (host : Host) : Prop :=
  host.localPort.isOk = true ∧
    (udp.boundAddr = none → (host.newSocket udp.family).isOk = true ∧ (host.bindSocket udp addr).isOk = true)

/-- The ways to 0 without the address: a stale socket that is gone when it is to be
removed, an address that is no path for a Unix socket, and a datagram socket that is
bound elsewhere. -/
def Astray (st : BindState) (ref : Nat) (host : Host) : SockAddr → Prop
  | .unix path =>
    (st.read ref).familyUnix = true ∧ host.isSocket path = .ok true ∧ host.removeFile path = .error .notFound ∧
      ¬ ((st.read ref).bound = some (.unix path) ∧ Names.Terminated (some (.unix path)))
  | addr =>
    match (st.read ref).kind with
    | .stream => (st.read ref).familyUnix = true
    | .datagram =>
      isV6 addr = (st.inet ref).familyV6 ∧ HostBinds (st.udpOf ref) addr host ∧
        ((st.read ref).familyUnix = true ∨
          ∃ old, (st.udpOf ref).boundAddr = some old ∧ ¬ Answers (st.read ref) addr old)

-- ---------------------------------------------------------------------------
-- What getsockname reports
-- ---------------------------------------------------------------------------

open SockAddrs (encode encodedLen Encodable Stands parse_encoded copy_read slice_copy_disjoint copy_room)
open Names (nameBytes nameLen writeName nameCall_named)

variable {k : Kernel} {ref : Nat} {memory : Option MemoryKind} {addrPtr addrlenPtr rm : Int} {bound : SockAddr}

theorem writeName_read (name : Option SockAddr) (haddr : addrPtr ≠ 0) (haddrlen : addrlenPtr ≠ 0)
    (hroom : Fits memory addrPtr rm) (hword : Fits memory addrlenPtr 4)
    (hname : (nameBytes name).length ≤ rm.toNat) (happart : addrPtr + rm ≤ addrlenPtr ∨ addrlenPtr + 4 ≤ addrPtr) :
    guestSlice (writeName memory addrPtr addrlenPtr rm name) addrlenPtr 4 = .ok (le32 (nameLen name)) ∧
      guestSlice (writeName memory addrPtr addrlenPtr rm name) addrPtr (nameBytes name).length =
        .ok (nameBytes name) := by
  obtain ⟨m, hstruct⟩ := copy_room (nameBytes name) hroom hname
  have hword' : Fits m addrlenPtr 4 := ((FdSets.guestCopy_fitted hstruct).2.2 _ _).mpr hword
  obtain ⟨m', hlen⟩ := copy_room (le32 (nameLen name)) hword' (by simp)
  have hwrite : writeName memory addrPtr addrlenPtr rm name = m' := by
    rw [writeName, writeOut, if_neg haddrlen, writeOut, if_neg haddr, hstruct]
    dsimp only
    rw [hlen]
  obtain ⟨-, -, -, hrm, -⟩ := FdSets.fits_iff.mp hroom
  rw [hwrite]
  refine ⟨copy_read hlen, slice_copy_disjoint (copy_read hstruct) hlen ?_⟩
  omega

theorem encodedLen_lt (h : Encodable bound) : (UInt32.ofNat (encodedLen bound)).toNat = encodedLen bound := by
  have hlt : encodedLen bound < 2 ^ 32 := by
    cases bound with
    | v4 port addr => simp [encodedLen, Paths.SOCKADDR_IN_SIZE]
    | v6 port addr => simp [encodedLen, SOCKADDR_IN6_SIZE]
    | unix path =>
      have hshort := h.2.2
      simp only [encodedLen]
      omega
  rw [UInt32.toNat_ofNat', Nat.mod_eq_of_lt hlt]

theorem tells_of_bound (hbound : (k.cells.sockets.read ref).bound = some bound)
    (hfamily : (k.cells.sockets.read ref).familyUnix = true ↔ ∃ path, bound = .unix path)
    (hencodable : Encodable bound) : Tells k ref bound := by
  intro fd fd' hfd hget memory addrPtr addrlenPtr haddr haddrlen hroom hword happart
  have hterminated : Names.Terminated (some bound) := by
    cases bound with
    | unix path => exact hencodable.2.2
    | v4 port addr => trivial
    | v6 port addr => trivial
  have hinet (hpath : ∀ path, bound ≠ .unix path) : ¬ (k.cells.sockets.read ref).familyUnix = true := by
    intro hunix
    obtain ⟨path, hbound⟩ := hfamily.mp hunix
    exact hpath path hbound
  have hname : (nameBytes (some bound)).length ≤ (room (k.cells.sockets.read ref)).toNat := by
    have hin : Paths.SOCKADDR_IN_SIZE ≤ SOCKADDR_IN6_SIZE := by decide
    rw [Names.nameBytes_length, room]
    cases bound with
    | unix path =>
      rw [if_pos (hfamily.mpr ⟨path, rfl⟩)]
      exact le_refl _
    | v4 port addr =>
      rw [if_neg (hinet (by simp))]
      exact hin
    | v6 port addr =>
      rw [if_neg (hinet (by simp))]
      exact le_refl _
  obtain ⟨hlength, hstruct⟩ := writeName_read (some bound) haddr haddrlen hroom hword hname happart
  have hcall : getsockname { k with memory } fd addrPtr addrlenPtr = some (0, { k with
      memory := writeName memory addrPtr addrlenPtr (room (k.cells.sockets.read ref)) (some bound) }) := by
    refine (nameCall_named (k := { k with memory }) hfd hget haddr haddrlen hroom hword ?_).trans
      (if_pos hterminated)
    dsimp only
    cases bound with
    | unix path =>
      have hunix := hfamily.mpr ⟨path, rfl⟩
      rw [if_pos hunix, room, if_pos hunix, Names.localUnixName, hbound]
    | v4 port addr =>
      rw [if_neg (hinet (by simp)), room, if_neg (hinet (by simp)), Names.localName, hbound]
      rfl
    | v6 port addr =>
      rw [if_neg (hinet (by simp)), room, if_neg (hinet (by simp)), Names.localName, hbound]
      rfl
  refine ⟨_, nameLen (some bound), hcall, hlength, ?_⟩
  rw [nameLen, encodedLen_lt hencodable]
  exact parse_encoded haddr hencodable hstruct

/-- Without a path of its own, or with one that is too long, a Unix socket reports no
address. -/
theorem not_tells_unix {fd : Int} {fd' : UInt32} (hfd : u32Fd fd = some fd') (hget : k.fds.get fd' = .ok (.socket ref))
    (hunix : (k.cells.sockets.read ref).familyUnix = true)
    (hname : ∀ path, (k.cells.sockets.read ref).bound = some (.unix path) → ¬ Names.Terminated (some (.unix path))) :
    ¬ Tells k ref bound := by
  intro h
  have hroom : room (k.cells.sockets.read ref) = SOCKADDR_UN_SIZE := if_pos hunix
  have haddr : (16 : Int) ≠ 0 := by decide
  have haddrlen : (8 : Int) ≠ 0 := by decide
  have happart : (16 : Int) + SOCKADDR_UN_SIZE ≤ 8 ∨ (8 : Int) + 4 ≤ 16 := .inr (by decide)
  obtain ⟨memory, hstruct, hword⟩ : ∃ memory, Fits memory 16 SOCKADDR_UN_SIZE ∧ Fits memory 8 4 :=
    ⟨_, SockAddrs.zeroPage_fits (by decide) (by decide) (by decide),
      SockAddrs.zeroPage_fits (by decide) (by decide) (by decide)⟩
  obtain ⟨k', len, hcall, hlen, hparse⟩ := h fd fd' hfd hget memory 16 8 haddr haddrlen (hroom ▸ hstruct) hword
    (hroom ▸ happart)
  have hnamed : getsockname { k with memory } fd 16 8 = _ :=
    nameCall_named (k := { k with memory }) hfd hget haddr haddrlen hstruct hword (if_pos hunix)
  rw [hnamed] at hcall
  split at hcall
  · rename_i hterminated
    have hnone : Names.localUnixName (k.cells.sockets.read ref) = none := by
      unfold Names.localUnixName at hterminated ⊢
      split at hterminated
      · rename_i path hbound
        exact absurd hterminated (hname path hbound)
      · rfl
    rw [hnone] at hcall
    cases hcall
    have hwritten := (writeName_read none haddr haddrlen hstruct hword (Names.nameBytes_length none).le
      happart).1
    have hsame : le32 len = le32 (nameLen none) := Except.ok.inj (hlen.symm.trans hwritten)
    have hvalue := congrArg leValue hsame
    rw [FdSets.leValue_le32, FdSets.leValue_le32] at hvalue
    rw [hvalue] at hparse
    exact SockAddrs.parseSockaddr_short (by decide) hparse
  · cases hcall

-- ---------------------------------------------------------------------------
-- The host's answers
-- ---------------------------------------------------------------------------

variable {st st' : BindState} {host : Host} {fd addrPtr addrLen : Int} {fd' : UInt32} {addr : SockAddr}
  {path : PathBuf} {udp : UdpSocketState}

theorem ensureBound_binds (h : HostBinds udp addr host) :
    ∃ udp' actual, ensureBound udp addr host = .ok udp' ∧ udp'.boundAddr = some actual ∧
      (udp.boundAddr = some actual ∨ udp.boundAddr = none ∧ ∃ port, actual = withPort port addr) := by
  obtain ⟨hport, hfirst⟩ := h
  unfold ensureBound
  cases hlocal : host.localPort with
  | error e =>
    rw [hlocal] at hport
    cases hport
  | ok port =>
    cases hold : udp.boundAddr with
    | some old => exact ⟨udp, old, rfl, hold, .inl rfl⟩
    | none =>
      obtain ⟨hnew, hbind⟩ := hfirst hold
      cases hn : host.newSocket udp.family with
      | error e =>
        rw [hn] at hnew
        cases hnew
      | ok _ =>
        cases hb : host.bindSocket udp addr with
        | error e =>
          rw [hb] at hbind
          cases hbind
        | ok _ => exact ⟨_, _, rfl, rfl, .inr ⟨rfl, port, rfl⟩⟩

theorem ensureBound_fails (h : ¬ HostBinds udp addr host) :
    ∃ e, ensureBound udp addr host = .error e ∧ e ≠ 0 := by
  have heio : - Errno.EIO ≠ 0 := by decide
  unfold ensureBound
  cases hold : udp.boundAddr with
  | some old =>
    cases hlocal : host.localPort with
    | error e => exact ⟨_, rfl, heio⟩
    | ok port =>
      have hbinds : HostBinds udp addr host := by
        refine ⟨by rw [hlocal]; rfl, fun hnone => ?_⟩
        rw [hold] at hnone
        cases hnone
      exact absurd hbinds h
  | none =>
    cases hn : host.newSocket udp.family with
    | error e => cases e <;> exact ⟨_, rfl, by decide⟩
    | ok _ =>
      cases hb : host.bindSocket udp addr with
      | error e => cases e <;> exact ⟨_, rfl, by decide⟩
      | ok _ =>
        cases hlocal : host.localPort with
        | error e => exact ⟨_, rfl, heio⟩
        | ok port =>
          have hbinds : HostBinds udp addr host :=
            ⟨by rw [hlocal]; rfl, fun _ => ⟨by rw [hn]; rfl, by rw [hb]; rfl⟩⟩
          exact absurd hbinds h

theorem udpOf_setUdp (st : BindState) (ref : Nat) : (st.setUdp ref (st.udpOf ref)).udpOf ref = st.udpOf ref := by
  simp only [BindState.setUdp, BindState.udpOf, if_pos, Option.getD_some]

theorem bindUdp_binds (hfamily : isV6 addr = (st.inet ref).familyV6) (h : HostBinds (st.udpOf ref) addr host) :
    ∃ st' actual, bindUdp st ref addr host = (0, st') ∧
      st'.kernel = setSocket st.kernel ref { st.read ref with bound := some actual } ∧
      ((st.udpOf ref).boundAddr = some actual ∨
        (st.udpOf ref).boundAddr = none ∧ ∃ port, actual = withPort port addr) := by
  obtain ⟨udp, actual, hensure, hactual, hold⟩ := ensureBound_binds h
  refine ⟨((st.setUdp ref (st.udpOf ref)).setUdp ref udp).setBound ref actual, actual, ?_, rfl, hold⟩
  unfold bindUdp
  rw [if_neg (not_not.mpr hfamily)]
  simp only [udpOf_setUdp, hensure, hactual]

theorem bindUdp_refused (h : ¬ (isV6 addr = (st.inet ref).familyV6 ∧ HostBinds (st.udpOf ref) addr host)) :
    ∃ e st', bindUdp st ref addr host = (e, st') ∧ e ≠ 0 ∧ st'.kernel = st.kernel := by
  unfold bindUdp
  by_cases hfamily : isV6 addr = (st.inet ref).familyV6
  · obtain ⟨e, hensure, he⟩ := ensureBound_fails fun hbinds => h ⟨hfamily, hbinds⟩
    rw [if_neg (not_not.mpr hfamily)]
    simp only [udpOf_setUdp, hensure]
    exact ⟨e, _, rfl, he, rfl⟩
  · rw [if_pos hfamily]
    exact ⟨_, _, rfl, by decide, rfl⟩

/-- A stale socket that was gone. -/
def Raced (path : PathBuf) (host : Host) : Prop :=
  host.isSocket path = .ok true ∧ host.removeFile path = .error .notFound

theorem listenAt_cases (path : PathBuf) (host : Host) :
    listenAt path host = .ok () ∧ host.listen path = .ok () ∨ ∃ e, listenAt path host = .error e ∧ e ≠ 0 := by
  unfold listenAt
  cases hl : host.listen path with
  | ok _ => exact .inl ⟨rfl, rfl⟩
  | error e => cases e <;> exact .inr ⟨_, rfl, by decide⟩

/-- The host listens, or the path was raced for, or there is an errno. -/
theorem bindPath_cases (path : PathBuf) (host : Host) :
    bindPath path host = .ok () ∧ host.listen path = .ok () ∧ ¬ Raced path host ∨
      bindPath path host = .error 0 ∧ Raced path host ∨
      (∃ e, bindPath path host = .error e ∧ e ≠ 0) ∧ ¬ Raced path host := by
  have hlisten (hraced : ¬ Raced path host) (h : bindPath path host = listenAt path host) :
      bindPath path host = .ok () ∧ host.listen path = .ok () ∧ ¬ Raced path host ∨
        bindPath path host = .error 0 ∧ Raced path host ∨
        (∃ e, bindPath path host = .error e ∧ e ≠ 0) ∧ ¬ Raced path host := by
    rw [h]
    rcases listenAt_cases path host with ⟨hok, hhost⟩ | hrefused
    · exact .inl ⟨hok, hhost, hraced⟩
    · exact .inr (.inr ⟨hrefused, hraced⟩)
  cases hs : host.isSocket path with
  | ok stale =>
    cases stale with
    | false =>
      refine .inr (.inr ⟨⟨-EADDRINUSE, ?_, by decide⟩, ?_⟩)
      · simp only [bindPath, hs]
      · simp [Raced, hs]
    | true =>
      cases hr : host.removeFile path with
      | ok _ => exact hlisten (by simp [Raced, hr]) (by simp only [bindPath, hs, hr])
      | error e =>
        by_cases he : e = .notFound
        · subst he
          exact .inr (.inl ⟨by simp only [bindPath, hs, hr], hs, hr⟩)
        · refine .inr (.inr ⟨⟨-EADDRINUSE, ?_, by decide⟩, ?_⟩)
          · cases e <;> first | exact absurd rfl he | simp only [bindPath, hs, hr]
          · simp [Raced, hr, he]
  | error e =>
    have hraced : ¬ Raced path host := by simp [Raced, hs]
    cases e with
    | notFound => exact hlisten hraced (by simp only [bindPath, hs])
    | permissionDenied => exact .inr (.inr ⟨⟨-EACCES, by simp only [bindPath, hs], by decide⟩, hraced⟩)
    | addrInUse => exact .inr (.inr ⟨⟨- Errno.EIO, by simp only [bindPath, hs], by decide⟩, hraced⟩)
    | addrNotAvailable => exact .inr (.inr ⟨⟨- Errno.EIO, by simp only [bindPath, hs], by decide⟩, hraced⟩)
    | other => exact .inr (.inr ⟨⟨- Errno.EIO, by simp only [bindPath, hs], by decide⟩, hraced⟩)

-- ---------------------------------------------------------------------------
-- bind by the address it was given
-- ---------------------------------------------------------------------------

theorem agrees_refused (h : bind st fd addrPtr addrLen host = (e, st')) (he : e ≠ 0)
    (hsame : (st'.read ref).bound = (st.read ref).bound) : Agrees st ref fd addrPtr addrLen host := by
  constructor
  · intro hzero
    rw [h] at hzero
    exact absurd hzero he
  · intro _
    rw [h]
    exact hsame

theorem agrees_zero_iff (h : bind st fd addrPtr addrLen host = (0, st'))
    (hparse : parseSockaddr st.kernel.memory addrPtr addrLen = .ok addr) :
    Agrees st ref fd addrPtr addrLen host ↔ ∃ bound, (st'.read ref).bound = some bound ∧
      Answers (st.read ref) addr bound ∧ Tells st'.kernel ref bound := by
  constructor
  · intro hagrees
    obtain ⟨requested, bound, hreq, hbound, hanswers, htells⟩ := hagrees.recorded (by rw [h])
    rw [h] at hbound htells
    rw [hparse] at hreq
    cases hreq
    exact ⟨bound, hbound, hanswers, htells⟩
  · rintro ⟨bound, hbound, hanswers, htells⟩
    constructor
    · intro _
      rw [h]
      exact ⟨addr, bound, hparse, hbound, hanswers, htells⟩
    · intro hne
      rw [h] at hne
      exact absurd rfl hne

theorem answers_unix (s : SocketInner) (path : PathBuf) : Answers s (.unix path) bound ↔ bound = .unix path := by
  unfold Answers
  cases s.kind with
  | stream => rfl
  | datagram => exact ⟨fun ⟨_, h⟩ => h, fun h => ⟨0, h⟩⟩

theorem tells_setPath (hunix : (st.read ref).familyUnix = true) (hpath : Encodable (.unix path)) :
    Tells (st.setPath ref path).kernel ref (.unix path) := by
  refine tells_of_bound ?_ ?_ hpath
  · simp only [BindState.setPath, Accepting.setSocket_read]
  · simp only [BindState.setPath, Accepting.setSocket_read]
    exact ⟨fun _ => ⟨path, rfl⟩, fun _ => hunix⟩

/-- Nothing was bound: right only for a socket that is at the path already. -/
theorem raced_iff (hfd : u32Fd fd = some fd') (hget : st.kernel.fds.get fd' = .ok (.socket ref))
    (hunix : (st.read ref).familyUnix = true) (hpath : bytesOf path ≠ [] ∧ 0 ∉ bytesOf path) :
    (∃ bound, (st.read ref).bound = some bound ∧ Answers (st.read ref) (.unix path) bound ∧
      Tells st.kernel ref bound) ↔
      (st.read ref).bound = some (.unix path) ∧ Names.Terminated (some (.unix path)) := by
  constructor
  · rintro ⟨bound, hbound, hanswers, htells⟩
    cases (answers_unix _ _).mp hanswers
    refine ⟨hbound, ?_⟩
    by_contra hlong
    refine not_tells_unix hfd hget hunix (fun path' hpath' hterminated => ?_) htells
    have heq : some (SockAddr.unix path) = some (.unix path') := hbound.symm.trans hpath'
    cases heq
    exact hlong hterminated
  · rintro ⟨hbound, hterminated⟩
    refine ⟨.unix path, hbound, (answers_unix _ _).mpr rfl, ?_⟩
    exact tells_of_bound hbound ⟨fun _ => ⟨path, rfl⟩, fun _ => hunix⟩ ⟨hpath.1, hpath.2, hterminated⟩

theorem bind_unix (hfd : u32Fd fd = some fd') (hget : st.kernel.fds.get fd' = .ok (.socket ref))
    (hparse : parseSockaddr st.kernel.memory addrPtr addrLen = .ok (.unix path)) (host : Host) :
    bind st fd addrPtr addrLen host = bindUnix st ref path host := by
  simp only [bind, hfd, hparse, hget]

theorem bindUnix_refused (hunix : (st.read ref).familyUnix = true) (h : bindPath path host = .error e) :
    bindUnix st ref path host = (e, st) := by
  rw [bindUnix, if_pos hunix, h]

theorem agrees_unix (hfd : u32Fd fd = some fd') (hget : st.kernel.fds.get fd' = .ok (.socket ref))
    (hshort : ∀ path, host.listen path = .ok () → (bytesOf path).length < 108)
    (hparse : parseSockaddr st.kernel.memory addrPtr addrLen = .ok (.unix path)) :
    Agrees st ref fd addrPtr addrLen host ↔ ¬ Astray st ref host (.unix path) := by
  have hpath := SockAddrs.sunPath_unix hparse
  have hbind := bind_unix hfd hget hparse host
  by_cases hunix : (st.read ref).familyUnix = true
  · rcases bindPath_cases path host with ⟨hok, hlisten, hraced⟩ | ⟨herror, hraced⟩ | ⟨⟨e, herror, he⟩, hraced⟩
    · rw [bindUnix, if_pos hunix, hok] at hbind
      refine iff_of_true ((agrees_zero_iff hbind hparse).mpr ⟨.unix path, ?_, ?_, ?_⟩) ?_
      · simp only [BindState.read, BindState.setPath, Accepting.setSocket_read]
      · exact (answers_unix _ _).mpr rfl
      · exact tells_setPath hunix ⟨hpath.1, hpath.2, hshort path hlisten⟩
      · exact fun h => hraced ⟨h.2.1, h.2.2.1⟩
    · rw [bindUnix_refused hunix herror] at hbind
      rw [agrees_zero_iff hbind hparse, raced_iff hfd hget hunix hpath]
      exact ⟨fun hsame h => h.2.2.2 hsame, fun h => by_contra fun hsame => h ⟨hunix, hraced.1, hraced.2, hsame⟩⟩
    · rw [bindUnix_refused hunix herror] at hbind
      exact iff_of_true (agrees_refused hbind he rfl) fun h => hraced ⟨h.2.1, h.2.2.1⟩
  · rw [bindUnix, if_neg hunix] at hbind
    exact iff_of_true (agrees_refused hbind (by decide) rfl) fun h => hunix h.1

-- ---------------------------------------------------------------------------
-- Internet addresses
-- ---------------------------------------------------------------------------

theorem bind_inet (haddr : ∀ path, addr ≠ .unix path) (hfd : u32Fd fd = some fd')
    (hget : st.kernel.fds.get fd' = .ok (.socket ref))
    (hparse : parseSockaddr st.kernel.memory addrPtr addrLen = .ok addr) (host : Host) :
    bind st fd addrPtr addrLen host =
      match (st.read ref).kind with
      | .datagram => bindUdp st ref addr host
      | .stream => (0, st.setBound ref addr) := by
  cases addr with
  | unix path => exact absurd rfl (haddr path)
  | v4 port a => simp only [bind, hfd, hparse, hget]
  | v6 port a => simp only [bind, hfd, hparse, hget]

theorem astray_inet (haddr : ∀ path, addr ≠ .unix path) : Astray st ref host addr ↔
    match (st.read ref).kind with
    | .stream => (st.read ref).familyUnix = true
    | .datagram =>
      isV6 addr = (st.inet ref).familyV6 ∧ HostBinds (st.udpOf ref) addr host ∧
        ((st.read ref).familyUnix = true ∨
          ∃ old, (st.udpOf ref).boundAddr = some old ∧ ¬ Answers (st.read ref) addr old) := by
  cases addr with
  | unix path => exact absurd rfl (haddr path)
  | v4 port a => rfl
  | v6 port a => rfl

theorem withPort_inet (haddr : ∀ path, addr ≠ .unix path) (port : UInt16) :
    ∀ path, withPort port addr ≠ .unix path := by
  cases addr with
  | unix path => exact absurd rfl (haddr path)
  | v4 port a => simp [withPort]
  | v6 port a => simp [withPort]

theorem Answers.inet {s : SocketInner} (h : Answers s addr bound) (haddr : ∀ path, addr ≠ .unix path) :
    ∀ path, bound ≠ .unix path := by
  unfold Answers at h
  split at h
  · rw [h]
    exact haddr
  · obtain ⟨port, rfl⟩ := h
    exact withPort_inet haddr port

theorem encodable_inet (haddr : ∀ path, bound ≠ .unix path) : Encodable bound := by
  cases bound with
  | unix path => exact absurd rfl (haddr path)
  | v4 port a => trivial
  | v6 port a => trivial

/-- The recorded address is reported by a socket that is no Unix socket. -/
theorem recorded_iff {k' : Kernel} (hfd : u32Fd fd = some fd') (hget : k'.fds.get fd' = .ok (.socket ref))
    (hread : k'.cells.sockets.read ref = { st.read ref with bound := some bound }) (haddr : ∀ path, addr ≠ .unix path) :
    (∃ b, (k'.cells.sockets.read ref).bound = some b ∧ Answers (st.read ref) addr b ∧ Tells k' ref b) ↔
      Answers (st.read ref) addr bound ∧ ¬ (st.read ref).familyUnix = true := by
  have hbound : (k'.cells.sockets.read ref).bound = some bound := by rw [hread]
  have hfamily : (k'.cells.sockets.read ref).familyUnix = (st.read ref).familyUnix := by rw [hread]
  constructor
  · rintro ⟨b, hb, hanswers, htells⟩
    rw [hbound] at hb
    cases hb
    refine ⟨hanswers, fun hunix => ?_⟩
    refine not_tells_unix hfd hget (hfamily ▸ hunix) (fun path hpath => ?_) htells
    have heq : some bound = some (.unix path) := hbound.symm.trans hpath
    exact absurd (Option.some.inj heq) (hanswers.inet haddr path)
  · rintro ⟨hanswers, hinet⟩
    have hnot := hanswers.inet haddr
    refine ⟨bound, hbound, hanswers, tells_of_bound hbound ?_ (encodable_inet hnot)⟩
    rw [hfamily]
    exact iff_of_false hinet fun ⟨path, hpath⟩ => hnot path hpath

theorem agrees_inet (hfd : u32Fd fd = some fd') (hget : st.kernel.fds.get fd' = .ok (.socket ref))
    (haddr : ∀ path, addr ≠ .unix path) (hparse : parseSockaddr st.kernel.memory addrPtr addrLen = .ok addr) :
    Agrees st ref fd addrPtr addrLen host ↔ ¬ Astray st ref host addr := by
  have hbind := bind_inet haddr hfd hget hparse host
  rw [astray_inet haddr]
  cases hkind : (st.read ref).kind with
  | stream =>
    rw [hkind] at hbind
    have hread : (st.setBound ref addr).kernel.cells.sockets.read ref = { st.read ref with bound := some addr } :=
      Accepting.setSocket_read ..
    have hget' : (st.setBound ref addr).kernel.fds.get fd' = .ok (.socket ref) := hget
    rw [agrees_zero_iff hbind hparse]
    refine (recorded_iff hfd hget' hread haddr).trans ?_
    simp only [Answers, hkind, true_and]
  | datagram =>
    rw [hkind] at hbind
    by_cases h : isV6 addr = (st.inet ref).familyV6 ∧ HostBinds (st.udpOf ref) addr host
    · obtain ⟨st', actual, hresult, hkernel, hold⟩ := bindUdp_binds h.1 h.2
      have hread : st'.kernel.cells.sockets.read ref = { st.read ref with bound := some actual } := by
        rw [hkernel]
        exact Accepting.setSocket_read ..
      have hget' : st'.kernel.fds.get fd' = .ok (.socket ref) := by
        rw [hkernel]
        exact hget
      rw [agrees_zero_iff (hbind.trans hresult) hparse]
      refine (recorded_iff hfd hget' hread haddr).trans ?_
      have hanswers : Answers (st.read ref) addr actual ↔
          ∀ old, (st.udpOf ref).boundAddr = some old → Answers (st.read ref) addr old := by
        rcases hold with hold | ⟨hnone, port, rfl⟩
        · simp [hold]
        · refine iff_of_true ?_ (by simp [hnone])
          simp only [Answers, hkind]
          exact ⟨port, rfl⟩
      rw [hanswers]
      simp only [h.1, h.2, true_and, not_or, not_exists, not_and, not_not]
      exact and_comm
    · obtain ⟨e, st', hresult, he, hkernel⟩ := bindUdp_refused h
      refine iff_of_true (agrees_refused (hbind.trans hresult) he ?_) fun hastray => h ⟨hastray.1, hastray.2.1⟩
      rw [BindState.read, hkernel]
      rfl

-- ---------------------------------------------------------------------------
-- The host's answers in one
-- ---------------------------------------------------------------------------

theorem coarse_inet (haddr : ∀ path, addr ≠ .unix path) (hfd : u32Fd fd = some fd')
    (hget : st.kernel.fds.get fd' = .ok (.socket ref))
    (hparse : parseSockaddr st.kernel.memory addrPtr addrLen = .ok addr) (host : Host) : ∃ coarse : BindHost,
    Sys.bind st.kernel fd addrPtr addrLen coarse =
      ((bind st fd addrPtr addrLen host).1, (bind st fd addrPtr addrLen host).2.kernel) := by
  have hcoarse (datagram : Except Int SockAddr) :
      Sys.bind st.kernel fd addrPtr addrLen { unix := .error 0, datagram } =
        match (st.read ref).kind, datagram with
        | .stream, _ => (0, (st.setBound ref addr).kernel)
        | .datagram, .error e => (e, st.kernel)
        | .datagram, .ok actual => (0, setSocket st.kernel ref { st.read ref with bound := some actual }) := by
    cases addr with
    | unix path => exact absurd rfl (haddr path)
    | v4 port a =>
      simp only [Sys.bind, hfd, hparse, hget, BindState.read, BindState.setBound]
      cases (st.kernel.cells.sockets.read ref).kind <;> cases datagram <;> rfl
    | v6 port a =>
      simp only [Sys.bind, hfd, hparse, hget, BindState.read, BindState.setBound]
      cases (st.kernel.cells.sockets.read ref).kind <;> cases datagram <;> rfl
  rw [bind_inet haddr hfd hget hparse]
  cases hkind : (st.read ref).kind with
  | stream =>
    refine ⟨{ unix := .error 0, datagram := .error 0 }, ?_⟩
    rw [hcoarse, hkind]
  | datagram =>
    by_cases h : isV6 addr = (st.inet ref).familyV6 ∧ HostBinds (st.udpOf ref) addr host
    · obtain ⟨st', actual, hresult, hkernel, -⟩ := bindUdp_binds h.1 h.2
      refine ⟨{ unix := .error 0, datagram := .ok actual }, ?_⟩
      rw [hcoarse, hkind, hresult, hkernel]
    · obtain ⟨e, st', hresult, -, hkernel⟩ := bindUdp_refused h
      refine ⟨{ unix := .error 0, datagram := .error e }, ?_⟩
      rw [hcoarse, hkind, hresult, hkernel]

theorem coarse_unix (hfd : u32Fd fd = some fd') (hget : st.kernel.fds.get fd' = .ok (.socket ref))
    (hparse : parseSockaddr st.kernel.memory addrPtr addrLen = .ok (.unix path)) (host : Host) :
    Sys.bind st.kernel fd addrPtr addrLen { unix := bindPath path host, datagram := .error 0 } =
      ((bind st fd addrPtr addrLen host).1, (bind st fd addrPtr addrLen host).2.kernel) := by
  simp only [Sys.bind, bind, hfd, hparse, hget, bindUnix]
  by_cases hunix : (st.read ref).familyUnix = true
  · have hread : (st.kernel.cells.sockets.read ref).familyUnix = true := hunix
    rw [if_pos hunix, if_pos hread]
    cases bindPath path host with
    | error e => rfl
    | ok _ => rfl
  · have hread : ¬ (st.kernel.cells.sockets.read ref).familyUnix = true := hunix
    rw [if_neg hunix, if_neg hread]

/-- With all that the host answers in one, this is the `bind` that the rest of the model
has. -/
theorem bind_coarse (st : BindState) (fd addrPtr addrLen : Int) (host : Host) : ∃ coarse : BindHost,
    Sys.bind st.kernel fd addrPtr addrLen coarse =
      ((bind st fd addrPtr addrLen host).1, (bind st fd addrPtr addrLen host).2.kernel) := by
  let idle : BindHost := { unix := .error 0, datagram := .error 0 }
  cases hfd : u32Fd fd with
  | none => exact ⟨idle, by simp only [Sys.bind, bind, hfd]⟩
  | some fd' =>
    cases hparse : parseSockaddr st.kernel.memory addrPtr addrLen with
    | error e => exact ⟨idle, by simp only [Sys.bind, bind, hfd, hparse]⟩
    | ok addr =>
      by_cases hsocket : ∃ ref, st.kernel.fds.get fd' = .ok (.socket ref)
      · obtain ⟨ref, hget⟩ := hsocket
        cases addr with
        | unix path => exact ⟨_, coarse_unix hfd hget hparse host⟩
        | v4 port a => exact coarse_inet (by simp) hfd hget hparse host
        | v6 port a => exact coarse_inet (by simp) hfd hget hparse host
      · refine ⟨idle, ?_⟩
        cases hget : st.kernel.fds.get fd' with
        | error e => cases addr <;> simp only [Sys.bind, bind, hfd, hparse, hget]
        | ok r =>
          cases r with
          | socket ref => exact absurd ⟨ref, hget⟩ hsocket
          | _ => cases addr <;> simp only [Sys.bind, bind, hfd, hparse, hget]

-- ---------------------------------------------------------------------------
-- bind and getsockname agree
-- ---------------------------------------------------------------------------

/-- Whatever `bind` returns, the socket, the value and `getsockname` agree, except where it
goes astray. -/
theorem bind_agrees_iff (hfd : u32Fd fd = some fd') (hget : st.kernel.fds.get fd' = .ok (.socket ref))
    (hshort : ∀ path, host.listen path = .ok () → (bytesOf path).length < 108) (addrPtr addrLen : Int) :
    Agrees st ref fd addrPtr addrLen host ↔
      ∀ addr, parseSockaddr st.kernel.memory addrPtr addrLen = .ok addr → ¬ Astray st ref host addr := by
  cases hparse : parseSockaddr st.kernel.memory addrPtr addrLen with
  | error e =>
    have hbind : bind st fd addrPtr addrLen host = (e, st) := by
      simp only [bind, hfd, hparse]
    refine iff_of_true (agrees_refused hbind (SockAddrs.parseSockaddr_error_neg hparse).ne rfl) ?_
    rintro addr ⟨⟩
  | ok addr =>
    have hagrees : Agrees st ref fd addrPtr addrLen host ↔ ¬ Astray st ref host addr := by
      cases addr with
      | unix path => exact agrees_unix hfd hget hshort hparse
      | v4 port a => exact agrees_inet hfd hget (by simp) hparse
      | v6 port a => exact agrees_inet hfd hget (by simp) hparse
    rw [hagrees]
    constructor
    · rintro h addr ⟨⟩
      exact h
    · exact fun h => h addr rfl

-- ---------------------------------------------------------------------------
-- A stale socket that is gone
-- ---------------------------------------------------------------------------

def unixSocket (memory : Option MemoryKind) : Int × BindState :=
  socket {
    kernel := { Kernel.new [] [] { root := "/", cwd := "/" } (Vector.replicate 32 0) with memory }
    inet := fun _ => { familyV6 := false, ipv6V6only := false, udp := none } } 1 1

theorem unixSocket_fd (memory : Option MemoryKind) : (unixSocket memory).1 = 3 := rfl

theorem unixSocket_open (memory : Option MemoryKind) :
    (unixSocket memory).2.kernel.fds.get 3 = .ok (.socket 0) := rfl

theorem unixSocket_memory (memory : Option MemoryKind) : (unixSocket memory).2.kernel.memory = memory := rfl

theorem unixSocket_read (memory : Option MemoryKind) : (unixSocket memory).2.read 0 = .newUnix .stream false := rfl

def pathMemory : Option MemoryKind := SockAddrs.structMemory "/s"

theorem pathMemory_parse : parseSockaddr pathMemory 16 5 = .ok (.unix "/s") := by
  have hencodable : Encodable (.unix "/s") := ⟨by decide, by decide, by decide⟩
  have hlength : (encode (.unix "/s")).length = SOCKADDR_UN_SIZE := SockAddrs.sockaddrUn_length _
  have hstands : Stands pathMemory 16 (.unix "/s") := by
    rw [Stands, hlength]
    exact SockAddrs.structMemory_slice "/s"
  have hlen : ((encodedLen (.unix "/s") : Nat) : Int) = 5 := by decide
  have hparse := parse_encoded (by decide) hencodable hstands
  rwa [hlen] at hparse

def listening : Host where
  isSocket _ := .error .notFound
  removeFile _ := .error .notFound
  listen path := if (bytesOf path).length < 108 then .ok () else .error .other
  newSocket _ := .error .other
  bindSocket _ _ := .error .other
  localPort := .error .other

def racing : Host := { listening with isSocket := fun _ => .ok true }

theorem listening_short : ∀ path, listening.listen path = .ok () → (bytesOf path).length < 108 := by
  intro path h
  by_contra hlong
  simp [listening, hlong] at h

theorem bind_agrees_listening :
    u32Fd 3 = some 3 ∧ (unixSocket pathMemory).2.kernel.fds.get 3 = .ok (.socket 0) ∧
      (∀ path, listening.listen path = .ok () → (bytesOf path).length < 108) ∧
      Agrees (unixSocket pathMemory).2 0 3 16 5 listening := by
  have hget := unixSocket_open pathMemory
  refine ⟨rfl, hget, listening_short, (bind_agrees_iff rfl hget listening_short 16 5).mpr fun addr haddr => ?_⟩
  rw [unixSocket_memory, pathMemory_parse] at haddr
  cases haddr
  rintro ⟨-, hsocket, -⟩
  cases hsocket

/-- The call returns 0 and the socket is not bound. -/
theorem raced_bind_records_nothing :
    (unixSocket pathMemory).1 = 3 ∧ parseSockaddr pathMemory 16 5 = .ok (.unix "/s") ∧
      bind (unixSocket pathMemory).2 3 16 5 racing = (0, (unixSocket pathMemory).2) ∧
      ((unixSocket pathMemory).2.read 0).bound = none ∧
      ¬ Agrees (unixSocket pathMemory).2 0 3 16 5 racing := by
  have hbound : ((unixSocket pathMemory).2.read 0).bound = none := by
    rw [unixSocket_read]
    rfl
  have hunix : ((unixSocket pathMemory).2.read 0).familyUnix = true := by
    rw [unixSocket_read]
    rfl
  have hnumber : u32Fd 3 = some 3 := rfl
  have hpath : bindPath "/s" racing = .error 0 := rfl
  have hparse : parseSockaddr (unixSocket pathMemory).2.kernel.memory 16 5 = .ok (.unix "/s") := by
    rw [unixSocket_memory, pathMemory_parse]
  have hbind := (bind_unix hnumber (unixSocket_open pathMemory) hparse racing).trans (bindUnix_refused hunix hpath)
  refine ⟨unixSocket_fd _, pathMemory_parse, hbind, hbound, fun h => ?_⟩
  obtain ⟨requested, bound, -, hrecorded, -⟩ := h.recorded (by rw [hbind])
  rw [hbind, hbound] at hrecorded
  cases hrecorded

end EdgeLibos.Sys.Bind
