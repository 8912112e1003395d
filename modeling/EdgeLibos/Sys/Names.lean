import EdgeLibos.Sys.Accepting
import EdgeLibos.Sys.Cloexec
import EdgeLibos.Sys.SockAddrs
import EdgeLibos.Sys.Stream

/-!
# Addresses written back

`getsockname`, `getpeername`, `accept4` and `recvfrom` report an address: its struct, and
its length in a second place. None of them reads the length that the guest left there. What
the record of a socket does not have, its connection and the peer of a Unix socket, is an
argument here.
-/

namespace EdgeLibos.Sys.Names

open Errno Lib
open FdSets (Fits fits_iff guestCopy_fitted)
open SockAddrs (encode encodedLen sockaddrIn_length sockaddrIn6_length sockaddrUn_length)
open Paths (bytesOf SOCKADDR_IN_SIZE SOCKADDR_IN6_SIZE SOCKADDR_UN_SIZE)

def nameBytes : Option SockAddr → List UInt8
  | some addr => encode addr
  | none => sockaddrUn none

def nameLen : Option SockAddr → UInt32
  | some addr => UInt32.ofNat (encodedLen addr)
  | none => 2

/-- `room` bytes have been checked for the struct. -/
def writeName (memory : Option MemoryKind) (addrPtr addrlenPtr room : Int) (name : Option SockAddr) :
    Option MemoryKind :=
  writeOut (writeOut memory addrPtr room (nameBytes name)) addrlenPtr 4 (le32 (nameLen name))

/-- A path that fills `sun_path` has no place for its NUL. -/
def Terminated : Option SockAddr → Prop
  | some (.unix path) => (bytesOf path).length < 108
  | _ => True

instance (name : Option SockAddr) : Decidable (Terminated name) := by
  unfold Terminated
  split <;> infer_instance

-- ---------------------------------------------------------------------------
-- getsockname, getpeername
-- ---------------------------------------------------------------------------

/-- The end of both calls. `none` is a panic: the NUL would lie behind the struct. -/
def report (k : Kernel) (addrPtr addrlenPtr room : Int) (name : Except Int (Option SockAddr)) :
    Option (Int × Kernel) :=
  match guestSlice k.memory addrPtr room, checkOut k.memory addrlenPtr 4 with
  | .error e, _ | .ok _, .error e => some (e, k)
  | .ok _, .ok _ =>
    match name with
    | .error e => some (e, k)
    | .ok name =>
      if Terminated name then some (0, { k with memory := writeName k.memory addrPtr addrlenPtr room name })
      else none

/-- Both calls: a size and a name for a Unix socket, and for any other. -/
def nameCall (k : Kernel) (fd addrPtr addrlenPtr : Int)
    (unix inet : SocketInner → Int × Except Int (Option SockAddr)) : Option (Int × Kernel) :=
  match u32Fd fd with
  | none => some (-EBADF, k)
  | some fd =>
    if addrPtr = 0 then some (-EFAULT, k)
    else
      match k.fds.get fd with
      | .error e => some (e, k)
      | .ok (.socket ref) =>
        let s := k.cells.sockets.read ref
        let (room, name) := if s.familyUnix then unix s else inet s
        report k addrPtr addrlenPtr room name
      | .ok _ => some (-EBADF, k)

/-- Without an address of its own a socket reports its peer's. -/
def localName (s : SocketInner) : Except Int SockAddr :=
  match s.bound, s.peerAddr with
  | some (.unix _), _ => .error (-EINVAL)
  | some addr, _ => .ok addr
  | none, some (.v4 port addr) => .ok (.v4 port addr)
  | none, some (.v6 port addr) => .ok (.v6 port addr)
  | none, _ => .ok (.v4 0 #v[0, 0, 0, 0])

def localUnixName (s : SocketInner) : Option SockAddr :=
  match s.bound with
  | some (.unix path) => some (.unix path)
  | _ => none

def getsockname (k : Kernel) (fd addrPtr addrlenPtr : Int) : Option (Int × Kernel) :=
  nameCall k fd addrPtr addrlenPtr
    (fun s => (SOCKADDR_UN_SIZE, .ok (localUnixName s)))
    (fun s => (SOCKADDR_IN6_SIZE, (localName s).map some))

def peerName (s : SocketInner) : Except Int SockAddr :=
  match s.peerAddr with
  | some (.v4 port addr) => .ok (.v4 port addr)
  | some _ => .error (-EINVAL)
  | none => .error (-ENOTCONN)

/-- `peer_addr_unix` is an argument; only a path that is a string is reported. -/
def peerUnixName : Option (Option PathBuf) → Except Int (Option SockAddr)
  | none => .error (-ENOTCONN)
  | some path => .ok (path.map .unix)

def getpeername (k : Kernel) (unixPeer : Option (Option PathBuf)) (fd addrPtr addrlenPtr : Int) :
    Option (Int × Kernel) :=
  nameCall k fd addrPtr addrlenPtr
    (fun _ => (SOCKADDR_UN_SIZE, peerUnixName unixPeer))
    (fun s => (SOCKADDR_IN_SIZE, (peerName s).map some))

-- ---------------------------------------------------------------------------
-- recvfrom, accept4
-- ---------------------------------------------------------------------------

def shutRd (s : SocketInner) : Bool := s.shutdownFlags &&& 0b01 ≠ 0

/-- `recvfrom` and `recvfrom_unix`, which reports no address. The connection is an
argument; `none` when the host cannot do what it is said to do. -/
def recvfrom (k : Kernel) (stream : Option Stream) (fd buf len addrPtr addrlenPtr : Int) (host : HostRead) :
    Option (Int × Kernel) :=
  match u32Fd fd with
  | none => some (-EBADF, k)
  | some fd =>
    match k.fds.get fd with
    | .error e => some (e, k)
    | .ok (.socket ref) =>
      let s := k.cells.sockets.read ref
      let (addrPtr, addrlenPtr) := if s.familyUnix then (0, 0) else (addrPtr, addrlenPtr)
      match stream with
      | none =>
        match recvChecks k.memory buf len addrPtr addrlenPtr with
        | .error e => some (e, k)
        | .ok _ => some (if shutRd s then 0 else -ENOTCONN, k)
      | some stream =>
        let r : Receiver := { memory := k.memory, fds := k.fds, socket := { stream with shutRd := shutRd s } }
        (r.recvfrom buf len addrPtr addrlenPtr host).map fun (o, r) => (o.value, { k with memory := r.memory })
    | .ok _ => some (-EBADF, k)

def socketOf (k : Kernel) (fd : Int) : Option SocketInner :=
  match (u32Fd fd).map k.fds.get with
  | some (.ok (.socket ref)) => some (k.cells.sockets.read ref)
  | _ => none

inductive NameCall
  | getsockname
  | getpeername (unixPeer : Option (Option PathBuf))
  | accept4 (flags : Int) (host : AcceptHost)
  | recvfrom (stream : Option Stream) (buf len : Int) (host : HostRead)

def NameCall.reported (s : SocketInner) : NameCall → Option (Option SockAddr)
  | .getsockname => if s.familyUnix then some (localUnixName s) else (localName s).toOption.map some
  | .getpeername unixPeer =>
    if s.familyUnix then (peerUnixName unixPeer).toOption else (peerName s).toOption.map some
  | .accept4 _ host =>
    if s.familyUnix then host.unixPeer.map fun path => path.map .unix else host.peer.map some
  | .recvfrom _ _ _ _ => if s.familyUnix || shutRd s then none else some (some (.v4 0 LOCALHOST))

/-- A whole call; `none` also when it panics, over the peer of an accepted Unix connection. -/
def NameCall.run (k : Kernel) (fd addrPtr addrlenPtr : Int) (c : NameCall) : Option (Int × Kernel) :=
  match c with
  | .getsockname => Names.getsockname k fd addrPtr addrlenPtr
  | .getpeername unixPeer => Names.getpeername k unixPeer fd addrPtr addrlenPtr
  | .accept4 flags host =>
    match Accepting.call k fd addrPtr addrlenPtr flags host with
    | .returns value k' =>
      let name := ((socketOf k fd).bind c.reported).join
      if addrPtr ≠ 0 ∧ 0 ≤ value ∧ ¬ Terminated name then none else some (value, k')
    | .waits _ _ => none
  | .recvfrom stream buf len host => Names.recvfrom k stream fd buf len addrPtr addrlenPtr host

def NameCall.received (value : Int) : NameCall → Nat → Prop
  | .recvfrom _ buf _ _ => Span buf value.toNat
  | _ => fun _ => False

-- ---------------------------------------------------------------------------
-- One address
-- ---------------------------------------------------------------------------

/-- The whole struct and its length are in memory, and nothing else was written but what is
`other`; where the two overlap the length wins. -/
structure WrittenBack (memory memory' : Option MemoryKind) (addrPtr addrlenPtr : Int) (name : Option SockAddr)
    (other : Nat → Prop) : Prop where
  length : ∀ i, Span addrlenPtr 4 i → byteAt memory' i = (le32 (nameLen name))[i - addrlenPtr.toNat]?
  struct : ∀ i, Span addrPtr (nameBytes name).length i → ¬ Span addrlenPtr 4 i →
    byteAt memory' i = (nameBytes name)[i - addrPtr.toNat]?
  others : Keeps memory memory' fun i =>
    Span addrlenPtr 4 i ∨ Span addrPtr (nameBytes name).length i ∨ other i

variable {memory memory' : Option MemoryKind} {ptr len addrPtr addrlenPtr room : Int} {new : List UInt8}
  {name : Option SockAddr}

theorem writeOut_byteAt (hptr : ptr ≠ 0) (hfits : Fits memory ptr len) (hnew : new.length ≤ len.toNat) (i : Nat) :
    byteAt (writeOut memory ptr len new) i =
      if Span ptr new.length i then new[i - ptr.toNat]? else byteAt memory i := by
  obtain ⟨memory', hcopy⟩ := SockAddrs.copy_room new hfits hnew
  unfold writeOut
  rw [if_neg hptr, hcopy]
  exact guestCopy_byteAt hcopy i

theorem writeOut_fits (memory : Option MemoryKind) (ptr len : Int) (new : List UInt8) :
    Fits (writeOut memory ptr len new) p n ↔ Fits memory p n := by
  unfold writeOut
  split
  · rfl
  · split
    · rfl
    · rename_i hcopy
      exact (guestCopy_fitted hcopy).2.2 p n

theorem writeName_writtenBack (name : Option SockAddr) (haddr : addrPtr ≠ 0) (haddrlen : addrlenPtr ≠ 0)
    (hroom : Fits memory addrPtr room) (hword : Fits memory addrlenPtr 4)
    (hname : (nameBytes name).length ≤ room.toNat) :
    WrittenBack memory (writeName memory addrPtr addrlenPtr room name) addrPtr addrlenPtr name
      fun _ => False := by
  have hbyte : ∀ i, byteAt (writeName memory addrPtr addrlenPtr room name) i =
      if Span addrlenPtr 4 i then (le32 (nameLen name))[i - addrlenPtr.toNat]?
      else if Span addrPtr (nameBytes name).length i then (nameBytes name)[i - addrPtr.toNat]?
      else byteAt memory i := by
    intro i
    have hword' := (writeOut_fits memory addrPtr room (nameBytes name)).mpr hword
    rw [writeName, writeOut_byteAt haddrlen hword' (by simp), le32_length, writeOut_byteAt haddr hroom hname]
  constructor
  · intro i hi
    rw [hbyte, if_pos hi]
  · intro i hi hnot
    rw [hbyte, if_neg hnot, if_pos hi]
  · intro i hi
    simp only [not_or] at hi
    rw [hbyte, if_neg hi.1, if_neg hi.2.1]

theorem nameBytes_length (name : Option SockAddr) : (nameBytes name).length =
    match name with
    | some (.v4 _ _) => SOCKADDR_IN_SIZE
    | some (.v6 _ _) => SOCKADDR_IN6_SIZE
    | some (.unix _) | none => SOCKADDR_UN_SIZE := by
  match name with
  | some (.v4 port addr) => exact sockaddrIn_length port addr
  | some (.v6 port addr) => exact sockaddrIn6_length port addr
  | some (.unix path) => exact sockaddrUn_length (some path)
  | none => exact sockaddrUn_length none

theorem checkOut_fits (hptr : ptr ≠ 0) (h : checkOut memory ptr len = .ok u) : Fits memory ptr len := by
  unfold checkOut at h
  rw [if_neg hptr] at h
  split at h
  · cases h
  · rename_i hslice
    exact .of_slice hslice

/-- A refused call leaves memory alone; one that succeeds reports an address. -/
def Reports (k : Kernel) (fd addrPtr addrlenPtr : Int) (c : NameCall) (value : Int) (k' : Kernel) : Prop :=
  value < 0 ∧ k'.memory = k.memory ∨ 0 ≤ value ∧ ∃ s, socketOf k fd = some s ∧
    ∃ name, c.reported s = some name ∧
      WrittenBack k.memory k'.memory addrPtr addrlenPtr name fun _ => False

variable {k k' : Kernel} {fd value : Int}

theorem Reports.refused {nc : NameCall} (hvalue : value < 0) (hmemory : k'.memory = k.memory) :
    Reports k fd addrPtr addrlenPtr nc value k' := .inl ⟨hvalue, hmemory⟩

-- ---------------------------------------------------------------------------
-- getsockname, getpeername
-- ---------------------------------------------------------------------------

/-- A size that is enough for the name, and otherwise an errno. -/
structure Sound (x : Int × Except Int (Option SockAddr)) : Prop where
  refused : ∀ e, x.2 = .error e → e < 0
  enough : ∀ name, x.2 = .ok name → (nameBytes name).length ≤ x.1.toNat

theorem report_ok {x : Int × Except Int (Option SockAddr)} (hx : Sound x) (haddr : addrPtr ≠ 0)
    (haddrlen : addrlenPtr ≠ 0) (h : report k addrPtr addrlenPtr x.1 x.2 = some (value, k')) :
    value < 0 ∧ k' = k ∨ value = 0 ∧ ∃ name, x.2 = .ok name ∧
      WrittenBack k.memory k'.memory addrPtr addrlenPtr name fun _ => False := by
  unfold report at h
  split at h
  · rename_i hslice
    cases h
    exact .inl ⟨guestSlice_error_neg hslice, rfl⟩
  · rename_i hout
    cases h
    exact .inl ⟨checkOut_error_neg hout, rfl⟩
  · rename_i hslice hout
    split at h
    · rename_i e hname
      cases h
      exact .inl ⟨hx.refused _ hname, rfl⟩
    · rename_i name hname
      split at h
      · cases h
        refine .inr ⟨rfl, name, hname, ?_⟩
        exact writeName_writtenBack name haddr haddrlen (.of_slice hslice) (checkOut_fits haddrlen hout)
          (hx.enough name hname)
      · cases h

theorem socketOf_some {fd' : UInt32} (hfd : u32Fd fd = some fd') (hget : k.fds.get fd' = .ok (.socket ref)) :
    socketOf k fd = some (k.cells.sockets.read ref) := by
  simp only [socketOf, hfd, Option.map_some, hget]

theorem nameCall_reports {nc : NameCall} {unix inet : SocketInner → Int × Except Int (Option SockAddr)}
    (hunix : ∀ s, Sound (unix s)) (hinet : ∀ s, Sound (inet s))
    (hname : ∀ s, nc.reported s = (if s.familyUnix then unix s else inet s).2.toOption) (haddrlen : addrlenPtr ≠ 0)
    (h : nameCall k fd addrPtr addrlenPtr unix inet = some (value, k')) :
    Reports k fd addrPtr addrlenPtr nc value k' := by
  have hebadf : -EBADF < 0 := by decide
  have hefault : -EFAULT < 0 := by decide
  unfold nameCall at h
  split at h
  · cases h
    exact .refused hebadf rfl
  · rename_i fd' hfd
    split at h
    · cases h
      exact .refused hefault rfl
    · rename_i haddr
      split at h
      · rename_i hget
        cases h
        exact .refused (get_error_neg hget) rfl
      · rename_i ref hget
        have hx : Sound (if (k.cells.sockets.read ref).familyUnix then unix (k.cells.sockets.read ref)
            else inet (k.cells.sockets.read ref)) := by
          split
          · exact hunix _
          · exact hinet _
        rcases report_ok hx haddr haddrlen h with ⟨hvalue, rfl⟩ | ⟨rfl, name, hok, hwritten⟩
        · exact .refused hvalue rfl
        · refine .inr ⟨le_refl _, _, socketOf_some hfd hget, name, ?_, hwritten⟩
          rw [hname, hok]
          rfl
      · cases h
        exact .refused hebadf rfl

/-- With room for both, a call on a socket gets to its name; a path that is too long ends
in a panic. -/
theorem nameCall_named {unix inet : SocketInner → Int × Except Int (Option SockAddr)} {fd' : UInt32}
    (hfd : u32Fd fd = some fd') (hget : k.fds.get fd' = .ok (.socket ref)) (haddr : addrPtr ≠ 0)
    (haddrlen : addrlenPtr ≠ 0) (hroom : Fits k.memory addrPtr room) (hword : Fits k.memory addrlenPtr 4)
    (hx : (if (k.cells.sockets.read ref).familyUnix then unix (k.cells.sockets.read ref)
      else inet (k.cells.sockets.read ref)) = (room, .ok name)) :
    nameCall k fd addrPtr addrlenPtr unix inet =
      if Terminated name then some (0, { k with memory := writeName k.memory addrPtr addrlenPtr room name })
      else none := by
  obtain ⟨bytes, hslice⟩ := hroom.slice
  obtain ⟨word, hword⟩ := hword.slice
  have hout : checkOut k.memory addrlenPtr 4 = .ok () := by
    rw [checkOut, if_neg haddrlen, hword]
  simp only [nameCall, hfd, if_neg haddr, hget, hx, report, hslice, hout]

theorem localUnixName_sound (s : SocketInner) : Sound (SOCKADDR_UN_SIZE, .ok (localUnixName s)) := by
  constructor
  · intro e h
    cases h
  · intro name h
    cases h
    unfold localUnixName
    split
    · exact (nameBytes_length _).le
    · exact (nameBytes_length _).le

theorem localName_sound (s : SocketInner) : Sound (SOCKADDR_IN6_SIZE, (localName s).map some) := by
  have heinval : -EINVAL < 0 := by decide
  have hin : SOCKADDR_IN_SIZE ≤ SOCKADDR_IN6_SIZE := by decide
  constructor
  · intro e h
    unfold localName at h
    split at h <;> cases h
    exact heinval
  · intro name h
    unfold localName at h
    split at h
    · cases h
    · rename_i addr hnot _
      cases h
      cases addr with
      | v4 port a => exact (nameBytes_length _).trans_le hin
      | v6 port a => exact (nameBytes_length _).le
      | unix path => exact absurd rfl (hnot path)
    · cases h
      exact (nameBytes_length _).trans_le hin
    · cases h
      exact (nameBytes_length _).le
    · cases h
      exact (nameBytes_length _).trans_le hin

theorem peerName_sound (s : SocketInner) : Sound (SOCKADDR_IN_SIZE, (peerName s).map some) := by
  have heinval : -EINVAL < 0 := by decide
  have henotconn : -ENOTCONN < 0 := by decide
  constructor
  · intro e h
    unfold peerName at h
    split at h <;> cases h
    · exact heinval
    · exact henotconn
  · intro name h
    unfold peerName at h
    split at h <;> cases h
    exact (nameBytes_length _).le

theorem peerUnixName_sound (peer : Option (Option PathBuf)) : Sound (SOCKADDR_UN_SIZE, peerUnixName peer) := by
  have henotconn : -ENOTCONN < 0 := by decide
  constructor
  · intro e h
    cases peer with
    | none =>
      cases h
      exact henotconn
    | some path => cases h
  · intro name h
    cases peer with
    | none => cases h
    | some path =>
      cases h
      cases path with
      | none => exact (nameBytes_length _).le
      | some path => exact (nameBytes_length _).le

theorem toOption_map (x : Except ε α) (f : α → β) : (x.map f).toOption = x.toOption.map f := by
  cases x with
  | error e => rfl
  | ok a => rfl

theorem getsockname_reports (haddrlen : addrlenPtr ≠ 0) (h : getsockname k fd addrPtr addrlenPtr = some (value, k')) :
    Reports k fd addrPtr addrlenPtr .getsockname value k' := by
  refine nameCall_reports localUnixName_sound localName_sound (fun s => ?_) haddrlen h
  rw [NameCall.reported]
  split
  · rfl
  · exact (toOption_map _ _).symm

theorem getpeername_reports (haddrlen : addrlenPtr ≠ 0)
    (h : getpeername k unixPeer fd addrPtr addrlenPtr = some (value, k')) :
    Reports k fd addrPtr addrlenPtr (.getpeername unixPeer) value k' := by
  refine nameCall_reports (fun _ => peerUnixName_sound unixPeer) peerName_sound (fun s => ?_) haddrlen h
  rw [NameCall.reported]
  split
  · rfl
  · exact (toOption_map _ _).symm

-- ---------------------------------------------------------------------------
-- recvfrom
-- ---------------------------------------------------------------------------

theorem WrittenBack.after {memory₀ : Option MemoryKind} {data : Nat → Prop}
    (h : WrittenBack memory memory' addrPtr addrlenPtr name fun _ => False) (hdata : Keeps memory₀ memory data) :
    WrittenBack memory₀ memory' addrPtr addrlenPtr name data := by
  refine ⟨h.length, h.struct, fun i hi => ?_⟩
  simp only [not_or] at hi
  rw [h.others i (by simp [hi.1, hi.2.1]), hdata i hi.2.2]

theorem writePeer_eq (haddr : addrPtr ≠ 0) (haddrlen : addrlenPtr ≠ 0) :
    writePeer memory addrPtr addrlenPtr =
      writeName memory addrPtr addrlenPtr SOCKADDR_IN_SIZE (some (.v4 0 #v[127, 0, 0, 1])) := by
  have hout : ∀ memory ptr len new, ptr ≠ 0 →
      writeOut memory ptr len new = (guestCopy memory ptr len new).toOption.getD memory := by
    intro memory ptr len new hptr
    unfold writeOut
    rw [if_neg hptr]
    cases guestCopy memory ptr len new with
    | error e => rfl
    | ok memory' => rfl
  rw [writePeer, if_pos haddr, if_pos haddrlen, writeName, hout _ _ _ _ haddr, hout _ _ _ _ haddrlen]
  rfl

theorem recvChecks_eq (memory : Option MemoryKind) (buf len addrPtr addrlenPtr : Int) :
    recvChecks memory buf len addrPtr addrlenPtr =
      if len < 0 then .error (-EFAULT)
      else if len = 0 then .error (-EINVAL)
      else
        match guestSlice memory buf len, checkOut memory addrPtr SOCKADDR_IN_SIZE with
        | .error e, _ | .ok _, .error e => .error e
        | .ok _, .ok _ => checkOut memory addrlenPtr 4 := by
  unfold recvChecks checkOut
  split
  · rfl
  · split
    · rfl
    · cases guestSlice memory buf len with
      | error e => rfl
      | ok bytes =>
        by_cases haddr : addrPtr = 0
        · by_cases haddrlen : addrlenPtr = 0
          · rw [if_neg (not_not.mpr haddr), if_neg (not_not.mpr haddrlen), if_pos haddr, if_pos haddrlen]
            rfl
          · rw [if_neg (not_not.mpr haddr), if_pos haddrlen, if_pos haddr, if_neg haddrlen]
            cases guestSlice memory addrlenPtr 4 with
            | error e => rfl
            | ok word => rfl
        · rw [if_pos haddr, if_neg haddr, SOCKADDR_IN_SIZE]
          cases guestSlice memory addrPtr 16 with
          | error e => rfl
          | ok addr =>
            by_cases haddrlen : addrlenPtr = 0
            · rw [if_neg (not_not.mpr haddrlen), if_pos haddrlen]
              rfl
            · rw [if_pos haddrlen, if_neg haddrlen]
              cases guestSlice memory addrlenPtr 4 with
              | error e => rfl
              | ok word => rfl

theorem recvChecks_error_neg (h : recvChecks memory buf len addrPtr addrlenPtr = .error e) : e < 0 := by
  have hefault : -EFAULT < 0 := by decide
  have heinval : -EINVAL < 0 := by decide
  rw [recvChecks_eq] at h
  split at h
  · cases h
    exact hefault
  · split at h
    · cases h
      exact heinval
    · split at h
      · rename_i hslice
        cases h
        exact guestSlice_error_neg hslice
      · rename_i hout
        cases h
        exact checkOut_error_neg hout
      · exact checkOut_error_neg h

theorem recvChecks_outs (h : recvChecks memory buf len addrPtr addrlenPtr = .ok u) :
    Accepting.OutsOk memory addrPtr addrlenPtr := by
  rw [recvChecks_eq] at h
  split at h
  · cases h
  · split at h
    · cases h
    · split at h
      · cases h
      · cases h
      · rename_i hout
        exact ⟨hout, h⟩

theorem receive_ok {r r' : Receiver} (h : r.recvfrom buf len addrPtr addrlenPtr host = some (o, r')) :
    o.value < 0 ∧ r'.memory = r.memory ∨ 0 ≤ o.value ∧
      (r.socket.shutRd = true ∧ r'.memory = r.memory ∨
        r.socket.shutRd = false ∧ ∃ memory, Keeps r.memory memory (Span buf o.value.toNat) ∧
          (∀ p n, Fits memory p n ↔ Fits r.memory p n) ∧ recvChecks r.memory buf len addrPtr addrlenPtr = .ok () ∧
            r'.memory = writePeer memory addrPtr addrlenPtr) := by
  have heio : - Errno.EIO < 0 := by decide
  simp only [Receiver.recvfrom] at h
  split at h
  · rename_i hchecks
    cases h
    exact .inl ⟨recvChecks_error_neg hchecks, rfl⟩
  · rename_i hchecks
    split at h
    · rename_i hshut
      cases h
      exact .inr ⟨le_refl _, .inl ⟨hshut, rfl⟩⟩
    · rename_i hopen
      split at h
      · cases h
      · cases h
        exact .inl ⟨heio, rfl⟩
      · rename_i data s hread
        split at h
        · rename_i hcopy
          cases h
          exact .inl ⟨guestCopy_error_neg hcopy, rfl⟩
        · rename_i memory hcopy
          cases h
          refine .inr ⟨Int.natCast_nonneg _, .inr ⟨Bool.eq_false_iff.mpr hopen, memory, ?_, ?_, hchecks, rfl⟩⟩
          · exact guestCopy_keeps hcopy fun i hi => hi
          · exact (guestCopy_fitted hcopy).2.2

theorem receive_unnamed {r r' : Receiver} (h : r.recvfrom buf len 0 0 host = some (o, r')) :
    o.value < 0 ∧ r'.memory = r.memory ∨ 0 ≤ o.value ∧ Keeps r.memory r'.memory (Span buf o.value.toNat) := by
  rcases receive_ok h with hrefused | ⟨hvalue, ⟨-, hsame⟩ | ⟨-, memory, hkeeps, -, -, hmemory⟩⟩
  · exact .inl hrefused
  · exact .inr ⟨hvalue, hsame ▸ .refl _ _⟩
  · exact .inr ⟨hvalue, hmemory ▸ hkeeps⟩

theorem receive_named {r r' : Receiver} (haddr : addrPtr ≠ 0) (haddrlen : addrlenPtr ≠ 0)
    (h : r.recvfrom buf len addrPtr addrlenPtr host = some (o, r')) :
    o.value < 0 ∧ r'.memory = r.memory ∨ 0 ≤ o.value ∧
      if r.socket.shutRd then Keeps r.memory r'.memory (Span buf o.value.toNat)
      else WrittenBack r.memory r'.memory addrPtr addrlenPtr (some (.v4 0 #v[127, 0, 0, 1]))
        (Span buf o.value.toNat) := by
  rcases receive_ok h with
    hrefused | ⟨hvalue, ⟨hshut, hsame⟩ | ⟨hopen, memory, hkeeps, hfits, hchecks, hmemory⟩⟩
  · exact .inl hrefused
  · refine .inr ⟨hvalue, ?_⟩
    rw [if_pos hshut, hsame]
    exact .refl _ _
  · refine .inr ⟨hvalue, ?_⟩
    have houts := recvChecks_outs hchecks
    have hwritten := writeName_writtenBack (some (.v4 0 #v[127, 0, 0, 1])) haddr haddrlen
      ((hfits _ _).mpr (checkOut_fits haddr houts.1)) ((hfits _ _).mpr (checkOut_fits haddrlen houts.2))
      (nameBytes_length _).le
    rw [← writePeer_eq haddr haddrlen, ← hmemory] at hwritten
    rw [if_neg (Bool.eq_false_iff.mp hopen)]
    exact hwritten.after hkeeps

theorem recvfrom_ok (haddr : addrPtr ≠ 0) (haddrlen : addrlenPtr ≠ 0)
    (h : recvfrom k stream fd buf len addrPtr addrlenPtr host = some (value, k')) :
    value < 0 ∧ k'.memory = k.memory ∨ 0 ≤ value ∧ ∃ s, socketOf k fd = some s ∧
      if s.familyUnix || shutRd s then Keeps k.memory k'.memory (Span buf value.toNat)
      else WrittenBack k.memory k'.memory addrPtr addrlenPtr (some (.v4 0 #v[127, 0, 0, 1]))
        (Span buf value.toNat) := by
  have hebadf : -EBADF < 0 := by decide
  have henotconn : -ENOTCONN < 0 := by decide
  unfold recvfrom at h
  split at h
  · cases h
    exact .inl ⟨hebadf, rfl⟩
  · rename_i fd' hfd
    split at h
    · rename_i hget
      cases h
      exact .inl ⟨get_error_neg hget, rfl⟩
    · rename_i ref hget
      have hs := socketOf_some hfd hget
      generalize k.cells.sockets.read ref = s at h hs
      dsimp only at h
      split at h
      · split at h
        · rename_i hchecks
          cases h
          exact .inl ⟨recvChecks_error_neg hchecks, rfl⟩
        · split at h
          · rename_i hshut
            cases h
            refine .inr ⟨le_refl _, s, hs, ?_⟩
            rw [if_pos (by simp [hshut])]
            exact .refl _ _
          · cases h
            exact .inl ⟨henotconn, rfl⟩
      · rename_i stream
        obtain ⟨⟨o, r'⟩, hrecv, hout⟩ := Option.map_eq_some_iff.mp h
        cases hout
        cases hfamily : s.familyUnix with
        | true =>
          rw [hfamily, if_pos rfl] at hrecv
          rcases receive_unnamed hrecv with hrefused | ⟨hvalue, hkeeps⟩
          · exact .inl hrefused
          · refine .inr ⟨hvalue, s, hs, ?_⟩
            rw [hfamily, Bool.true_or, if_pos rfl]
            exact hkeeps
        | false =>
          rw [hfamily, if_neg Bool.false_ne_true] at hrecv
          rcases receive_named haddr haddrlen hrecv with hrefused | ⟨hvalue, hnamed⟩
          · exact .inl hrefused
          · refine .inr ⟨hvalue, s, hs, ?_⟩
            rw [hfamily, Bool.false_or]
            exact hnamed
    · cases h
      exact .inl ⟨hebadf, rfl⟩

-- ---------------------------------------------------------------------------
-- accept4
-- ---------------------------------------------------------------------------

structure Checked (k : Kernel) (addrPtr addrlenPtr room : Int) (c : AcceptCall) : Prop where
  addr : c.addrPtr = addrPtr
  addrlen : c.addrlenPtr = addrlenPtr
  struct : checkOut k.memory addrPtr room = .ok ()
  word : checkOut k.memory addrlenPtr 4 = .ok ()

def Progress (k : Kernel) (fd addrPtr addrlenPtr flags : Int) (host : AcceptHost) : Accept → Prop
  | .returns value k' => Reports k fd addrPtr addrlenPtr (.accept4 flags host) value k'
  | .waits on k' => k'.memory = k.memory ∧ ∃ s, socketOf k fd = some s ∧
    match on with
    | .bind c _ _ | .accept c _ => s.familyUnix = false ∧ Checked k addrPtr addrlenPtr SOCKADDR_IN_SIZE c
    | .acceptUnix c => s.familyUnix = true ∧ Checked k addrPtr addrlenPtr SOCKADDR_UN_SIZE c

variable {s : SocketInner} {c : AcceptCall} {flags : Int} {host : AcceptHost}

theorem takeListener_progress (hmemory : k'.memory = k.memory) (hs : socketOf k fd = some s)
    (hfamily : s.familyUnix = false) (hc : Checked k addrPtr addrlenPtr SOCKADDR_IN_SIZE c) :
    Progress k fd addrPtr addrlenPtr flags host (takeListener k' c) := by
  have hebadf : -EBADF < 0 := by decide
  have heinval : -EINVAL < 0 := by decide
  unfold takeListener
  split
  · rename_i hget
    exact .refused (get_error_neg hget) hmemory
  · simp only
    split
    · exact ⟨hmemory, s, hs, hfamily, hc⟩
    · exact .refused heinval hmemory
  · exact .refused hebadf hmemory

theorem accept4Unix_progress (hs : socketOf k fd = some s) (hfamily : s.familyUnix = true)
    (haddr : c.addrPtr = addrPtr) (haddrlen : c.addrlenPtr = addrlenPtr) (ref : Nat) (cloned : Bool) :
    Progress k fd addrPtr addrlenPtr flags host (accept4Unix k c ref cloned) := by
  have heinval : -EINVAL < 0 := by decide
  have henomem : -ENOMEM < 0 := by decide
  unfold accept4Unix
  simp only
  split
  · rename_i hout
    exact .refused (checkOut_error_neg hout) rfl
  · rename_i hout
    exact .refused (checkOut_error_neg hout) rfl
  · rename_i hstruct hword
    split
    · split
      · split
        · exact ⟨rfl, s, hs, hfamily, haddr, haddrlen, haddr ▸ hstruct, haddrlen ▸ hword⟩
        · exact .refused henomem rfl
      · exact .refused heinval rfl
    · exact .refused heinval rfl

theorem accept4_progress (k : Kernel) (fd addrPtr addrlenPtr flags : Int) (host : AcceptHost) :
    Progress k fd addrPtr addrlenPtr flags host (accept4 k fd addrPtr addrlenPtr flags host.cloned) := by
  have hebadf : -EBADF < 0 := by decide
  have heinval : -EINVAL < 0 := by decide
  have heopnotsupp : -EOPNOTSUPP < 0 := by decide
  unfold accept4
  split
  · exact .refused hebadf rfl
  · rename_i fd' hfd
    split
    · rename_i hout
      exact .refused (checkOut_error_neg hout) rfl
    · rename_i hout
      exact .refused (checkOut_error_neg hout) rfl
    · rename_i hstruct hword
      split
      · rename_i hget
        exact .refused (get_error_neg hget) rfl
      · rename_i ref hget
        have hs := socketOf_some hfd hget
        simp only
        split
        · rename_i hfamily
          exact accept4Unix_progress hs hfamily rfl rfl _ _
        · rename_i hfamily
          have hfamily' := Bool.eq_false_iff.mpr hfamily
          split
          · exact .refused heinval rfl
          · split
            · split
              · exact ⟨rfl, _, hs, hfamily', rfl, rfl, hstruct, hword⟩
              · exact takeListener_progress rfl hs hfamily' ⟨rfl, rfl, hstruct, hword⟩
            · exact .refused heopnotsupp rfl
            · exact .refused heinval rfl
      · exact .refused hebadf rfl

theorem acceptBound_progress (hmemory : k'.memory = k.memory) (hs : socketOf k fd = some s)
    (hfamily : s.familyUnix = false) (hc : Checked k addrPtr addrlenPtr SOCKADDR_IN_SIZE c)
    (listener : Option TcpListener) :
    Progress k fd addrPtr addrlenPtr flags host (acceptBound k' c listener) := by
  have hebadf : -EBADF < 0 := by decide
  have headdrinuse : -EADDRINUSE < 0 := by decide
  unfold acceptBound
  split
  · exact .refused headdrinuse hmemory
  · split
    · rename_i hget
      exact .refused (get_error_neg hget) hmemory
    · simp only
      split
      · exact takeListener_progress hmemory hs hfamily hc
      · exact takeListener_progress hmemory hs hfamily hc
    · exact .refused hebadf hmemory

theorem putListener_memory (k : Kernel) (fd : UInt32) (listener : TcpListener) :
    (putListener k fd listener).memory = k.memory := by
  unfold putListener
  split
  · simp only
    split
    · rfl
    · rfl
  · rfl

theorem acceptConnected_reports (haddr : addrPtr ≠ 0) (haddrlen : addrlenPtr ≠ 0) (hmemory : k'.memory = k.memory)
    (hs : socketOf k fd = some s) (hfamily : s.familyUnix = false)
    (hc : Checked k addrPtr addrlenPtr SOCKADDR_IN_SIZE c) (listener : TcpListener) :
    Reports k fd addrPtr addrlenPtr (.accept4 flags host) (acceptConnected k' c listener host.peer).1
      (acceptConnected k' c listener host.peer).2 := by
  have heio : - Errno.EIO < 0 := by decide
  have heopnotsupp : -EOPNOTSUPP < 0 := by decide
  have hwanted : decide (c.addrPtr ≠ 0 ∧ (checkOut k'.memory c.addrPtr SOCKADDR_IN_SIZE).isOk = true) = true := by
    rw [hc.addr, hmemory, hc.struct]
    exact decide_eq_true ⟨haddr, rfl⟩
  cases hpeer : host.peer with
  | none => exact .refused heio hmemory
  | some peer =>
    cases peer with
    | v6 port addr =>
      simp only [acceptConnected, hwanted]
      exact .refused heopnotsupp hmemory
    | unix path =>
      simp only [acceptConnected, hwanted]
      exact .refused heopnotsupp hmemory
    | v4 port addr =>
      simp only [acceptConnected, hwanted]
      refine .inr ⟨Int.natCast_nonneg _, s, hs, some (.v4 port addr), ?_, ?_⟩
      · rw [NameCall.reported, hfamily, if_neg Bool.false_ne_true, hpeer, Option.map_some]
      · have hwritten := writeName_writtenBack (some (.v4 port addr)) haddr haddrlen
          (checkOut_fits haddr hc.struct) (checkOut_fits haddrlen hc.word) (nameBytes_length _).le
        rw [insertSocket, putListener_memory, hc.addr, hc.addrlen, hmemory]
        exact hwritten

theorem acceptConnectedUnix_reports (haddr : addrPtr ≠ 0) (haddrlen : addrlenPtr ≠ 0)
    (hmemory : k'.memory = k.memory) (hs : socketOf k fd = some s) (hfamily : s.familyUnix = true)
    (hc : Checked k addrPtr addrlenPtr SOCKADDR_UN_SIZE c) :
    Reports k fd addrPtr addrlenPtr (.accept4 flags host) (acceptConnectedUnix k' c host.unixPeer).1
      (acceptConnectedUnix k' c host.unixPeer).2 := by
  have heio : - Errno.EIO < 0 := by decide
  cases hpeer : host.unixPeer with
  | none => exact .refused heio hmemory
  | some path =>
    have hwritten := writeName_writtenBack (path.map .unix) haddr haddrlen
      (checkOut_fits haddr hc.struct) (checkOut_fits haddrlen hc.word) (by
        cases path with
        | none => exact (nameBytes_length _).le
        | some path => exact (nameBytes_length _).le)
    refine .inr ⟨Int.natCast_nonneg _, s, hs, path.map .unix, ?_, ?_⟩
    · rw [NameCall.reported, if_pos hfamily, hpeer, Option.map_some]
    · simp only [acceptConnectedUnix, insertSocket, hc.addr, hc.addrlen, hmemory]
      cases path with
      | none => exact hwritten
      | some path => exact hwritten

theorem Progress.answered {a : Accept} (haddr : addrPtr ≠ 0) (haddrlen : addrlenPtr ≠ 0)
    (h : Progress k fd addrPtr addrlenPtr flags host a) :
    Progress k fd addrPtr addrlenPtr flags host (a.answered host) := by
  cases a with
  | returns value k' => exact h
  | waits on k' =>
    obtain ⟨hmemory, s, hs, hon⟩ := h
    cases on with
    | bind c port addr => exact acceptBound_progress hmemory hs hon.1 hon.2 _
    | accept c listener => exact acceptConnected_reports haddr haddrlen hmemory hs hon.1 hon.2 listener
    | acceptUnix c => exact acceptConnectedUnix_reports haddr haddrlen hmemory hs hon.1 hon.2

theorem accept4_reports (haddr : addrPtr ≠ 0) (haddrlen : addrlenPtr ≠ 0)
    (h : Accepting.call k fd addrPtr addrlenPtr flags host = .returns value k') :
    Reports k fd addrPtr addrlenPtr (.accept4 flags host) value k' := by
  have hprogress := (accept4_progress k fd addrPtr addrlenPtr flags host).answered haddr haddrlen
  have hend := hprogress.answered haddr haddrlen
  rw [Accepting.call] at h
  rwa [h] at hend

-- ---------------------------------------------------------------------------
-- The length that the guest gave
-- ---------------------------------------------------------------------------

/-- The room that the guest says it has. -/
def roomAt (memory : Option MemoryKind) (addrlenPtr : Int) : Option Nat :=
  (guestSlice memory addrlenPtr 4).toOption.map leValue

/-- The calls that succeed without an address: a Unix connection, or one shut down. -/
def NameCall.Silent (s : SocketInner) : NameCall → Prop
  | .recvfrom _ _ _ _ => s.familyUnix = true ∨ shutRd s = true
  | _ => False

theorem WrittenBack.within {other : Nat → Prop} (h : WrittenBack memory memory' addrPtr addrlenPtr name other)
    (hL : (nameBytes name).length ≤ L) :
    Keeps memory memory' fun i => Span addrlenPtr 4 i ∨ Span addrPtr L i ∨ other i := by
  intro i hi
  refine h.others i fun hin => hi ?_
  rcases hin with hword | hstruct | hother
  · exact .inl hword
  · refine .inr (.inl ?_)
    unfold Span at *
    omega
  · exact .inr (.inr hother)

/-- The same of a call that may also receive data, or succeed without an address. -/
def Tells (k : Kernel) (fd addrPtr addrlenPtr : Int) (c : NameCall) (value : Int) (k' : Kernel) : Prop :=
  value < 0 ∧ k'.memory = k.memory ∨ 0 ≤ value ∧ ∃ s, socketOf k fd = some s ∧
    (c.Silent s ∧ Keeps k.memory k'.memory (c.received value) ∨
      ∃ name, c.reported s = some name ∧
        WrittenBack k.memory k'.memory addrPtr addrlenPtr name (c.received value))

theorem Reports.tells {c : NameCall} (h : Reports k fd addrPtr addrlenPtr c value k')
    (hreceived : c.received value = fun _ => False) : Tells k fd addrPtr addrlenPtr c value k' := by
  rcases h with hrefused | ⟨hvalue, s, hs, hname⟩
  · exact .inl hrefused
  · refine .inr ⟨hvalue, s, hs, .inr ?_⟩
    rw [hreceived]
    exact hname

theorem run_tells {c : NameCall} (haddr : addrPtr ≠ 0) (haddrlen : addrlenPtr ≠ 0)
    (h : c.run k fd addrPtr addrlenPtr = some (value, k')) : Tells k fd addrPtr addrlenPtr c value k' := by
  cases c with
  | getsockname => exact (getsockname_reports haddrlen h).tells rfl
  | getpeername unixPeer => exact (getpeername_reports haddrlen h).tells rfl
  | accept4 flags host =>
    unfold NameCall.run at h
    dsimp only at h
    split at h
    · rename_i hcall
      split at h
      · cases h
      · cases h
        exact (accept4_reports haddr haddrlen hcall).tells rfl
    · cases h
  | recvfrom stream buf len host =>
    rcases recvfrom_ok haddr haddrlen h with hrefused | ⟨hvalue, s, hs, hnamed⟩
    · exact .inl hrefused
    · refine .inr ⟨hvalue, s, hs, ?_⟩
      split at hnamed
      · rename_i hsilent
        refine .inl ⟨?_, hnamed⟩
        simpa [NameCall.Silent] using hsilent
      · rename_i hsilent
        exact .inr ⟨_, if_neg hsilent, hnamed⟩

/-- Whatever room the guest has, a call that succeeds writes the whole struct of the
address and its full length, and one that fails writes nothing. -/
theorem addresses_written_whole {c : NameCall} (haddr : addrPtr ≠ 0) (haddrlen : addrlenPtr ≠ 0)
    (h : c.run k fd addrPtr addrlenPtr = some (value, k')) :
    value < 0 ∧ k'.memory = k.memory ∨ 0 ≤ value ∧ ∃ s, socketOf k fd = some s ∧
      (c.Silent s ∧ Keeps k.memory k'.memory (c.received value) ∨
        ∃ name, c.reported s = some name ∧
          WrittenBack k.memory k'.memory addrPtr addrlenPtr name (c.received value) ∧
          ∀ L ∈ roomAt k.memory addrlenPtr, (nameBytes name).length ≤ L →
            Keeps k.memory k'.memory fun i =>
              Span addrlenPtr 4 i ∨ Span addrPtr L i ∨ c.received value i) := by
  rcases run_tells haddr haddrlen h with hrefused | ⟨hvalue, s, hs, hsilent | ⟨name, hname, hwritten⟩⟩
  · exact .inl hrefused
  · exact .inr ⟨hvalue, s, hs, .inl hsilent⟩
  · exact .inr ⟨hvalue, s, hs, .inr ⟨name, hname, hwritten, fun L _ hL => hwritten.within hL⟩⟩

def unnamed : Kernel :=
  { (insertSocket (.new [] [] { root := "/", cwd := "/" } (Vector.replicate 32 0)) (.new .stream false)).2 with
    memory := some (.owned .zeroPage) }

theorem unnamed_fits (hlow : 0 ≤ ptr) (hlen : 0 ≤ len) (hhigh : ptr + len ≤ 65536) : Fits unnamed.memory ptr len :=
  SockAddrs.zeroPage_fits hlow hlen hhigh

theorem unnamed_getsockname : getsockname unnamed 3 16 8 = some (0, { unnamed with
    memory := writeName unnamed.memory 16 8 SOCKADDR_IN6_SIZE (some (.v4 0 #v[0, 0, 0, 0])) }) := by
  have hopen : unnamed.fds.get 3 = .ok (.socket 0) := rfl
  have haddr : Fits unnamed.memory 16 SOCKADDR_IN6_SIZE := unnamed_fits (by decide) (by decide) (by decide)
  have haddrlen : Fits unnamed.memory 8 4 := unnamed_fits (by decide) (by decide) (by decide)
  unfold getsockname
  refine (nameCall_named rfl hopen (by decide) (by decide) haddr haddrlen ?_).trans (if_pos ?_)
  · rfl
  · trivial

theorem unnamed_roomAt : roomAt unnamed.memory 8 = some 0 := by
  have hload : LinearMemory.zeroPage.load 8 4 = _ := LinearMemory.zeroPage_load (by decide)
  have hslice : guestSlice unnamed.memory 8 4 = .ok (List.replicate 4 0) := guestSlice_of_load hload (le_refl _)
  rw [roomAt, hslice]
  rfl

theorem addresses_written_whole_unnamed : (16 : Int) ≠ 0 ∧ (8 : Int) ≠ 0 ∧
    ∃ k', NameCall.getsockname.run unnamed 3 16 8 = some (0, k') ∧
      WrittenBack unnamed.memory k'.memory 16 8 (some (.v4 0 #v[0, 0, 0, 0])) fun _ => False := by
  have haddr : (16 : Int) ≠ 0 := by decide
  have haddrlen : (8 : Int) ≠ 0 := by decide
  refine ⟨haddr, haddrlen, _, unnamed_getsockname, ?_⟩
  rcases addresses_written_whole (c := .getsockname) haddr haddrlen unnamed_getsockname with
    ⟨hneg, -⟩ | ⟨-, s, hs, ⟨hsilent, -⟩ | ⟨name, hname, hwritten, -⟩⟩
  · exact absurd hneg (lt_irrefl _)
  · exact hsilent.elim
  · cases hs
    cases hname
    exact hwritten

/-- The guest says that it has no room, and the struct is written all the same. -/
theorem getsockname_beyond_room : ∃ k' i, NameCall.getsockname.run unnamed 3 16 8 = some (0, k') ∧
    roomAt unnamed.memory 8 = some 0 ∧ 16 + 0 ≤ i ∧ ¬ Span 8 4 i ∧
      byteAt unnamed.memory i = some 0 ∧ byteAt k'.memory i = some 2 := by
  refine ⟨_, 16, unnamed_getsockname, unnamed_roomAt, le_refl _, by decide, ?_, ?_⟩
  · have hload : LinearMemory.zeroPage.load 16 1 = _ := LinearMemory.zeroPage_load (by decide)
    have hslice : guestSlice unnamed.memory 16 1 = .ok (List.replicate 1 0) := guestSlice_of_load hload (le_refl _)
    exact (FdSets.slice_byteAt (i := 0) hslice (by decide)).symm
  · have haddr : Fits unnamed.memory 16 SOCKADDR_IN6_SIZE := unnamed_fits (by decide) (by decide) (by decide)
    have haddrlen : Fits unnamed.memory 8 4 := unnamed_fits (by decide) (by decide) (by decide)
    have hwritten := writeName_writtenBack (some (.v4 0 #v[0, 0, 0, 0])) (by decide) (by decide) haddr haddrlen
      (by decide)
    have hbyte := hwritten.struct 16 ⟨by decide, by decide⟩ (by decide)
    dsimp only
    exact hbyte

end EdgeLibos.Sys.Names
