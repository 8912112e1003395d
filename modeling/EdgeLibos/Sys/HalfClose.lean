import EdgeLibos.Sys.Scatter

/-!
# Half-closed connections

`shutdown` records what is closed in the flags of the socket, and for writing it also takes
the TCP connection out of the socket and drops it, the way to read along with the way to
write. A Unix connection is in another field and stays.
-/

namespace EdgeLibos.Sys.HalfClose

open Errno Lib Messages Scatter
open FdSets (Fits)

/-- The calls on the descriptors of one socket, and the guest's stores to its memory. -/
inductive ConnCall
  | store (ptr : Int) (bytes : List UInt8)
  | sendto (fd buf len flags addr addrlen : Int) (host : HostWrite)
  | write (fd buf len : Int) (host : HostWrite)
  | sendmsg (fd msghdr flags : Int) (host : HostWrite)
  | recvfrom (fd buf len flags addr addrlen : Int) (host : HostRead)
  | read (fd buf len : Int) (host : HostRead)
  | recvmsg (fd msghdr flags : Int) (host : HostRead)
  | shutdown (fd how : Int)
  deriving DecidableEq, Repr

namespace ConnCall

def fd? : ConnCall → Option Int
  | .store _ _ => none
  | .sendto fd _ _ _ _ _ _ | .write fd _ _ _ | .sendmsg fd _ _ _ | .recvfrom fd _ _ _ _ _ _
  | .read fd _ _ _ | .recvmsg fd _ _ _ | .shutdown fd _ => some fd

def sends : ConnCall → Bool
  | .sendto .. | .write .. | .sendmsg .. => true
  | _ => false

def receives : ConnCall → Bool
  | .recvfrom .. | .read .. | .recvmsg .. => true
  | _ => false

def peeks : ConnCall → Bool
  | .recvmsg _ _ flags _ => asksPeek flags
  | _ => false

def mask : ConnCall → UInt8
  | .shutdown _ how => (shutMask how).getD 0
  | _ => 0

def closesRd (c : ConnCall) : Bool := c.mask &&& 0b01 ≠ 0

def closesWr (c : ConnCall) : Bool := c.mask &&& 0b10 ≠ 0

/-- What is left of a run without its sends and its shutdowns for writing only. -/
def kept (c : ConnCall) : Bool := !c.sends && (!c.closesWr || c.closesRd)

def room (memory : Option MemoryKind) : ConnCall → Nat
  | .recvfrom _ _ len _ _ _ _ | .read _ _ len _ => len.toNat
  | .recvmsg _ msghdr _ _ => ((msgSpans memory msghdr).toOption.map capacity).getD 0
  | _ => 0

def run (st : MsgState) : ConnCall → Option (Received × MsgState)
  | .store ptr bytes =>
    let (n, memory) := Sys.store st.kernel.memory ptr bytes
    some (.nothing n, st.setMemory memory)
  | .sendto fd buf len _ _ _ host => (Messages.sendto st fd buf len host).map fun (n, st) => (.nothing n, st)
  | .write fd buf len host => (Messages.write st fd buf len host).map fun (n, st) => (.nothing n, st)
  | .sendmsg fd msghdr flags host =>
    (Messages.sendmsg st fd msghdr flags host).map fun (n, st) => (.nothing n, st)
  | .recvfrom fd buf len _ addr addrlen host => Messages.recvfrom st fd buf len addr addrlen host
  | .read fd buf len host => Messages.read st fd buf len host
  | .recvmsg fd msghdr flags host => Messages.recvmsg st fd msghdr flags host
  | .shutdown fd how =>
    let (n, st) := Messages.shutdown st fd how
    some (.nothing n, st)

end ConnCall

/-- What a call shows: its value, the bytes it put into guest memory and the room it had. -/
structure Shown where
  value : Int
  bytes : List UInt8
  room : Nat
  deriving DecidableEq, Repr

/-- A step of a guest that uses only the descriptors of the socket in cell `ref`. -/
def next (ref : Nat) (st : MsgState) (c : ConnCall) : Option (Shown × MsgState) :=
  if ∀ fd ∈ c.fd?, socketAt st.kernel.fds fd = some ref then
    (c.run st).map fun (o, st') =>
      ({ value := o.value, bytes := o.bytes, room := c.room st.kernel.memory }, st')
  else none

/-- The errors that are not about the connection. -/
def Argument (e : Int) : Prop := e = -EFAULT ∨ e = -EINVAL ∨ e = - Errno.EIO

/-- What a receive shows, when `got` was received before and reading was shut down: the
bytes that come next, none only at the end or after a shutdown for reading. -/
structure Receives (S got : List UInt8) (rd : Bool) (o : Shown) : Prop where
  shut : rd = true → o.bytes = [] ∧ o.value ≤ 0
  inOrder : rd = false → got ++ o.bytes <+: S ∧ (o.value = o.bytes.length ∨ o.bytes = [] ∧ Argument o.value)
  early : o.value = 0 → rd = true ∨ o.room = 0 ∨ got = S

/-- What a half-close promises of a call. -/
structure Promised (S got : List UInt8) (rd wr : Bool) (c : ConnCall) (o : Shown) : Prop where
  send : c.sends = true → wr = true → o.value = -EPIPE
  receive : c.receives = true → Receives S got rd o

/-- Of each call of a run, from what was received and shut down before it. -/
def HalfClosed (S : List UInt8) : List UInt8 → Bool → Bool → List ConnCall → List Shown → Prop
  | got, rd, wr, c :: calls, o :: os =>
    Promised S got rd wr c o ∧ HalfClosed S (got ++ o.bytes) (rd || c.closesRd) (wr || c.closesWr) calls os
  | _, _, _, [], [] => True
  | _, _, _, _, _ => False

structure Connected (c : Conn) (S : List UInt8) : Prop where
  stream : ∃ s, c.streams (slotOf c.familyUnix) = some s ∧ s.rest = S
  openRd : c.shutRd = false
  openWr : c.shutWr = false
  queue : c.peekBuf = []

/-- A TCP socket is not shut down for writing while it can be read; a message is received
only over TCP, and into memory; what is sent after a shutdown can be read from memory and
is not empty. -/
def Careful (ref : Nat) (st : MsgState) : ConnCall → Prop
  | .shutdown _ how => shutMask how = some 0b10 → (st.conn ref).familyUnix = true ∨ (st.conn ref).shutRd = true
  | .recvmsg _ msghdr _ host => ∀ spans, msgSpans st.kernel.memory msghdr = .ok spans → capacity spans ≠ 0 →
      (st.conn ref).shutRd = false → (st.conn ref).familyUnix = false ∧
        PiecesFit st.kernel.memory spans (available (st.conn ref) (capacity spans) host)
  | .sendto _ buf len _ _ _ _ => (st.conn ref).shutWr = true → Fits st.kernel.memory buf len
  | .write _ buf len _ => (st.conn ref).shutWr = true → Fits st.kernel.memory buf len ∧ len ≠ 0
  | .sendmsg _ msghdr _ _ => (st.conn ref).shutWr = true →
      ∃ payload, readMsghdrIov st.kernel.memory msghdr = .ok payload ∧ payload ≠ []
  | _ => True

-- ---------------------------------------------------------------------------
-- Errors of the arguments
-- ---------------------------------------------------------------------------

variable {st st' : MsgState} {ref : Nat} {S got : List UInt8} {rd wr : Bool} {c : ConnCall} {o : Shown}

theorem Argument.fault : Argument (-EFAULT) := .inl rfl

theorem Argument.invalid : Argument (-EINVAL) := .inr (.inl rfl)

theorem Argument.neg (h : Argument e) : e < 0 := by
  rcases h with rfl | rfl | rfl
  all_goals decide

theorem guestSlice_argument (h : guestSlice memory ptr len = .error e) : Argument e := by
  unfold guestSlice at h
  split at h
  · cases h
    exact .fault
  · split at h
    · rename_i hmem
      cases h
      unfold ownedOf at hmem
      split at hmem
      · cases hmem
        exact .fault
      · cases hmem
      · cases hmem
        exact .invalid
    · split at h
      · cases h
      · cases h
        exact .fault

theorem checkOut_argument (h : checkOut memory ptr len = .error e) : Argument e := by
  unfold checkOut at h
  split at h
  · cases h
  · split at h
    · rename_i hslice
      cases h
      exact guestSlice_argument hslice
    · cases h

theorem recvChecks_argument (h : recvChecks memory buf len addr addrlen = .error e) : Argument e := by
  rw [Names.recvChecks_eq] at h
  split at h
  · cases h
    exact .fault
  · split at h
    · cases h
      exact .invalid
    · split at h
      · rename_i hbuf
        cases h
        exact guestSlice_argument hbuf
      · rename_i haddr
        cases h
        exact checkOut_argument haddr
      · exact checkOut_argument h

theorem msgSpans_argument (h : msgSpans memory msghdr = .error e) : Argument e := by
  unfold msgSpans at h
  split at h
  · rename_i hmhdr
    cases h
    exact guestSlice_argument hmhdr
  · split at h
    · cases h
      exact .invalid
    · split at h
      · rename_i hiov
        cases h
        exact guestSlice_argument hiov
      · cases h

-- ---------------------------------------------------------------------------
-- Sends
-- ---------------------------------------------------------------------------

/-- The two sockets can be read alike. -/
structure SameReads (c d : Conn) : Prop where
  memory : d.memory = c.memory
  fds : d.fds = c.fds
  family : d.familyUnix = c.familyUnix
  queue : d.peekBuf = c.peekBuf
  shutRd : d.shutRd = c.shutRd
  rest : c.shutRd = false →
    (d.streams (slotOf c.familyUnix)).map HostStream.rest = (c.streams (slotOf c.familyUnix)).map HostStream.rest

theorem SameReads.refl (c : Conn) : SameReads c c := ⟨rfl, rfl, rfl, rfl, rfl, fun _ => rfl⟩

theorem write_rest {s s' : HostStream} (h : s.write bytes host = some (n, s')) : s'.rest = s.rest := by
  cases host with
  | fails =>
    cases h
    rfl
  | takes k =>
    simp only [HostStream.write] at h
    split at h
    · cases h
      rfl
    · cases h

theorem send_sameReads {c c' : Conn} (h : c.send slot bytes host = some (n, c')) :
    SameReads c c' ∧ c'.shutWr = c.shutWr := by
  unfold Conn.send at h
  split at h
  · cases h
    exact ⟨.refl c, rfl⟩
  · split at h
    · cases h
      exact ⟨.refl c, rfl⟩
    · rename_i s hs
      obtain ⟨⟨k, s'⟩, hwrite, hc⟩ := Option.map_eq_some_iff.mp h
      cases hc
      refine ⟨⟨rfl, rfl, rfl, rfl, rfl, fun _ => ?_⟩, rfl⟩
      by_cases hslot : slotOf c.familyUnix = slot
      · simp [Conn.setStream, hslot, hs, write_rest hwrite]
      · simp [Conn.setStream, hslot]

theorem send_shut {c : Conn} (h : c.shutWr = true) : c.send slot bytes host = some (-EPIPE, c) := by
  rw [Conn.send, if_pos h]

/-- A send keeps what can be read, and once writing is shut down it is an `EPIPE` if there
is something to send. -/
structure SendShows (c c' : Conn) (sendable : Prop) (value : Int) : Prop where
  same : SameReads c c'
  shutWr : c'.shutWr = c.shutWr
  refused : c.shutWr = true → sendable → value = -EPIPE

theorem sendShows_idle {c : Conn} (h : ¬ sendable) : SendShows c c sendable value :=
  ⟨.refl c, rfl, fun _ hs => absurd hs h⟩

theorem sendShows_send {c c' : Conn} (h : c.send slot bytes host = some (value, c')) :
    SendShows c c' sendable value := by
  obtain ⟨hsame, hshut⟩ := send_sameReads h
  refine ⟨hsame, hshut, fun hwr _ => ?_⟩
  rw [send_shut hwr] at h
  cases h
  rfl

theorem onConn_some {r : Option (ω × MsgState)} {o : ω} (ref : Nat) (h : r = some (o, st')) :
    onConn ref r = some (o, st'.conn ref) := by
  rw [h]
  rfl

theorem sendFlat_shows (h : sendFlat st slot ref buf len host = some (value, st')) :
    SendShows (st.conn ref) (st'.conn ref) (Fits st.kernel.memory buf len) value := by
  cases hslice : guestSlice st.kernel.memory buf len with
  | ok bytes =>
    have hsend := onConn_some ref h
    rw [sendFlat_send hslice] at hsend
    exact sendShows_send hsend
  | error e =>
    have hout : ¬ Fits st.kernel.memory buf len := by
      intro hfits
      obtain ⟨bytes, hbytes⟩ := hfits.slice
      rw [hslice] at hbytes
      cases hbytes
    simp only [sendFlat, hslice] at h
    split at h
    · cases h
      exact sendShows_idle hout
    · cases h
      exact sendShows_idle hout

theorem sendmsg_shows (hat : socketAt st.kernel.fds fd = some ref)
    (h : Messages.sendmsg st fd msghdr flags host = some (value, st')) : SendShows (st.conn ref) (st'.conn ref)
      (∃ payload, readMsghdrIov st.kernel.memory msghdr = .ok payload ∧ payload ≠ []) value := by
  rw [sendmsg_at hat] at h
  cases hpayload : readMsghdrIov st.kernel.memory msghdr with
  | error e =>
    rw [hpayload] at h
    cases h
    exact sendShows_idle (by simp)
  | ok payload =>
    simp only [hpayload] at h
    split at h
    · rename_i hempty
      cases h
      exact sendShows_idle (by simpa using hempty)
    · have hsend := onConn_some ref h
      rw [sendPayload_send] at hsend
      exact sendShows_send hsend

theorem write_shows (hat : socketAt st.kernel.fds fd = some ref)
    (h : Messages.write st fd buf len host = some (value, st')) : SendShows (st.conn ref) (st'.conn ref)
      (Fits st.kernel.memory buf len ∧ len ≠ 0) value := by
  rw [write_at hat] at h
  cases hslice : guestSlice st.kernel.memory buf len with
  | error e =>
    rw [hslice] at h
    cases h
    refine sendShows_idle ?_
    rintro ⟨hfits, -⟩
    obtain ⟨bytes, hbytes⟩ := hfits.slice
    rw [hslice] at hbytes
    cases hbytes
  | ok bytes =>
    simp only [hslice] at h
    split at h
    · rename_i hempty
      cases h
      refine sendShows_idle ?_
      rintro ⟨hfits, hlen⟩
      obtain ⟨mem, -, -, hnonneg, -⟩ := guestSlice_ok hslice
      have hlength := guestSlice_length hslice
      rw [List.isEmpty_iff.mp hempty, List.length_nil] at hlength
      omega
    · obtain ⟨hsame, hshut, hrefused⟩ := sendFlat_shows h
      exact ⟨hsame, hshut, fun hwr hs => hrefused hwr hs.1⟩

-- ---------------------------------------------------------------------------
-- What was received and what is to come
-- ---------------------------------------------------------------------------

/-- The flags are what was shut down, nothing is queued, and a socket that is open for
reading has a connection with the rest of the stream. -/
structure Inv (S got : List UInt8) (rd wr : Bool) (c : Conn) : Prop where
  shutRd : c.shutRd = rd
  shutWr : c.shutWr = wr
  queue : c.peekBuf = []
  stream : rd = false → ∃ s, c.streams (slotOf c.familyUnix) = some s ∧ got ++ s.rest = S

theorem Connected.inv {c : Conn} (h : Connected c S) : Inv S [] false false c := by
  obtain ⟨s, hs, hrest⟩ := h.stream
  exact ⟨h.openRd, h.openWr, h.queue, fun _ => ⟨s, hs, by rw [hrest, List.nil_append]⟩⟩

theorem Inv.sameReads {c d : Conn} (h : Inv S got rd wr c) (hsame : SameReads c d) (hshut : d.shutWr = c.shutWr) :
    Inv S got rd wr d := by
  refine ⟨hsame.shutRd.trans h.shutRd, hshut.trans h.shutWr, hsame.queue.trans h.queue, fun hrd => ?_⟩
  obtain ⟨s, hs, hgot⟩ := h.stream hrd
  have hrest := hsame.rest (h.shutRd.trans hrd)
  rw [hs, Option.map_some, Option.map_eq_some_iff] at hrest
  obtain ⟨s', hs', hrest⟩ := hrest
  refine ⟨s', by rw [hsame.family, hs'], ?_⟩
  rw [hrest, hgot]

theorem Receives.nothing (h : rd = false → Argument value) (hneg : rd = true → value ≤ 0)
    (hgot : rd = false → got <+: S) : Receives S got rd { value, bytes := [], room } := by
  refine ⟨fun hrd => ⟨rfl, hneg hrd⟩, fun hrd => ⟨?_, .inr ⟨rfl, h hrd⟩⟩, fun hzero => ?_⟩
  · rw [List.append_nil]
    exact hgot hrd
  · cases hrd : rd with
    | true => exact .inl rfl
    | false =>
      have hvalue := (h hrd).neg
      dsimp only at hzero
      omega

theorem Inv.prefix {c : Conn} (h : Inv S got rd wr c) (hrd : rd = false) : got <+: S := by
  obtain ⟨s, -, hgot⟩ := h.stream hrd
  exact ⟨s.rest, hgot⟩

theorem Inv.fails {c : Conn} (h : Inv S got rd wr c) (he : Argument e) (room : Nat) :
    Receives S got rd { value := e, bytes := [], room } :=
  .nothing (fun _ => he) (fun _ => he.neg.le) h.prefix

/-- Bytes that the host gave, all of them put into memory. -/
theorem Inv.takes {c : Conn} (h : Inv S got rd wr c) (hopen : c.shutRd = false) {s s' : HostStream}
    (hs : c.streams (slotOf c.familyUnix) = some s) (hread : s.read room host = some (some data, s')) :
    Receives S got rd { value := data.length, bytes := data, room } ∧ got ++ data ++ s'.rest = S := by
  have hrd : rd = false := h.shutRd.symm.trans hopen
  obtain ⟨s₀, hs₀, hgot⟩ := h.stream hrd
  obtain rfl : s₀ = s := Option.some.inj (hs₀.symm.trans hs)
  obtain ⟨-, -, hrest, -, hend⟩ := read_some hread
  have hsplit : got ++ data ++ s'.rest = S := by
    rw [List.append_assoc, ← hrest, hgot]
  refine ⟨⟨fun hshut => ?_, fun _ => ⟨⟨s'.rest, hsplit⟩, .inl rfl⟩, fun hzero => ?_⟩, hsplit⟩
  · rw [hrd] at hshut
    cases hshut
  · have hnil : data = [] := List.eq_nil_of_length_eq_zero (Int.natCast_eq_zero.mp hzero)
    rw [hend hnil, List.append_nil] at hgot
    exact .inr (.inr hgot)

theorem Inv.setStream {c : Conn} (h : Inv S got rd wr c) {s' : HostStream} (hsplit : got ++ data ++ s'.rest = S)
    (memory : Option MemoryKind) :
    Inv S (got ++ data) rd wr ((c.setStream (slotOf c.familyUnix) (some s')).setMemory memory) := by
  refine ⟨h.shutRd, h.shutWr, h.queue, fun _ => ⟨s', ?_, hsplit⟩⟩
  simp [Conn.setMemory, Conn.setStream]

theorem Inv.setMemory {c : Conn} (h : Inv S got rd wr c) (memory : Option MemoryKind) :
    Inv S got rd wr (c.setMemory memory) := ⟨h.shutRd, h.shutWr, h.queue, h.stream⟩

theorem Inv.after_nothing {c : Conn} (h : Inv S got rd wr c) : Inv S (got ++ []) rd wr c := by
  rwa [List.append_nil]

theorem flatStep_receives {c c' : Conn} {o : Received} (hinv : Inv S got rd wr c)
    (h : FlatStep c (slotOf c.familyUnix) buf len addr addrlen host (o, c')) :
    Receives S got rd { value := o.value, bytes := o.bytes, room := len.toNat } ∧
      Inv S (got ++ o.bytes) rd wr c' := by
  cases h with
  | refused hchecks => exact ⟨hinv.fails (recvChecks_argument hchecks) _, hinv.after_nothing⟩
  | shut hchecks hshut =>
    have hrd : rd = true := hinv.shutRd.symm.trans hshut
    refine ⟨.nothing (fun h => ?_) (fun _ => le_refl _) hinv.prefix, hinv.after_nothing⟩
    rw [hrd] at h
    cases h
  | notConnected hchecks hopen hnone =>
    obtain ⟨s, hs, -⟩ := hinv.stream (hinv.shutRd.symm.trans hopen)
    rw [hnone] at hs
    cases hs
  | failed hchecks hopen hs hread => exact ⟨hinv.fails (.inr (.inr rfl)) _, hinv.after_nothing⟩
  | received hchecks hopen hs hread hcopy =>
    obtain ⟨hreceives, hsplit⟩ := hinv.takes hopen hs hread
    exact ⟨hreceives, hinv.setStream hsplit _⟩

/-- A `recvmsg` over TCP shows what comes next if it fits in its buffers. -/
theorem recvmsgStep_receives {c c' : Conn} {o : Received} (hinv : Inv S got rd wr c) (hpeek : asksPeek flags = false)
    (hnonneg : ∀ span ∈ spans, 0 ≤ span.2)
    (hc : c.shutRd = false → c.familyUnix = false ∧ PiecesFit c.memory spans (available c (capacity spans) host))
    (h : RecvmsgStep c msghdr flags spans host (o, c')) :
    Receives S got rd { value := o.value, bytes := o.bytes, room := capacity spans } ∧
      Inv S (got ++ o.bytes) rd wr c' := by
  cases h with
  | queued hne => exact absurd hinv.queue hne
  | shut hnil hshut =>
    have hrd : rd = true := hinv.shutRd.symm.trans hshut
    refine ⟨.nothing (fun h => ?_) (fun _ => le_refl _) hinv.prefix, hinv.after_nothing⟩
    rw [hrd] at h
    cases h
  | notConnected hnil hopen hnone =>
    obtain ⟨s, hs, -⟩ := hinv.stream (hinv.shutRd.symm.trans hopen)
    rw [(hc hopen).1] at hs
    exact absurd (hs.symm.trans hnone) (by simp)
  | failed hnil hopen hs hread => exact ⟨hinv.fails (.inr (.inr rfl)) _, hinv.after_nothing⟩
  | @received s data s' hnil hopen hs hread =>
    obtain ⟨htcp, hfit⟩ := hc hopen
    have hslot : slotOf c.familyUnix = .stream := by
      rw [htcp]
      rfl
    rw [← hslot] at hs
    obtain ⟨hreceives, hsplit⟩ := hinv.takes hopen hs hread
    obtain ⟨rfl, hcap, -⟩ := read_some hread
    have havailable : available c (capacity spans) (.gives data.length) = data.length := by
      rw [hslot] at hs
      simp [available, hnil, hopen, hs, hcap]
    rw [havailable] at hfit
    obtain ⟨m, -, hcopy⟩ := scatter_of_fit hfit hnonneg
    have hbytes : (copyBytesToSpans c.memory spans data).1 = data := by
      rw [hcopy]
      exact List.take_of_length_le hcap
    have hcopied : (copyBytesToSpans ((c.setStream .stream (some s')).setPeekBuf
        (if asksPeek flags then data else [])).memory spans data).1 = data := hbytes
    simp only [hcopied]
    refine ⟨hreceives, ?_⟩
    have hafter := hinv.setStream hsplit
      (writeBackMsghdr (copyBytesToSpans c.memory spans data).2 msghdr)
    rw [hslot] at hafter
    refine ⟨hafter.shutRd, hafter.shutWr, ?_, hafter.stream⟩
    simp [Conn.setMemory, Conn.setPeekBuf, hpeek]

-- ---------------------------------------------------------------------------
-- A step
-- ---------------------------------------------------------------------------

theorem Inv.no_room {c : Conn} (h : Inv S got rd wr c) :
    Receives S got rd { value := 0, bytes := [], room := 0 } := by
  refine ⟨fun _ => ⟨rfl, le_refl _⟩, fun hrd => ⟨?_, .inl rfl⟩, fun _ => .inr (.inl rfl)⟩
  rw [List.append_nil]
  exact h.prefix hrd

theorem recvfrom_receives (hinv : Inv S got rd wr (st.conn ref)) (hat : socketAt st.kernel.fds fd = some ref)
    (h : Messages.recvfrom st fd buf len addr addrlen host = some (r, st')) :
    Receives S got rd { value := r.value, bytes := r.bytes, room := len.toNat } ∧
      Inv S (got ++ r.bytes) rd wr (st'.conn ref) := by
  rw [recvfrom_at hat] at h
  exact flatStep_receives hinv (receiveFlat_step h)

theorem read_receives (hinv : Inv S got rd wr (st.conn ref)) (hat : socketAt st.kernel.fds fd = some ref)
    (h : Messages.read st fd buf len host = some (r, st')) :
    Receives S got rd { value := r.value, bytes := r.bytes, room := len.toNat } ∧
      Inv S (got ++ r.bytes) rd wr (st'.conn ref) := by
  rw [read_at hat] at h
  split at h
  · rename_i hslice
    cases h
    exact ⟨hinv.fails (guestSlice_argument hslice) _, hinv.after_nothing⟩
  · split at h
    · rename_i hlen
      cases h
      rw [hlen]
      exact ⟨hinv.no_room, hinv.after_nothing⟩
    · exact flatStep_receives hinv (receiveFlat_step h)

theorem recvmsg_receives (hinv : Inv S got rd wr (st.conn ref)) (hat : socketAt st.kernel.fds fd = some ref)
    (hpeek : asksPeek flags = false) (hc : Careful ref st (.recvmsg fd msghdr flags host))
    (h : Messages.recvmsg st fd msghdr flags host = some (r, st')) :
    Receives S got rd
        { value := r.value, bytes := r.bytes, room := ConnCall.room st.kernel.memory (.recvmsg fd msghdr flags host) } ∧
      Inv S (got ++ r.bytes) rd wr (st'.conn ref) := by
  rw [recvmsg_at hat] at h
  simp only [ConnCall.room]
  cases hspans : msgSpans st.kernel.memory msghdr with
  | error e =>
    rw [hspans] at h
    cases h
    exact ⟨hinv.fails (msgSpans_argument hspans) _, hinv.after_nothing⟩
  | ok spans =>
    simp only [hspans] at h
    simp only [Except.toOption, Option.map_some, Option.getD_some]
    split at h
    · rename_i hcap
      cases h
      rw [hcap]
      exact ⟨hinv.no_room, hinv.after_nothing⟩
    · rename_i hcap
      exact recvmsgStep_receives hinv hpeek (msgSpans_nonneg hspans) (hc spans hspans hcap) (recvSpans_step h)

theorem SendShows.promised {c c' : Conn} (h : SendShows c c' sendable value) (call : ConnCall) (room : Nat)
    (hinv : Inv S got rd wr c) (hc : c.shutWr = true → sendable) (hcall : call.receives = false) :
    Promised S got rd wr call { value, bytes := [], room } ∧ Inv S (got ++ []) rd wr c' := by
  refine ⟨⟨fun _ hwr => ?_, fun hreceives => ?_⟩, ?_⟩
  · have hshut : c.shutWr = true := hinv.shutWr.trans hwr
    exact h.refused hshut (hc hshut)
  · rw [hcall] at hreceives
    cases hreceives
  · exact (hinv.sameReads h.same h.shutWr).after_nothing

theorem shutMask_cases (h : shutMask how = some mask) : mask = 0b01 ∨ mask = 0b10 ∨ mask = 0b11 := by
  unfold shutMask at h
  split at h
  · cases h
    exact .inl rfl
  · split at h
    · cases h
      exact .inr (.inl rfl)
    · split at h
      · cases h
        exact .inr (.inr rfl)
      · cases h

theorem closes_of_mask (fd : Int) (h : shutMask how = some mask) :
    (ConnCall.shutdown fd how).closesRd = decide (mask &&& 0b01 ≠ 0) ∧
      (ConnCall.shutdown fd how).closesWr = decide (mask &&& 0b10 ≠ 0) := by
  simp [ConnCall.closesRd, ConnCall.closesWr, ConnCall.mask, h]

theorem closes_of_none (fd : Int) (h : shutMask how = none) : (ConnCall.shutdown fd how).closesRd = false ∧
    (ConnCall.shutdown fd how).closesWr = false := by
  simp [ConnCall.closesRd, ConnCall.closesWr, ConnCall.mask, h]

/-- A connection of the other field stays when one is dropped, and a socket that is shut
down for reading needs none. -/
theorem shutdown_inv (hinv : Inv S got rd wr (st.conn ref)) (hat : socketAt st.kernel.fds fd = some ref)
    (hc : Careful ref st (.shutdown fd how)) :
    Inv S got (rd || (ConnCall.shutdown fd how).closesRd) (wr || (ConnCall.shutdown fd how).closesWr)
      ((Messages.shutdown st fd how).2.conn ref) := by
  rw [shutdown_at hat]
  cases hmask : shutMask how with
  | none =>
    obtain ⟨hrd, hwr⟩ := closes_of_none fd hmask
    rw [hrd, hwr, Bool.or_false, Bool.or_false]
    exact hinv
  | some mask =>
    obtain ⟨hrd, hwr⟩ := closes_of_mask fd hmask
    rw [hrd, hwr, ← hinv.shutRd, ← hinv.shutWr]
    dsimp only
    rcases shutMask_cases hmask with rfl | rfl | rfl
    · rw [if_neg (by decide), conn_addShutdown]
      refine ⟨rfl, rfl, hinv.queue, fun hopen => ?_⟩
      exact absurd (Bool.or_eq_false_iff.mp hopen).2 (by decide)
    · rw [if_pos (by decide), conn_setStream, conn_addShutdown]
      refine ⟨rfl, rfl, hinv.queue, fun hopen => ?_⟩
      have hreading : (st.conn ref).shutRd = false := (Bool.or_eq_false_iff.mp hopen).1
      rcases hc hmask with hunix | hshut
      · obtain ⟨s, hs, hgot⟩ := hinv.stream (hinv.shutRd.symm.trans hreading)
        refine ⟨s, ?_, hgot⟩
        simpa [Conn.setStream, slotOf, hunix] using hs
      · rw [hshut] at hreading
        cases hreading
    · rw [if_pos (by decide), conn_setStream, conn_addShutdown]
      refine ⟨rfl, rfl, hinv.queue, fun hopen => ?_⟩
      exact absurd (Bool.or_eq_false_iff.mp hopen).2 (by decide)

theorem Inv.idle_call {x : Conn} (h : Inv S got rd wr x) (hmask : c.mask = 0) :
    Inv S got (rd || c.closesRd) (wr || c.closesWr) x := by
  simpa [ConnCall.closesRd, ConnCall.closesWr, hmask] using h

theorem Promised.idle (hsends : c.sends = false) (hreceives : c.receives = false) : Promised S got rd wr c o :=
  ⟨fun h => by simp [hsends] at h, fun h => by simp [hreceives] at h⟩

theorem Promised.of_receives (hsends : c.sends = false) (h : Receives S got rd o) : Promised S got rd wr c o :=
  ⟨fun hc => by simp [hsends] at hc, fun _ => h⟩

theorem next_promised (hinv : Inv S got rd wr (st.conn ref)) (hpeek : c.peeks = false) (hc : Careful ref st c)
    (h : next ref st c = some (o, st')) :
    Promised S got rd wr c o ∧ Inv S (got ++ o.bytes) (rd || c.closesRd) (wr || c.closesWr) (st'.conn ref) := by
  unfold next at h
  split at h
  · rename_i hat
    obtain ⟨⟨r, st₁⟩, hrun, hshown⟩ := Option.map_eq_some_iff.mp h
    cases hshown
    cases c with
    | store ptr bytes =>
      cases hrun
      exact ⟨.idle rfl rfl, (hinv.after_nothing.setMemory _).idle_call rfl⟩
    | sendto fd buf len flags addr addrlen host =>
      obtain ⟨⟨n, st₂⟩, hsend, hst⟩ := Option.map_eq_some_iff.mp hrun
      cases hst
      rw [Messages.sendto_at (hat fd rfl)] at hsend
      obtain ⟨hpromised, hafter⟩ := (sendFlat_shows hsend).promised (.sendto fd buf len flags addr addrlen host) 0
        hinv hc rfl
      exact ⟨hpromised, hafter.idle_call rfl⟩
    | write fd buf len host =>
      obtain ⟨⟨n, st₂⟩, hsend, hst⟩ := Option.map_eq_some_iff.mp hrun
      cases hst
      obtain ⟨hpromised, hafter⟩ := (write_shows (hat fd rfl) hsend).promised (.write fd buf len host) 0 hinv hc rfl
      exact ⟨hpromised, hafter.idle_call rfl⟩
    | sendmsg fd msghdr flags host =>
      obtain ⟨⟨n, st₂⟩, hsend, hst⟩ := Option.map_eq_some_iff.mp hrun
      cases hst
      obtain ⟨hpromised, hafter⟩ := (sendmsg_shows (hat fd rfl) hsend).promised (.sendmsg fd msghdr flags host) 0
        hinv hc rfl
      exact ⟨hpromised, hafter.idle_call rfl⟩
    | recvfrom fd buf len flags addr addrlen host =>
      obtain ⟨hreceives, hafter⟩ := recvfrom_receives hinv (hat fd rfl) hrun
      exact ⟨.of_receives rfl hreceives, hafter.idle_call rfl⟩
    | read fd buf len host =>
      obtain ⟨hreceives, hafter⟩ := read_receives hinv (hat fd rfl) hrun
      exact ⟨.of_receives rfl hreceives, hafter.idle_call rfl⟩
    | recvmsg fd msghdr flags host =>
      obtain ⟨hreceives, hafter⟩ := recvmsg_receives hinv (hat fd rfl) hpeek hc hrun
      exact ⟨.of_receives rfl hreceives, hafter.idle_call rfl⟩
    | shutdown fd how =>
      cases hrun
      refine ⟨.idle rfl rfl, ?_⟩
      exact (List.append_nil got).symm ▸ shutdown_inv hinv (hat fd rfl) hc
  · cases h

theorem halfClosed_of_run (hinv : Inv S got rd wr (st.conn ref)) (hpeek : ∀ c ∈ calls, ConnCall.peeks c = false)
    (hm : RunMeets (silent (next ref)) (Careful ref) st calls)
    (hrun : traceFrom (next ref) st calls = some (os, st')) : HalfClosed S got rd wr calls os := by
  induction calls generalizing st os got rd wr with
  | nil =>
    cases hrun
    trivial
  | cons c rest ih =>
    obtain ⟨o, st₁, os', hnext, hrest, rfl⟩ := traceFrom_cons_some hrun
    have hsilent : silent (next ref) st c = some st₁ := by rw [silent, hnext, Option.map_some]
    obtain ⟨hpromised, hafter⟩ := next_promised hinv (hpeek c List.mem_cons_self) hm.1 hnext
    exact ⟨hpromised, ih hafter (fun c hc => hpeek c (List.mem_cons_of_mem _ hc)) (hm.2 st₁ hsilent) hrest⟩

-- ---------------------------------------------------------------------------
-- As if nothing had been sent or shut down for writing
-- ---------------------------------------------------------------------------

theorem SameReads.symm {c d : Conn} (h : SameReads c d) : SameReads d c := by
  refine ⟨h.memory.symm, h.fds.symm, h.family.symm, h.queue.symm, h.shutRd.symm, fun hopen => ?_⟩
  rw [h.family]
  exact (h.rest (h.shutRd.symm.trans hopen)).symm

theorem SameReads.trans {c d e : Conn} (h : SameReads c d) (h' : SameReads d e) : SameReads c e := by
  refine ⟨h'.memory.trans h.memory, h'.fds.trans h.fds, h'.family.trans h.family, h'.queue.trans h.queue,
    h'.shutRd.trans h.shutRd, fun hopen => ?_⟩
  have hrest := h'.rest (h.shutRd.trans hopen)
  rw [h.family] at hrest
  exact hrest.trans (h.rest hopen)

theorem SameReads.read {c d : Conn} (h : SameReads c d) (hopen : c.shutRd = false) {s s' : HostStream}
    (hs : c.streams (slotOf c.familyUnix) = some s) (hread : s.read cap host = some (data, s')) :
    ∃ t t', d.streams (slotOf d.familyUnix) = some t ∧ t.read cap host = some (data, t') ∧ t'.rest = s'.rest := by
  have hrest := h.rest hopen
  rw [hs, Option.map_some, Option.map_eq_some_iff] at hrest
  obtain ⟨t, ht, hrest⟩ := hrest
  rw [h.family]
  cases host with
  | fails =>
    cases hread
    exact ⟨t, t, ht, rfl, hrest⟩
  | gives n =>
    simp only [HostStream.read] at hread
    split at hread
    · rename_i hn
      cases hread
      rw [← hrest] at hn
      refine ⟨t, { t with rest := t.rest.drop n }, ht, ?_, by rw [hrest]⟩
      simp only [HostStream.read]
      rw [if_pos hn, hrest]
    · cases hread

theorem SameReads.setStream {c d : Conn} (h : SameReads c d) {s' t' : HostStream} (hrest : t'.rest = s'.rest) :
    SameReads (c.setStream (slotOf c.familyUnix) (some s')) (d.setStream (slotOf d.familyUnix) (some t')) := by
  refine ⟨h.memory, h.fds, h.family, h.queue, h.shutRd, fun _ => ?_⟩
  simp [Conn.setStream, h.family, hrest]

theorem SameReads.setPeekBuf {c d : Conn} (h : SameReads c d) (peekBuf : List UInt8) :
    SameReads (c.setPeekBuf peekBuf) (d.setPeekBuf peekBuf) := ⟨h.memory, h.fds, h.family, rfl, h.shutRd, h.rest⟩

theorem SameReads.setMemory {c d : Conn} (h : SameReads c d) (memory : Option MemoryKind) :
    SameReads (c.setMemory memory) (d.setMemory memory) := ⟨rfl, h.fds, h.family, h.queue, h.shutRd, h.rest⟩

theorem SameReads.flatStep {c d c' : Conn} {o : Received} (hs : SameReads c d)
    (h : FlatStep c (slotOf c.familyUnix) buf len addr addrlen host (o, c')) :
    ∃ d', FlatStep d (slotOf d.familyUnix) buf len addr addrlen host (o, d') ∧ SameReads c' d' := by
  cases h with
  | refused hchecks => exact ⟨d, .refused (hs.memory ▸ hchecks), hs⟩
  | shut hchecks hshut => exact ⟨d, .shut (hs.memory ▸ hchecks) (hs.shutRd.trans hshut), hs⟩
  | notConnected hchecks hopen hnone =>
    have hrest := hs.rest hopen
    rw [hnone, Option.map_none, Option.map_eq_none_iff, ← hs.family] at hrest
    exact ⟨d, .notConnected (hs.memory ▸ hchecks) (hs.shutRd.trans hopen) hrest, hs⟩
  | failed hchecks hopen hstream hread =>
    obtain ⟨t, t', ht, hread', -⟩ := hs.read hopen hstream hread
    exact ⟨d, .failed (hs.memory ▸ hchecks) (hs.shutRd.trans hopen) ht hread', hs⟩
  | received hchecks hopen hstream hread hcopy =>
    obtain ⟨t, t', ht, hread', hrest⟩ := hs.read hopen hstream hread
    exact ⟨_, .received (hs.memory ▸ hchecks) (hs.shutRd.trans hopen) ht hread' (hs.memory ▸ hcopy),
      (hs.setStream hrest).setMemory _⟩

theorem SameReads.deliver {c d : Conn} (h : SameReads c d) (peek : Bool) (msghdr : Int) (spans : List (Int × Int))
    (data : List UInt8) : (d.deliver peek msghdr spans data).1 = (c.deliver peek msghdr spans data).1 ∧
      SameReads (c.deliver peek msghdr spans data).2 (d.deliver peek msghdr spans data).2 := by
  simp only [Conn.deliver, h.memory, true_and]
  exact h.setMemory _

theorem SameReads.recvmsgStep {c d c' : Conn} {o : Received} (hs : SameReads c d)
    (hc : c.shutRd = false → c.familyUnix = false) (h : RecvmsgStep c msghdr flags spans host (o, c')) :
    ∃ d', RecvmsgStep d msghdr flags spans host (o, d') ∧ SameReads c' d' := by
  have hslot : c.shutRd = false → slotOf c.familyUnix = .stream ∧ slotOf d.familyUnix = .stream := by
    intro hopen
    rw [hs.family, hc hopen]
    exact ⟨rfl, rfl⟩
  cases h with
  | queued hne =>
    have hstep : RecvmsgStep d msghdr flags spans host _ := .queued (hs.queue ▸ hne)
    obtain ⟨hshown, hafter⟩ := (hs.setPeekBuf (c.peekBuf.drop (capacity spans))).deliver (asksPeek flags) msghdr spans
      (c.peekBuf.take (capacity spans))
    rw [hs.queue, ← Prod.eta (Conn.deliver ..), hshown] at hstep
    exact ⟨_, hstep, hafter⟩
  | shut hnil hshut => exact ⟨d, .shut (hs.queue.trans hnil) (hs.shutRd.trans hshut), hs⟩
  | notConnected hnil hopen hnone =>
    obtain ⟨hcslot, hdslot⟩ := hslot hopen
    have hrest := hs.rest hopen
    rw [hcslot, hnone, Option.map_none, Option.map_eq_none_iff] at hrest
    exact ⟨d, .notConnected (hs.queue.trans hnil) (hs.shutRd.trans hopen) hrest, hs⟩
  | failed hnil hopen hstream hread =>
    obtain ⟨hcslot, hdslot⟩ := hslot hopen
    rw [← hcslot] at hstream
    obtain ⟨t, t', ht, hread', -⟩ := hs.read hopen hstream hread
    rw [hdslot] at ht
    exact ⟨d, .failed (hs.queue.trans hnil) (hs.shutRd.trans hopen) ht hread', hs⟩
  | @received s data s' hnil hopen hstream hread =>
    obtain ⟨hcslot, hdslot⟩ := hslot hopen
    rw [← hcslot] at hstream
    obtain ⟨t, t', ht, hread', hrest⟩ := hs.read hopen hstream hread
    rw [hdslot] at ht
    have hstep : RecvmsgStep d msghdr flags spans host _ :=
      .received (hs.queue.trans hnil) (hs.shutRd.trans hopen) ht hread'
    have hsame := hs.setStream hrest
    rw [hcslot, hdslot] at hsame
    obtain ⟨hshown, hafter⟩ := (hsame.setPeekBuf (if asksPeek flags then data else [])).deliver (asksPeek flags) msghdr
      spans data
    rw [← Prod.eta (Conn.deliver ..), hshown] at hstep
    exact ⟨_, hstep, hafter⟩

theorem kept_shutdown (h : shutMask how = some mask) :
    (ConnCall.shutdown fd how).kept = (!decide (mask &&& 0b10 ≠ 0) || decide (mask &&& 0b01 ≠ 0)) := by
  obtain ⟨hrd, hwr⟩ := closes_of_mask fd h
  rw [ConnCall.kept, hrd, hwr]
  rfl

/-- Only a shutdown for writing alone is left out, and a careful one takes no connection
that can be read. -/
theorem shutdown_sameReads (hat : socketAt st.kernel.fds fd = some ref) (hc : Careful ref st (.shutdown fd how))
    (hleft : (ConnCall.shutdown fd how).kept = false) :
    SameReads (st.conn ref) ((Messages.shutdown st fd how).2.conn ref) := by
  rw [shutdown_at hat]
  cases hmask : shutMask how with
  | none => exact .refl _
  | some mask =>
    rw [kept_shutdown hmask] at hleft
    dsimp only
    rcases shutMask_cases hmask with rfl | rfl | rfl
    · cases hleft
    · rw [if_pos (by decide), conn_setStream, conn_addShutdown]
      refine ⟨rfl, rfl, rfl, rfl, Bool.or_false _, fun hopen => ?_⟩
      rcases hc hmask with hunix | hshut
      · simp [Conn.setStream, slotOf, hunix]
      · rw [hshut] at hopen
        cases hopen
    · cases hleft

theorem shutdown_kept {t : MsgState} (hs : SameReads (st.conn ref) (t.conn ref))
    (hat : socketAt st.kernel.fds fd = some ref) (hkept : (ConnCall.shutdown fd how).kept = true) :
    (Messages.shutdown t fd how).1 = (Messages.shutdown st fd how).1 ∧
      SameReads ((Messages.shutdown st fd how).2.conn ref) ((Messages.shutdown t fd how).2.conn ref) := by
  have hfds : t.kernel.fds = st.kernel.fds := hs.fds
  rw [shutdown_at hat, shutdown_at (hfds ▸ hat)]
  cases hmask : shutMask how with
  | none => exact ⟨rfl, hs⟩
  | some mask =>
    rw [kept_shutdown hmask] at hkept
    dsimp only
    refine ⟨rfl, ?_⟩
    rcases shutMask_cases hmask with rfl | rfl | rfl
    · rw [if_neg (by decide), if_neg (by decide), conn_addShutdown, conn_addShutdown]
      refine ⟨hs.memory, hs.fds, hs.family, hs.queue, ?_, fun hopen => ?_⟩
      · simp only [hs.shutRd]
      · exact absurd (Bool.or_eq_false_iff.mp hopen).2 (by decide)
    · cases hkept
    · rw [if_pos (by decide), if_pos (by decide), conn_setStream, conn_setStream, conn_addShutdown, conn_addShutdown]
      refine ⟨hs.memory, hs.fds, hs.family, hs.queue, ?_, fun hopen => ?_⟩
      · simp only [Conn.setStream, hs.shutRd]
      · exact absurd (Bool.or_eq_false_iff.mp hopen).2 (by decide)

/-- What is left out keeps what can be read. -/
theorem next_left (hc : Careful ref st c) (hleft : c.kept = false) (h : next ref st c = some (o, st')) :
    SameReads (st.conn ref) (st'.conn ref) := by
  unfold next at h
  split at h
  · rename_i hat
    obtain ⟨⟨r, st₁⟩, hrun, hshown⟩ := Option.map_eq_some_iff.mp h
    cases hshown
    cases c with
    | sendto fd buf len flags addr addrlen host =>
      obtain ⟨⟨n, st₂⟩, hsend, hst⟩ := Option.map_eq_some_iff.mp hrun
      cases hst
      rw [Messages.sendto_at (hat fd rfl)] at hsend
      exact (sendFlat_shows hsend).same
    | write fd buf len host =>
      obtain ⟨⟨n, st₂⟩, hsend, hst⟩ := Option.map_eq_some_iff.mp hrun
      cases hst
      exact (write_shows (hat fd rfl) hsend).same
    | sendmsg fd msghdr flags host =>
      obtain ⟨⟨n, st₂⟩, hsend, hst⟩ := Option.map_eq_some_iff.mp hrun
      cases hst
      exact (sendmsg_shows (hat fd rfl) hsend).same
    | shutdown fd how =>
      cases hrun
      exact shutdown_sameReads (hat fd rfl) hc hleft
    | _ => simp [ConnCall.kept, ConnCall.sends, ConnCall.closesWr, ConnCall.mask] at hleft
  · cases h

theorem next_of_run (hat : ∀ fd ∈ c.fd?, socketAt st.kernel.fds fd = some ref) (h : c.run st = some (r, st')) :
    next ref st c = some ({ value := r.value, bytes := r.bytes, room := c.room st.kernel.memory }, st') := by
  rw [next, if_pos hat, h]
  rfl

theorem run_kept {s t : MsgState} (hs : SameReads (s.conn ref) (t.conn ref)) (hc : Careful ref s c)
    (hkept : c.kept = true) (hat : ∀ fd ∈ c.fd?, socketAt s.kernel.fds fd = some ref) (h : c.run s = some (r, s')) :
    ∃ t', c.run t = some (r, t') ∧ SameReads (s'.conn ref) (t'.conn ref) := by
  have hmemory : t.kernel.memory = s.kernel.memory := hs.memory
  have hfds : t.kernel.fds = s.kernel.fds := hs.fds
  cases c with
  | store ptr bytes =>
    cases h
    refine ⟨t.setMemory (Sys.store s.kernel.memory ptr bytes).2, ?_, hs.setMemory _⟩
    rw [ConnCall.run, hmemory]
    rfl
  | recvfrom fd buf len flags addr addrlen host =>
    have hat' := hat fd rfl
    rw [ConnCall.run, recvfrom_at hat'] at h
    obtain ⟨d', hstep, hafter⟩ := hs.flatStep (receiveFlat_step h)
    obtain ⟨t', hrun, rfl⟩ := receiveFlat_of_step hstep
    refine ⟨t', ?_, hafter⟩
    rw [ConnCall.run, recvfrom_at (hfds ▸ hat'), hs.family]
    exact hs.family ▸ hrun
  | read fd buf len host =>
    have hat' := hat fd rfl
    rw [ConnCall.run, read_at hat'] at h
    rw [ConnCall.run, read_at (hfds ▸ hat'), hmemory]
    cases hslice : guestSlice s.kernel.memory buf len with
    | error e =>
      rw [hslice] at h
      cases h
      exact ⟨t, rfl, hs⟩
    | ok bytes =>
      simp only [hslice] at h
      dsimp only
      split at h
      · rename_i hlen
        cases h
        exact ⟨t, if_pos hlen, hs⟩
      · rename_i hlen
        obtain ⟨d', hstep, hafter⟩ := hs.flatStep (receiveFlat_step h)
        obtain ⟨t', hrun, rfl⟩ := receiveFlat_of_step hstep
        exact ⟨t', (if_neg hlen).trans hrun, hafter⟩
  | recvmsg fd msghdr flags host =>
    have hat' := hat fd rfl
    rw [ConnCall.run, recvmsg_at hat'] at h
    rw [ConnCall.run, recvmsg_at (hfds ▸ hat'), hmemory]
    cases hspans : msgSpans s.kernel.memory msghdr with
    | error e =>
      rw [hspans] at h
      cases h
      exact ⟨t, rfl, hs⟩
    | ok spans =>
      simp only [hspans] at h
      dsimp only
      split at h
      · rename_i hcap
        cases h
        exact ⟨t, if_pos hcap, hs⟩
      · rename_i hcap
        obtain ⟨d', hstep, hafter⟩ := hs.recvmsgStep (fun hopen => (hc spans hspans hcap hopen).1) (recvSpans_step h)
        obtain ⟨t', hrun, rfl⟩ := recvSpans_of_step hstep
        exact ⟨t', (if_neg hcap).trans hrun, hafter⟩
  | shutdown fd how =>
    have hrun : ∀ st : MsgState, (ConnCall.shutdown fd how).run st =
        some (.nothing (Messages.shutdown st fd how).1, (Messages.shutdown st fd how).2) := fun _ => rfl
    obtain ⟨rfl, rfl⟩ := Prod.mk.inj (Option.some.inj ((hrun s).symm.trans h))
    obtain ⟨hvalue, hafter⟩ := shutdown_kept hs (hat fd rfl) hkept
    refine ⟨(Messages.shutdown t fd how).2, ?_, hafter⟩
    rw [hrun t, hvalue]
  | _ => cases hkept

theorem next_kept {s t : MsgState} (hs : SameReads (s.conn ref) (t.conn ref)) (hc : Careful ref s c)
    (hkept : c.kept = true) (h : next ref s c = some (o, s')) :
    ∃ t', next ref t c = some (o, t') ∧ SameReads (s'.conn ref) (t'.conn ref) := by
  unfold next at h
  split at h
  · rename_i hat
    obtain ⟨⟨r, s₁⟩, hrun, hshown⟩ := Option.map_eq_some_iff.mp h
    cases hshown
    obtain ⟨t', hrun', hafter⟩ := run_kept hs hc hkept hat hrun
    have hmemory : t.kernel.memory = s.kernel.memory := hs.memory
    have hfds : t.kernel.fds = s.kernel.fds := hs.fds
    refine ⟨t', ?_, hafter⟩
    rw [← hmemory]
    exact next_of_run (hfds ▸ hat) hrun'
  · cases h

/-- While the steps are careful, a shutdown for writing makes the sends fail, and the
receives go on to deliver the stream in order, as they would by themselves. -/
theorem half_close_keeps_reading (hconn : Connected (st.conn ref) S)
    (hpeek : ∀ c ∈ calls, ConnCall.peeks c = false) (hm : RunMeets (silent (next ref)) (Careful ref) st calls)
    (hrun : traceFrom (next ref) st calls = some (os, st')) :
    HalfClosed S [] false false calls os ∧
      ∃ st'', traceFrom (next ref) st (calls.filter ConnCall.kept) =
        some (shownBy ConnCall.kept calls os, st'') := by
  refine ⟨halfClosed_of_run hconn.inv hpeek hm hrun, ?_⟩
  have hkept : ∀ s t c o s', SameReads (s.conn ref) (t.conn ref) → Careful ref s c → ConnCall.kept c = true →
      next ref s c = some (o, s') → ∃ t', next ref t c = some (o, t') ∧ SameReads (s'.conn ref) (t'.conn ref) :=
    fun _ _ _ _ _ => next_kept
  have hleft : ∀ s (t : MsgState) c o s', SameReads (s.conn ref) (t.conn ref) → Careful ref s c →
      ConnCall.kept c = false → next ref s c = some (o, s') → SameReads (s'.conn ref) (t.conn ref) :=
    fun _ _ _ _ _ hs hc hkeep hnext => (next_left hc hkeep hnext).symm.trans hs
  obtain ⟨t, htrace, -⟩ := trace_filter hkept hleft (.refl (st.conn ref)) hm hrun
  exact ⟨t, htrace⟩

-- ---------------------------------------------------------------------------
-- Two bytes to read after a shutdown for writing
-- ---------------------------------------------------------------------------

def connectedUnix (memory : Option MemoryKind) : MsgState where
  kernel :=
    { (insertSocket (.new [] [] { root := "/", cwd := "/" } (Vector.replicate 32 0)) (.newUnix .stream false)).2 with
      memory }
  streams slot ref := if slot = .streamUnix ∧ ref = 0 then some { rest := [7, 8], sent := [] } else none

theorem connectedUnix_at (memory : Option MemoryKind) : socketAt (connectedUnix memory).kernel.fds 3 = some 0 := rfl

theorem connectedUnix_read (memory : Option MemoryKind) : (connectedUnix memory).read 0 = .newUnix .stream false := rfl

theorem connectedUnix_connected (memory : Option MemoryKind) : Connected ((connectedUnix memory).conn 0) [7, 8] := by
  refine ⟨⟨_, rfl, rfl⟩, ?_, ?_, ?_⟩
  all_goals
    simp only [MsgState.conn, connectedUnix_read]
    decide

theorem connected_at (memory : Option MemoryKind) : socketAt (connected memory).kernel.fds 3 = some 0 := rfl

theorem connected_connected (memory : Option MemoryKind) : Connected ((connected memory).conn 0) [7, 8] := by
  refine ⟨⟨_, rfl, rfl⟩, ?_, ?_, ?_⟩
  all_goals
    simp only [MsgState.conn, connected_read]
    decide

theorem shutdown_wr (hat : socketAt st.kernel.fds fd = some ref) :
    ∃ st', next ref st (.shutdown fd 1) = some ({ value := 0, bytes := [], room := 0 }, st') ∧
      socketAt st'.kernel.fds fd = some ref ∧ st'.kernel.memory = st.kernel.memory ∧
        st'.conn ref = { st.conn ref with shutWr := true }.setStream .stream none := by
  have hmask : shutMask 1 = some 0b10 := rfl
  have hshut := shutdown_at hat 1
  rw [hmask] at hshut
  dsimp only at hshut
  rw [if_pos (by decide)] at hshut
  refine ⟨(st.addShutdown ref 0b10).setStream .stream ref none, ?_, hat, rfl, ?_⟩
  · have hrun : (ConnCall.shutdown fd 1).run st =
        some (.nothing 0, (st.addShutdown ref 0b10).setStream .stream ref none) := by
      rw [ConnCall.run, hshut]
    exact next_of_run (fun f hf => by cases hf; exact hat) hrun
  · have hrd : decide ((0b10 : UInt8) &&& 0b01 ≠ 0) = false := by decide
    have hwr : decide ((0b10 : UInt8) &&& 0b10 ≠ 0) = true := by decide
    rw [conn_setStream, conn_addShutdown, hrd, hwr, Bool.or_false, Bool.or_true]

theorem shutdown_then_read (hat : socketAt st.kernel.fds fd = some ref) (hfits : Fits st.kernel.memory buf len)
    (hlen : 0 < len) {r : Received} {c' : Conn}
    (h : FlatStep ({ st.conn ref with shutWr := true }.setStream .stream none) (slotOf (st.conn ref).familyUnix) buf
      len 0 0 host (r, c')) :
    ∃ st', traceFrom (next ref) st [.shutdown fd 1, .read fd buf len host] =
      some ([{ value := 0, bytes := [], room := 0 }, { value := r.value, bytes := r.bytes, room := len.toNat }],
        st') := by
  obtain ⟨st₁, hshut, hat₁, hmemory, hconn⟩ := shutdown_wr hat
  obtain ⟨bytes, hslice⟩ := hfits.slice
  rw [← hconn] at h
  have hfamily : (st₁.conn ref).familyUnix = (st.conn ref).familyUnix := by rw [hconn]; rfl
  obtain ⟨st₂, hreceive, -⟩ := receiveFlat_of_step h
  have hread : (ConnCall.read fd buf len host).run st₁ = some (r, st₂) := by
    rw [ConnCall.run, read_at hat₁, hmemory, hslice, hfamily]
    exact (if_neg hlen.ne').trans hreceive
  have hnext := next_of_run (fun f hf => by cases hf; exact hat₁) hread
  exact ⟨st₂, traceFrom_cons hshut (traceFrom_cons hnext rfl)⟩

def shutThenRead : List ConnCall := [.shutdown 3 1, .read 3 64 1 (.gives 1)]

theorem unix_shutThenRead (h : Fits memory 64 1) : ∃ st',
    traceFrom (next 0) (connectedUnix memory) shutThenRead =
      some ([{ value := 0, bytes := [], room := 0 }, { value := 1, bytes := [7], room := 1 }], st') := by
  obtain ⟨m, hcopy⟩ := FdSets.guestCopy_fits [7] h rfl
  have hread : HostStream.read { rest := [7, 8], sent := [] } (Int.toNat 1) (.gives 1) =
      some (some [7], { rest := [8], sent := [] }) := rfl
  have hconn := connectedUnix_connected memory
  exact shutdown_then_read (connectedUnix_at memory) h (by decide)
    (.received (recvChecks_of_fits h (by decide)) hconn.openRd rfl hread hcopy)

theorem tcp_shutThenRead (h : Fits memory 64 1) : ∃ st',
    traceFrom (next 0) (connected memory) shutThenRead =
      some ([{ value := 0, bytes := [], room := 0 }, { value := -ENOTCONN, bytes := [], room := 1 }], st') := by
  have hconn := connected_connected memory
  exact shutdown_then_read (connected_at memory) h (by decide)
    (.notConnected (recvChecks_of_fits h (by decide)) hconn.openRd rfl)

theorem unnamed_byte : Fits Names.unnamed.memory 64 1 := Names.unnamed_fits (by decide) (by decide) (by decide)

/-- Over a Unix connection the first byte arrives. -/
theorem half_close_unix : ∃ memory, Connected ((connectedUnix memory).conn 0) [7, 8] ∧
    (∀ c ∈ shutThenRead, ConnCall.peeks c = false) ∧
      RunMeets (silent (next 0)) (Careful 0) (connectedUnix memory) shutThenRead ∧
        ∃ os st', traceFrom (next 0) (connectedUnix memory) shutThenRead = some (os, st') ∧
          os.map Shown.bytes = [[], [7]] ∧ HalfClosed [7, 8] [] false false shutThenRead os := by
  refine ⟨Names.unnamed.memory, ?_⟩
  generalize hmemory : Names.unnamed.memory = memory
  have hfits : Fits memory 64 1 := hmemory ▸ unnamed_byte
  have hconn := connectedUnix_connected memory
  have hpeek : ∀ c ∈ shutThenRead, ConnCall.peeks c = false := by decide
  have hunix : ((connectedUnix memory).conn 0).familyUnix = true := by
    rw [MsgState.conn, connectedUnix_read]
    rfl
  have hm : RunMeets (silent (next 0)) (Careful 0) (connectedUnix memory) shutThenRead :=
    ⟨fun _ => .inl hunix, fun _ _ => ⟨trivial, fun _ _ => trivial⟩⟩
  obtain ⟨st', hrun⟩ := unix_shutThenRead hfits
  exact ⟨hconn, hpeek, hm, _, st', hrun, rfl, (half_close_keeps_reading hconn hpeek hm hrun).1⟩

/-- Over TCP the two bytes cannot be read any more. -/
theorem half_close_loses_tcp : Connected ((connected Names.unnamed.memory).conn 0) [7, 8] ∧
    ∃ os st', traceFrom (next 0) (connected Names.unnamed.memory) shutThenRead = some (os, st') ∧
      os.map Shown.value = [0, -ENOTCONN] ∧ ¬ HalfClosed [7, 8] [] false false shutThenRead os := by
  obtain ⟨st', hrun⟩ := tcp_shutThenRead unnamed_byte
  refine ⟨connected_connected _, _, st', hrun, rfl, ?_⟩
  rintro ⟨-, hread, -⟩
  rcases ((hread.receive rfl).inOrder rfl).2 with hvalue | ⟨-, hvalue | hvalue | hvalue⟩
  all_goals cases hvalue

end EdgeLibos.Sys.HalfClose
