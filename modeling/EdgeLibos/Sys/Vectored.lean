import EdgeLibos.Sys.HalfClose

/-!
# Message calls and flat calls

What `sendmsg` and `recvmsg` do next to `sendto` and `recvfrom` with one buffer. They agree
on a TCP socket with something to send and room to receive into; the message calls never
look at a Unix connection.
-/

namespace EdgeLibos.Sys.Vectored

open Errno Lib Messages Scatter
open FdSets (Fits)
open HalfClose (connectedUnix)

/-- The buffers of a message; a message may have none. -/
def msgIovecs (memory : Option MemoryKind) (msghdr : Int) : Except Int (List (Int × Int)) := do
  let mhdr ← guestSlice memory msghdr MSGHDR_SIZE
  if u32At mhdr MSG_IOVLEN_OFF ≤ 0 ∨ u32At mhdr MSG_IOV_OFF = 0 then .ok []
  else
    let bytes ← guestSlice memory (u32At mhdr MSG_IOV_OFF) (u32At mhdr MSG_IOVLEN_OFF * 8)
    .ok (iovecsOf bytes)

/-- Every buffer that is not empty is in memory. -/
def SpansFit (memory : Option MemoryKind) (spans : List (Int × Int)) : Prop :=
  ∀ span ∈ spans, span.2 ≠ 0 → (guestSlice memory span.1 span.2).isOk = true

/-- The bytes in the buffers, one after the other. -/
def contents (memory : Option MemoryKind) (spans : List (Int × Int)) : List UInt8 :=
  spans.flatMap fun (base, len) => ((guestSlice memory base len).toOption).getD []

/-- What a call shows and the connections it leaves. -/
def seen (ref : Nat) (r : Option (ω × MsgState)) : Option (ω × (Slot → Option HostStream)) :=
  r.map fun (o, st) => (o, fun slot => st.streams slot ref)

/-- A send of these bytes over the connection of this field. -/
def sendOver (c : Conn) (slot : Slot) (bytes : List UInt8) (host : HostWrite) :
    Option (Int × (Slot → Option HostStream)) :=
  if c.shutWr then some (-EPIPE, c.streams)
  else
    match c.streams slot with
    | none => some (-ENOTCONN, c.streams)
    | some s => (s.write bytes host).map fun (n, s) => (n, Function.update c.streams slot (some s))

def flatSend (c : Conn) (bytes : List UInt8) (host : HostWrite) : Option (Int × (Slot → Option HostStream)) :=
  sendOver c (slotOf c.familyUnix) bytes host

/-- A receive of at most `len` bytes over the connection of this field. -/
def receiveFrom (c : Conn) (slot : Slot) (len : Nat) (host : HostRead) :
    Option (Received × (Slot → Option HostStream)) :=
  if c.shutRd then some (.nothing 0, c.streams)
  else
    match c.streams slot with
    | none => some (.nothing (-ENOTCONN), c.streams)
    | some s =>
      match s.read len host with
      | none => none
      | some (none, _) => some (.nothing (- Errno.EIO), c.streams)
      | some (some data, s) =>
        some ({ peek := false, bytes := data, value := data.length }, Function.update c.streams slot (some s))

def flatReceive (c : Conn) (len : Nat) (host : HostRead) : Option (Received × (Slot → Option HostStream)) :=
  if len = 0 then some (.nothing (-EINVAL), c.streams) else receiveFrom c (slotOf c.familyUnix) len host

/-- The message calls do what the flat calls do, however the host goes on, and the bytes
received are written to the buffers in order. -/
structure Agrees (st : MsgState) (ref : Nat) (fd msghdr : Int) (spans : List (Int × Int)) : Prop where
  send : ∀ host, seen ref (sendmsg st fd msghdr 0 host) = flatSend (st.conn ref) (contents st.kernel.memory spans) host
  receive : ∀ host, seen ref (recvmsg st fd msghdr 0 host) = flatReceive (st.conn ref) (capacity spans) host
  scattered : ∀ host o st', recvmsg st fd msghdr 0 host = some (o, st') →
    ∃ m, scatter st.kernel.memory spans o.bytes = .ok m ∧
      (st'.kernel.memory = m ∨ st'.kernel.memory = writeBackMsghdr m msghdr)

/-- A buffer that is not at 0 has bytes, and the send is refused for both or goes out over
TCP with no bytes left out. -/
def SendsAlike (c : Conn) (spans : List (Int × Int)) : Prop :=
  (∃ span ∈ spans, span.1 ≠ 0 ∧ span.2 ≠ 0) ∧
    (c.shutWr = true ∨ c.familyUnix = false ∧ ∀ span ∈ spans, span.1 = 0 → span.2 = 0)

/-- There is room or no buffer at all, and the receive is refused for both, goes to TCP, or
to two connections that are both at their end. -/
def ReceivesAlike (c : Conn) (spans : List (Int × Int)) : Prop :=
  (capacity spans = 0 → spans = []) ∧
    (capacity spans ≠ 0 → c.shutRd = true ∨ c.familyUnix = false ∨
      ∀ slot, ∃ s, c.streams slot = some s ∧ s.rest = [])

-- ---------------------------------------------------------------------------
-- The flat calls
-- ---------------------------------------------------------------------------

variable {st st' : MsgState} {ref : Nat} {fd msghdr : Int} {spans : List (Int × Int)} {memory : Option MemoryKind}
  {payload : List UInt8}

theorem seen_of_send {r : Option (Int × MsgState)} (h : onConn ref r = (st.conn ref).send slot bytes host) :
    seen ref r = sendOver (st.conn ref) slot bytes host := by
  have hseen : seen ref r = (onConn ref r).map fun (n, c) => (n, c.streams) := by
    cases r with
    | none => rfl
    | some r => rfl
  rw [hseen, h, Conn.send, sendOver]
  cases hshut : (st.conn ref).shutWr with
  | true => rfl
  | false =>
    simp only [Bool.false_eq_true, if_false]
    cases hstream : (st.conn ref).streams slot with
    | none => rfl
    | some s => simp [Function.comp_def, Conn.setStream]

theorem sendto_flat (hat : socketAt st.kernel.fds fd = some ref) (h : guestSlice memory buf len = .ok bytes)
    (host : HostWrite) : seen ref (sendto (st.setMemory memory) fd buf len host) = flatSend (st.conn ref) bytes host := by
  have hat' : socketAt (st.setMemory memory).kernel.fds fd = some ref := hat
  have hslice : guestSlice (st.setMemory memory).kernel.memory buf len = .ok bytes := h
  rw [sendto_at hat', seen_of_send (sendFlat_send hslice _ _)]
  rfl

theorem receiveFlat_seen (h : recvChecks st.kernel.memory buf len addr addrlen = .ok u) (slot : Slot) (host : HostRead) :
    seen ref (receiveFlat st slot ref buf len addr addrlen host) = receiveFrom (st.conn ref) slot len.toNat host := by
  have hrd : (st.conn ref).shutRd = Names.shutRd (st.read ref) := rfl
  have hstreams : (st.conn ref).streams slot = st.streams slot ref := rfl
  simp only [receiveFlat, h, receiveFrom, hrd, hstreams]
  cases hshut : Names.shutRd (st.read ref) with
  | true => rfl
  | false =>
    simp only [Bool.false_eq_true, if_false]
    cases hstream : st.streams slot ref with
    | none => rfl
    | some s =>
      dsimp only
      cases hread : s.read len.toNat host with
      | none => rfl
      | some r =>
        obtain ⟨got, s'⟩ := r
        cases got with
        | none => rfl
        | some data =>
          obtain ⟨m, hcopy⟩ := recvChecks_copy h (read_some hread).2.1
          have hcopy' : guestCopy (st.setStream slot ref (some s')).kernel.memory buf data.length data = .ok m := hcopy
          have hconn := congrArg Conn.streams (conn_setStream st ref slot (some s'))
          simp only [hcopy', seen, Option.map_some]
          exact congrArg (fun streams => some (_, streams)) hconn

theorem recvfrom_flat (hat : socketAt st.kernel.fds fd = some ref) {len : Nat} (h : Fits memory buf len)
    (host : HostRead) :
    seen ref (recvfrom (st.setMemory memory) fd buf len 0 0 host) = flatReceive (st.conn ref) len host := by
  have hat' : socketAt (st.setMemory memory).kernel.fds fd = some ref := hat
  have hmemory : (st.setMemory memory).kernel.memory = memory := rfl
  rw [recvfrom_at hat', ite_self, flatReceive]
  split
  · rename_i hzero
    have hchecks : recvChecks (st.setMemory memory).kernel.memory buf len 0 0 = .error (-EINVAL) := by
      rw [Names.recvChecks_eq, if_neg (by omega), if_pos (by omega)]
    simp only [receiveFlat, hchecks]
    rfl
  · rename_i hlen
    have hchecks : recvChecks (st.setMemory memory).kernel.memory buf len 0 0 = .ok () :=
      recvChecks_of_fits h (by omega)
    rw [receiveFlat_seen hchecks]
    rfl

-- ---------------------------------------------------------------------------
-- The buffers of a message
-- ---------------------------------------------------------------------------

theorem iovecsOf_ne_nil {bytes : List UInt8} (h : 8 ≤ bytes.length) : iovecsOf bytes ≠ [] := by
  rcases bytes with _ | ⟨b₀, _ | ⟨b₁, _ | ⟨b₂, _ | ⟨b₃, _ | ⟨l₀, _ | ⟨l₁, _ | ⟨l₂, _ | ⟨l₃, rest⟩⟩⟩⟩⟩⟩⟩⟩
  all_goals simp [iovecsOf] at h ⊢

/-- A message with buffers is gathered from and received into them; one without is empty
for a send and an error for a receive. -/
theorem msgIovecs_ok (h : msgIovecs memory msghdr = .ok spans) : readMsghdrIov memory msghdr = gather memory spans ∧
    (∀ span ∈ spans, 0 ≤ span.2) ∧
      (spans = [] ∧ msgSpans memory msghdr = .error (-EINVAL) ∨ spans ≠ [] ∧ msgSpans memory msghdr = .ok spans) := by
  obtain ⟨mhdr, hmhdr, h⟩ := bind_ok h
  split at h
  · rename_i hnone
    cases h
    refine ⟨?_, by simp, .inl ⟨rfl, ?_⟩⟩
    · rw [readMsghdrIov, hmhdr]
      exact if_pos hnone
    · simp only [msgSpans, hmhdr]
      rw [if_pos hnone]
  · rename_i hsome
    obtain ⟨bytes, hbytes, h⟩ := bind_ok h
    cases h
    have hspans : msgSpans memory msghdr = .ok (iovecsOf bytes) := by
      simp only [msgSpans, hmhdr]
      rw [if_neg hsome, hbytes]
    have hlength := guestSlice_length hbytes
    exact ⟨readMsghdrIov_spans hspans, iovecsOf_nonneg bytes, .inr ⟨iovecsOf_ne_nil (by omega), hspans⟩⟩

@[simp] theorem contents_cons (memory : Option MemoryKind) (base len : Int) (rest : List (Int × Int)) :
    contents memory ((base, len) :: rest) =
      ((guestSlice memory base len).toOption).getD [] ++ contents memory rest := rfl

theorem span_length (h : len ≠ 0 → Fits memory base len) :
    (((guestSlice memory base len).toOption).getD []).length = len.toNat := by
  cases hslice : guestSlice memory base len with
  | ok bytes => exact guestSlice_length hslice
  | error e =>
    by_cases hlen : len = 0
    · rw [hlen]
      rfl
    · obtain ⟨bytes, hbytes⟩ := (h hlen).slice
      rw [hslice] at hbytes
      cases hbytes

theorem contents_length (hfit : SpansFit memory spans) : (contents memory spans).length = capacity spans := by
  induction spans with
  | nil => rfl
  | cons span rest ih =>
    obtain ⟨base, len⟩ := span
    have hrest := ih fun s hs => hfit s (List.mem_cons_of_mem _ hs)
    have hspan := span_length (hfit _ List.mem_cons_self)
    rw [contents_cons, List.length_append, hrest, hspan, capacity_cons]

theorem piecesFit_of_spansFit (hfit : SpansFit memory spans) (n : Nat) : PiecesFit memory spans n := by
  induction spans generalizing n with
  | nil => trivial
  | cons span rest ih =>
    obtain ⟨base, len⟩ := span
    refine ⟨fun hne => ?_, ih (fun s hs => hfit s (List.mem_cons_of_mem _ hs)) _⟩
    have hspan : Fits memory base len := hfit (base, len) List.mem_cons_self (by dsimp only; omega)
    have hpart : Fits memory (base + 0) (min n len.toNat : Nat) := hspan.part (le_refl _) (by omega) (by omega)
    rwa [add_zero] at hpart

theorem gather_eq (hfit : SpansFit memory spans) (hnonneg : ∀ span ∈ spans, 0 ≤ span.2) :
    gather memory spans = .ok (contents memory (spans.filter fun span => span.1 ≠ 0)) := by
  induction spans with
  | nil => rfl
  | cons span rest ih =>
    obtain ⟨base, len⟩ := span
    have hrest := ih (fun s hs => hfit s (List.mem_cons_of_mem _ hs)) fun s hs => hnonneg s (List.mem_cons_of_mem _ hs)
    have hlen : 0 ≤ len := hnonneg _ List.mem_cons_self
    by_cases hbase : base = 0
    · rw [gather, if_neg (by simp [hbase]), hrest, List.filter_cons_of_neg (by simp [hbase])]
    · rw [List.filter_cons_of_pos (by simp [hbase]), contents_cons]
      by_cases hpos : 0 < len
      · obtain ⟨bytes, hbytes⟩ := FdSets.Fits.slice (hfit (base, len) List.mem_cons_self hpos.ne')
        rw [gather, if_pos ⟨hbase, hpos⟩, hbytes, hrest]
        rfl
      · have hzero : len = 0 := by omega
        subst hzero
        have hnil : ((guestSlice memory base 0).toOption).getD [] = [] :=
          List.eq_nil_of_length_eq_zero (span_length fun hne => absurd rfl hne)
        rw [gather, if_neg fun h => hpos h.2, hrest, hnil, List.nil_append]

theorem capacity_eq_zero : capacity spans = 0 ↔ ∀ span ∈ spans, span.2.toNat = 0 := by
  induction spans with
  | nil => simp [capacity]
  | cons span rest ih => rw [capacity_cons, Nat.add_eq_zero_iff, ih, List.forall_mem_cons]

theorem capacity_filter_le (p : Int × Int → Bool) (spans : List (Int × Int)) :
    capacity (spans.filter p) ≤ capacity spans := by
  induction spans with
  | nil => exact le_refl _
  | cons span rest ih =>
    rw [List.filter_cons]
    split
    · rw [capacity_cons, capacity_cons]
      omega
    · rw [capacity_cons]
      omega

/-- No byte is left out exactly when the buffers at 0 have none. -/
theorem capacity_filter_iff (hnonneg : ∀ span ∈ spans, 0 ≤ span.2) :
    capacity spans ≤ capacity (spans.filter fun span => span.1 ≠ 0) ↔ ∀ span ∈ spans, span.1 = 0 → span.2 = 0 := by
  induction spans with
  | nil => simp
  | cons span rest ih =>
    obtain ⟨base, len⟩ := span
    have hlen : 0 ≤ len := hnonneg _ List.mem_cons_self
    have hle := capacity_filter_le (fun span => span.1 ≠ 0) rest
    have hrest := ih fun s hs => hnonneg s (List.mem_cons_of_mem _ hs)
    by_cases hbase : base = 0
    · rw [List.filter_cons_of_neg (by simp [hbase]), capacity_cons, List.forall_mem_cons, ← hrest]
      constructor
      · intro h
        exact ⟨fun _ => by dsimp only; omega, by omega⟩
      · rintro ⟨hzero, h⟩
        have hzero : len = 0 := hzero hbase
        omega
    · rw [List.filter_cons_of_pos (by simp [hbase]), capacity_cons, capacity_cons, List.forall_mem_cons, ← hrest]
      constructor
      · intro h
        exact ⟨fun h0 => absurd h0 hbase, by omega⟩
      · rintro ⟨-, h⟩
        omega

-- ---------------------------------------------------------------------------
-- The message calls
-- ---------------------------------------------------------------------------

/-- The buffers that are not at 0 are what is sent, over TCP. -/
theorem sendmsg_seen (hat : socketAt st.kernel.fds fd = some ref)
    (h : readMsghdrIov st.kernel.memory msghdr = .ok payload) (host : HostWrite) :
    seen ref (sendmsg st fd msghdr 0 host) =
      if payload.isEmpty then some (0, (st.conn ref).streams) else sendOver (st.conn ref) .stream payload host := by
  rw [sendmsg_at hat, h]
  dsimp only
  split
  · rfl
  · exact seen_of_send (sendPayload_send st ref 0 payload host)

theorem asksPeek_zero : asksPeek 0 = false := by decide

theorem recvSpans_seen (hnil : (st.conn ref).peekBuf = [])
    (hfit : SpansFit st.kernel.memory spans) (hnonneg : ∀ span ∈ spans, 0 ≤ span.2) (host : HostRead) :
    seen ref (recvSpans st ref msghdr 0 spans host) = receiveFrom (st.conn ref) .stream (capacity spans) host := by
  unfold receiveFrom
  cases hrun : recvSpans st ref msghdr 0 spans host with
  | none =>
    obtain ⟨s, -, hopen, hs, hread⟩ := recvSpans_none hrun
    simp only [hopen, hs, hread, Bool.false_eq_true, if_false]
    rfl
  | some r =>
    obtain ⟨o, st'⟩ := r
    have hstep := recvSpans_step hrun
    have hview : seen ref (some (o, st')) = some (o, (st'.conn ref).streams) := rfl
    rw [hview]
    generalize st'.conn ref = c' at hstep
    cases hstep with
    | queued hne => exact absurd hnil hne
    | shut _ hshut => simp [hshut]
    | notConnected _ hopen hnone => simp [hopen, hnone]
    | failed _ hopen hs hread => simp [hopen, hs, hread]
    | @received s data s' _ hopen hs hread =>
      have hcopied : ∀ queued, (copyBytesToSpans
          (((st.conn ref).setStream .stream (some s')).setPeekBuf queued).memory spans data).1 = data :=
        fun _ => copyBytesToSpans_fst (piecesFit_of_spansFit hfit _) hnonneg (read_some hread).2.1
      simp only [hopen, hs, hread, hcopied, asksPeek_zero, Bool.false_eq_true, if_false]
      rfl

/-- A message is received over TCP, and one without room not at all. -/
theorem recvmsg_seen (hat : socketAt st.kernel.fds fd = some ref) (hnil : (st.conn ref).peekBuf = [])
    (h : msgIovecs st.kernel.memory msghdr = .ok spans) (hfit : SpansFit st.kernel.memory spans) (host : HostRead) :
    seen ref (recvmsg st fd msghdr 0 host) =
      if spans = [] then some (.nothing (-EINVAL), (st.conn ref).streams)
      else if capacity spans = 0 then some (.nothing 0, (st.conn ref).streams)
      else receiveFrom (st.conn ref) .stream (capacity spans) host := by
  obtain ⟨-, hnonneg, ⟨hnone, hspans⟩ | ⟨hsome, hspans⟩⟩ := msgIovecs_ok h
  · rw [recvmsg_at hat, hspans, if_pos hnone]
    rfl
  · rw [recvmsg_at hat, hspans, if_neg hsome]
    dsimp only
    split
    · rfl
    · exact recvSpans_seen hnil hfit hnonneg host

theorem recvmsgStep_scattered {c c' : Conn} {o : Received} (hnil : c.peekBuf = []) (hfit : SpansFit c.memory spans)
    (hnonneg : ∀ span ∈ spans, 0 ≤ span.2) (h : RecvmsgStep c msghdr flags spans host (o, c')) :
    ∃ m, scatter c.memory spans o.bytes = .ok m ∧ (c'.memory = m ∨ c'.memory = writeBackMsghdr m msghdr) := by
  cases h with
  | queued hne => exact absurd hnil hne
  | @received s data s' _ _ _ hread =>
    obtain ⟨-, hcap, -⟩ := read_some hread
    obtain ⟨m, hm, hcopy⟩ := scatter_of_fit (piecesFit_of_spansFit hfit data.length) hnonneg
    rw [List.take_of_length_le hcap] at hcopy
    have hcopied : ∀ queued, copyBytesToSpans ((c.setStream .stream (some s')).setPeekBuf queued).memory spans data =
        (data, m) := fun _ => hcopy
    refine ⟨m, ?_, .inr ?_⟩
    · rw [hcopied]
      exact hm
    · rw [hcopied]
      rfl
  | _ => exact ⟨_, scatter_nil spans, .inl rfl⟩

theorem recvmsg_scattered (hat : socketAt st.kernel.fds fd = some ref) (hnil : (st.conn ref).peekBuf = [])
    (h : msgIovecs st.kernel.memory msghdr = .ok spans) (hfit : SpansFit st.kernel.memory spans)
    (hrun : recvmsg st fd msghdr 0 host = some (o, st')) :
    ∃ m, scatter st.kernel.memory spans o.bytes = .ok m ∧
      (st'.kernel.memory = m ∨ st'.kernel.memory = writeBackMsghdr m msghdr) := by
  obtain ⟨-, hnonneg, ⟨-, hspans⟩ | ⟨-, hspans⟩⟩ := msgIovecs_ok h
  · rw [recvmsg_at hat, hspans] at hrun
    cases hrun
    exact ⟨_, scatter_nil spans, .inl rfl⟩
  · rw [recvmsg_at hat, hspans] at hrun
    dsimp only at hrun
    split at hrun
    · cases hrun
      exact ⟨_, scatter_nil spans, .inl rfl⟩
    · exact recvmsgStep_scattered hnil hfit hnonneg (recvSpans_step hrun)

-- ---------------------------------------------------------------------------
-- When they agree
-- ---------------------------------------------------------------------------

theorem contents_filter (hfit : SpansFit memory spans) (hnull : ∀ span ∈ spans, span.1 = 0 → span.2 = 0) :
    contents memory (spans.filter fun span => span.1 ≠ 0) = contents memory spans := by
  induction spans with
  | nil => rfl
  | cons span rest ih =>
    obtain ⟨base, len⟩ := span
    have hrest := ih (fun s hs => hfit s (List.mem_cons_of_mem _ hs)) fun s hs => hnull s (List.mem_cons_of_mem _ hs)
    by_cases hbase : base = 0
    · have hlen : len = 0 := hnull _ List.mem_cons_self hbase
      subst hlen
      have hnil : ((guestSlice memory base 0).toOption).getD [] = [] :=
        List.eq_nil_of_length_eq_zero (span_length fun hne => absurd rfl hne)
      rw [List.filter_cons_of_neg (by simp [hbase]), contents_cons, hnil, List.nil_append, hrest]
    · rw [List.filter_cons_of_pos (by simp [hbase]), contents_cons, contents_cons, hrest]

theorem payload_ne_nil_iff (hfit : SpansFit memory spans) (hnonneg : ∀ span ∈ spans, 0 ≤ span.2) :
    contents memory (spans.filter fun span => span.1 ≠ 0) ≠ [] ↔ ∃ span ∈ spans, span.1 ≠ 0 ∧ span.2 ≠ 0 := by
  have hlength : (contents memory (spans.filter fun span => span.1 ≠ 0)).length = capacity _ :=
    contents_length fun s hs => hfit s (List.mem_of_mem_filter hs)
  rw [← List.length_pos_iff, Nat.pos_iff_ne_zero, hlength, ne_eq, capacity_eq_zero]
  simp only [not_forall, exists_prop]
  constructor
  · rintro ⟨span, hspan, hne⟩
    obtain ⟨hmem, hbase⟩ := List.mem_filter.mp hspan
    exact ⟨span, hmem, by simpa using hbase, by omega⟩
  · rintro ⟨span, hmem, hbase, hne⟩
    have := hnonneg span hmem
    exact ⟨span, List.mem_filter.mpr ⟨hmem, by simpa using hbase⟩, by omega⟩

theorem sendOver_shut {c : Conn} (h : c.shutWr = true) (slot : Slot) (bytes : List UInt8) (host : HostWrite) :
    sendOver c slot bytes host = some (-EPIPE, c.streams) := by
  rw [sendOver, if_pos h]

theorem sendOver_open {c : Conn} (h : c.shutWr = false) {s : HostStream} (hs : c.streams slot = some s)
    (bytes : List UInt8) (host : HostWrite) : sendOver c slot bytes host =
      (s.write bytes host).map fun (n, s) => (n, Function.update c.streams slot (some s)) := by
  simp only [sendOver, h, hs, Bool.false_eq_true, if_false]

/-- If all of `bytes` can go out over TCP as well, it is all of the payload, and there is no
other connection for it. -/
theorem sends_all {c : Conn} (hopen : c.shutWr = false) {s : HostStream} (hs : c.streams (slotOf c.familyUnix) = some s)
    (hne : bytes ≠ [])
    (h : sendOver c .stream payload (.takes bytes.length) = flatSend c bytes (.takes bytes.length)) :
    c.familyUnix = false ∧ bytes.length ≤ payload.length := by
  have hwrite : s.write bytes (.takes bytes.length) =
      some ((bytes.length : Int), { s with sent := s.sent ++ bytes }) := by
    simp only [HostStream.write]
    rw [if_pos ⟨le_refl _, List.eq_nil_of_length_eq_zero⟩, List.take_length]
  rw [flatSend, sendOver_open hopen hs, hwrite, Option.map_some] at h
  cases hstream : c.streams .stream with
  | none =>
    simp only [sendOver, hopen, hstream, Bool.false_eq_true, if_false, Option.some.injEq, Prod.mk.injEq] at h
    have hneg : -ENOTCONN < 0 := by decide
    omega
  | some t =>
    rw [sendOver_open hopen hstream] at h
    obtain ⟨⟨n, t'⟩, htake, h⟩ := Option.map_eq_some_iff.mp h
    simp only [HostStream.write] at htake
    split at htake
    · rename_i hn
      refine ⟨?_, hn.1⟩
      by_contra hunix
      rw [Bool.not_eq_false] at hunix
      have hslot : slotOf c.familyUnix = .streamUnix := by
        rw [hunix]
        rfl
      rw [hslot] at h hs
      have hother := congrFun (Prod.mk.inj h).2 .streamUnix
      rw [Function.update_self, Function.update_of_ne (by simp), hs] at hother
      have hlength := congrArg (fun s => (HostStream.sent s).length) (Option.some.inj hother)
      have hpos := List.length_pos_iff.mpr hne
      simp only [List.length_append] at hlength
      omega
    · cases htake

theorem sendsAlike_iff (hat : socketAt st.kernel.fds fd = some ref)
    (hconn : ∃ s, (st.conn ref).streams (slotOf (st.conn ref).familyUnix) = some s)
    (h : msgIovecs st.kernel.memory msghdr = .ok spans) (hfit : SpansFit st.kernel.memory spans) :
    (∀ host, seen ref (sendmsg st fd msghdr 0 host) =
        flatSend (st.conn ref) (contents st.kernel.memory spans) host) ↔ SendsAlike (st.conn ref) spans := by
  obtain ⟨hread, hnonneg, -⟩ := msgIovecs_ok h
  obtain ⟨s, hs⟩ := hconn
  rw [gather_eq hfit hnonneg] at hread
  have hpayload : (contents st.kernel.memory (spans.filter fun span => span.1 ≠ 0)).length = capacity _ :=
    contents_length fun s hs => hfit s (List.mem_of_mem_filter hs)
  have hcontents := contents_length hfit
  have hle := capacity_filter_le (fun span => span.1 ≠ 0) spans
  simp only [sendmsg_seen hat hread, SendsAlike, ← payload_ne_nil_iff hfit hnonneg]
  constructor
  · intro hagree
    have hne : contents st.kernel.memory (spans.filter fun span => span.1 ≠ 0) ≠ [] := by
      intro hnil
      have hfails := hagree .fails
      rw [hnil, if_pos List.isEmpty_nil, flatSend] at hfails
      cases hshut : (st.conn ref).shutWr with
      | true =>
        rw [sendOver_shut hshut] at hfails
        cases hfails
      | false =>
        rw [sendOver_open hshut hs] at hfails
        cases hfails
    refine ⟨hne, ?_⟩
    cases hshut : (st.conn ref).shutWr with
    | true => exact .inl rfl
    | false =>
      right
      have hpos := List.length_pos_iff.mpr hne
      have hall := hagree (.takes (contents st.kernel.memory spans).length)
      rw [if_neg (by simpa using hne)] at hall
      obtain ⟨htcp, hlength⟩ := sends_all hshut hs (List.length_pos_iff.mp (by omega)) hall
      exact ⟨htcp, (capacity_filter_iff hnonneg).mp (by omega)⟩
  · rintro ⟨hne, halike⟩ host
    rw [if_neg (by simpa using hne), flatSend]
    rcases halike with hshut | ⟨htcp, hnull⟩
    · rw [sendOver_shut hshut, sendOver_shut hshut]
    · rw [contents_filter hfit hnull, htcp]
      rfl

theorem receiveFrom_shut {c : Conn} (h : c.shutRd = true) (slot : Slot) (len : Nat) (host : HostRead) :
    receiveFrom c slot len host = some (.nothing 0, c.streams) := by
  rw [receiveFrom, if_pos h]

def atEnd (streams : Slot → Option HostStream) : HostRead → Option (Received × (Slot → Option HostStream))
  | .fails => some (.nothing (- Errno.EIO), streams)
  | .gives 0 => some ({ peek := false, bytes := [], value := 0 }, streams)
  | .gives (_ + 1) => none

theorem receiveFrom_end {c : Conn} (hopen : c.shutRd = false) {s : HostStream} (hs : c.streams slot = some s)
    (hend : s.rest = []) (len : Nat) (host : HostRead) : receiveFrom c slot len host = atEnd c.streams host := by
  have hsame : { s with rest := [] } = s := by rw [← hend]
  simp only [receiveFrom, hopen, hs, Bool.false_eq_true, if_false]
  cases host with
  | fails => rfl
  | gives n =>
    cases n with
    | zero => simp [HostStream.read, hend, hsame, ← hs, atEnd]
    | succ n => simp [HostStream.read, hend, atEnd]

theorem receiveFrom_one {c : Conn} (hopen : c.shutRd = false) {s : HostStream} (hs : c.streams slot = some s)
    (hrest : s.rest = b :: rest) (hlen : len ≠ 0) : receiveFrom c slot len (.gives 1) =
      some ({ peek := false, bytes := [b], value := 1 }, Function.update c.streams slot (some { s with rest })) := by
  have hone : 1 ≤ len := Nat.one_le_iff_ne_zero.mpr hlen
  simp [receiveFrom, hopen, hs, HostStream.read, hrest, hone]

/-- A Unix connection that is received from as over TCP is at its end, and so is the TCP
connection. -/
theorem receives_at_end {c : Conn} (hopen : c.shutRd = false) {s : HostStream} (hs : c.streams .streamUnix = some s)
    (hlen : len ≠ 0) (h : ∀ host, receiveFrom c .stream len host = receiveFrom c .streamUnix len host) :
    ∀ slot, ∃ s, c.streams slot = some s ∧ s.rest = [] := by
  cases hstream : c.streams .stream with
  | none =>
    have hfails := h .fails
    simp [receiveFrom, hopen, hstream, hs, HostStream.read, Received.nothing, ENOTCONN, Errno.EIO] at hfails
  | some t =>
    have hunix : s.rest = [] := by
      cases hrest : s.rest with
      | nil => rfl
      | cons b rest =>
        have hone := h (.gives 1)
        rw [receiveFrom_one hopen hs hrest hlen] at hone
        cases ht : t.rest with
        | nil =>
          rw [receiveFrom_end hopen hstream ht] at hone
          cases hone
        | cons b' rest' =>
          rw [receiveFrom_one hopen hstream ht hlen] at hone
          have hother := congrFun (Prod.mk.inj (Option.some.inj hone)).2 .streamUnix
          rw [Function.update_self, Function.update_of_ne (by simp), hs] at hother
          have hlength := congrArg (fun s => (HostStream.rest s).length) (Option.some.inj hother)
          simp [hrest] at hlength
    have htcp : t.rest = [] := by
      cases hrest : t.rest with
      | nil => rfl
      | cons b rest =>
        have hone := h (.gives 1)
        rw [receiveFrom_one hopen hstream hrest hlen, receiveFrom_end hopen hs hunix] at hone
        cases hone
    intro slot
    cases slot with
    | stream => exact ⟨t, hstream, htcp⟩
    | streamUnix => exact ⟨s, hs, hunix⟩

theorem receivesAlike_iff (hat : socketAt st.kernel.fds fd = some ref)
    (hconn : ∃ s, (st.conn ref).streams (slotOf (st.conn ref).familyUnix) = some s)
    (hnil : (st.conn ref).peekBuf = []) (h : msgIovecs st.kernel.memory msghdr = .ok spans)
    (hfit : SpansFit st.kernel.memory spans) :
    (∀ host, seen ref (recvmsg st fd msghdr 0 host) = flatReceive (st.conn ref) (capacity spans) host) ↔
      ReceivesAlike (st.conn ref) spans := by
  obtain ⟨s, hs⟩ := hconn
  simp only [recvmsg_seen hat hnil h hfit, flatReceive]
  constructor
  · intro hagree
    refine ⟨fun hcap => ?_, fun hcap => ?_⟩
    · by_contra hsome
      have hfails := hagree .fails
      rw [if_neg hsome, if_pos hcap, if_pos hcap] at hfails
      cases hfails
    · have hsome : spans ≠ [] := by
        rintro rfl
        exact hcap rfl
      simp only [if_neg hsome, if_neg hcap] at hagree
      cases hshut : (st.conn ref).shutRd with
      | true => exact .inl rfl
      | false =>
        cases hfamily : (st.conn ref).familyUnix with
        | false => exact .inr (.inl rfl)
        | true =>
          have hslot : slotOf (st.conn ref).familyUnix = .streamUnix := by
            rw [hfamily]
            rfl
          rw [hslot] at hs hagree
          exact .inr (.inr (receives_at_end hshut hs hcap hagree))
  · rintro ⟨hnone, halike⟩ host
    by_cases hcap : capacity spans = 0
    · rw [if_pos (hnone hcap), if_pos hcap]
    · have hsome : spans ≠ [] := by
        rintro rfl
        exact hcap rfl
      rw [if_neg hsome, if_neg hcap, if_neg hcap]
      rcases halike hcap with hshut | htcp | hend
      · rw [receiveFrom_shut hshut, receiveFrom_shut hshut]
      · rw [htcp]
        rfl
      · cases hshut : (st.conn ref).shutRd with
        | true => rw [receiveFrom_shut hshut, receiveFrom_shut hshut]
        | false =>
          obtain ⟨t, ht, htend⟩ := hend .stream
          obtain ⟨u, hu, huend⟩ := hend (slotOf (st.conn ref).familyUnix)
          rw [receiveFrom_end hshut ht htend, receiveFrom_end hshut hu huend]

/-- On a connected socket with nothing queued, the message calls do what the flat calls do
exactly when the sends and the receives are alike. The flat calls look at nothing but the
bytes, or the length, of their buffer. -/
theorem message_calls_agree_iff (hat : socketAt st.kernel.fds fd = some ref)
    (hconn : ∃ s, (st.conn ref).streams (slotOf (st.conn ref).familyUnix) = some s)
    (hnil : (st.conn ref).peekBuf = []) (h : msgIovecs st.kernel.memory msghdr = .ok spans)
    (hfit : SpansFit st.kernel.memory spans) :
    (∀ memory buf len host, guestSlice memory buf len = .ok (contents st.kernel.memory spans) →
        seen ref (sendto (st.setMemory memory) fd buf len host) =
          flatSend (st.conn ref) (contents st.kernel.memory spans) host) ∧
      (∀ memory buf host, Fits memory buf (capacity spans) →
        seen ref (recvfrom (st.setMemory memory) fd buf (capacity spans) 0 0 host) =
          flatReceive (st.conn ref) (capacity spans) host) ∧
      (Agrees st ref fd msghdr spans ↔ SendsAlike (st.conn ref) spans ∧ ReceivesAlike (st.conn ref) spans) := by
  refine ⟨fun memory buf len host hslice => sendto_flat hat hslice host,
    fun memory buf host hfits => recvfrom_flat hat hfits host, ?_⟩
  rw [← sendsAlike_iff hat hconn h hfit, ← receivesAlike_iff hat hconn hnil h hfit]
  constructor
  · rintro ⟨hsend, hreceive, -⟩
    exact ⟨hsend, hreceive⟩
  · rintro ⟨hsend, hreceive⟩
    exact ⟨hsend, hreceive, fun host o st' hrun => recvmsg_scattered hat hnil h hfit hrun⟩

-- ---------------------------------------------------------------------------
-- One byte over TCP and over a Unix connection
-- ---------------------------------------------------------------------------

theorem msgIovecs_of_spans (h : msgSpans memory msghdr = .ok spans) : msgIovecs memory msghdr = .ok spans := by
  unfold msgSpans at h
  unfold msgIovecs
  split at h
  · cases h
  · rename_i mhdr hmhdr
    split at h
    · cases h
    · rename_i hiov
      split at h
      · cases h
      · rename_i bytes hbytes
        cases h
        rw [hmhdr]
        refine (if_neg hiov).trans ?_
        rw [hbytes]
        rfl

theorem oneByte_iovecs : msgIovecs (msgMemory 48) 0 = .ok [(48, 1)] := msgIovecs_of_spans (msgMemory_spans 48)

theorem oneByte_fits : SpansFit (msgMemory 48) [(48, 1)] := by
  intro span hspan _
  obtain rfl := List.mem_singleton.mp hspan
  exact (msgMemory_fits 48).mpr (by decide)

/-- Over TCP a message of one byte goes out and comes in as the byte alone does. -/
theorem message_calls_agree_tcp : ∃ memory, msgIovecs memory 0 = .ok [(48, 1)] ∧ SpansFit memory [(48, 1)] ∧
    socketAt (connected memory).kernel.fds 3 = some 0 ∧ ((connected memory).conn 0).peekBuf = [] ∧
      Agrees (connected memory) 0 3 0 [(48, 1)] := by
  refine ⟨msgMemory 48, oneByte_iovecs, oneByte_fits, HalfClose.connected_at _, ?_⟩
  have hiovecs := oneByte_iovecs
  have hfit := oneByte_fits
  generalize msgMemory 48 = memory at hiovecs hfit ⊢
  have hconn := HalfClose.connected_connected memory
  have htcp : ((connected memory).conn 0).familyUnix = false := by
    rw [MsgState.conn, connected_read]
    rfl
  refine ⟨hconn.queue, ?_⟩
  obtain ⟨s, hs, -⟩ := hconn.stream
  rw [(message_calls_agree_iff (HalfClose.connected_at memory) ⟨s, hs⟩ hconn.queue hiovecs hfit).2.2]
  refine ⟨⟨⟨(48, 1), by simp, by decide, by decide⟩, .inr ⟨htcp, by simp⟩⟩, fun hcap => ?_, fun _ => .inr (.inl htcp)⟩
  cases hcap

/-- Over a Unix connection the byte goes out by itself, and not as a message. -/
theorem unix_message_not_connected : msgIovecs (connectedUnix (msgMemory 48)).kernel.memory 0 = .ok [(48, 1)] ∧
    SpansFit (connectedUnix (msgMemory 48)).kernel.memory [(48, 1)] ∧
      (∃ streams, seen 0 (sendmsg (connectedUnix (msgMemory 48)) 3 0 0 (.takes 1)) = some (-ENOTCONN, streams)) ∧
        (∃ streams, flatSend ((connectedUnix (msgMemory 48)).conn 0) (contents (msgMemory 48) [(48, 1)]) (.takes 1) =
          some (1, streams)) ∧ ¬ Agrees (connectedUnix (msgMemory 48)) 0 3 0 [(48, 1)] := by
  refine ⟨oneByte_iovecs, oneByte_fits, ?_⟩
  have hiovecs := oneByte_iovecs
  have hfit := oneByte_fits
  generalize msgMemory 48 = memory at hiovecs hfit ⊢
  have hat := HalfClose.connectedUnix_at memory
  have hconn := HalfClose.connectedUnix_connected memory
  have hunix : slotOf ((connectedUnix memory).conn 0).familyUnix = .streamUnix := by
    rw [MsgState.conn, HalfClose.connectedUnix_read]
    rfl
  have hnone : ((connectedUnix memory).conn 0).streams .stream = none := rfl
  have hstream : ((connectedUnix memory).conn 0).streams .streamUnix = some { rest := [7, 8], sent := [] } := rfl
  have hopen : ((connectedUnix memory).conn 0).shutWr = false := hconn.openWr
  obtain ⟨hread, -, -⟩ := msgIovecs_ok hiovecs
  rw [gather_eq hfit (by simp)] at hread
  have hlength : (contents memory [(48, 1)]).length = 1 := contents_length hfit
  have hpayload : (contents memory ([(48, 1)].filter fun span => span.1 ≠ 0)).isEmpty = false := by
    rw [contents_filter hfit (by simp), ← Bool.not_eq_true, List.isEmpty_iff_length_eq_zero, hlength]
    decide
  have hmessage : seen 0 (sendmsg (connectedUnix memory) 3 0 0 (.takes 1)) =
      some (-ENOTCONN, ((connectedUnix memory).conn 0).streams) := by
    rw [sendmsg_seen hat hread, if_neg (by rw [hpayload]; exact Bool.false_ne_true)]
    simp only [sendOver, hopen, hnone, Bool.false_eq_true, if_false]
  have hflat : ∃ streams, flatSend ((connectedUnix memory).conn 0) (contents memory [(48, 1)]) (.takes 1) =
      some (1, streams) := by
    rw [flatSend, hunix, sendOver_open hopen hstream, HostStream.write, if_pos ⟨hlength.ge, by simp⟩]
    exact ⟨_, rfl⟩
  refine ⟨⟨_, hmessage⟩, hflat, fun hagree => ?_⟩
  obtain ⟨streams, hflat⟩ := hflat
  have hsame := hagree.send (.takes 1)
  rw [hmessage] at hsame
  cases hsame.trans hflat

end EdgeLibos.Sys.Vectored
