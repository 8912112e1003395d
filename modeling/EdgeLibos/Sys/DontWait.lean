import EdgeLibos.Sys.Scatter

/-!
# The length of a `MSG_DONTWAIT`

`sendmsg` and `recvmsg` set the flag of the socket for `MSG_DONTWAIT`, and each way out is
to put it back by itself.
-/

namespace EdgeLibos.Sys.DontWait

open Errno Lib Messages
open Names (shutRd)
open Scatter (connected connected_open connected_memory connected_read)

inductive MsgCall
  | sendmsg (msghdr flags : Int) (host : HostWrite)
  | recvmsg (msghdr flags : Int) (host : HostRead)
  deriving DecidableEq, Repr

def MsgCall.run (st : MsgState) (fd : Int) : MsgCall → Option (Int × MsgState)
  | .sendmsg msghdr flags host => Messages.sendmsg st fd msghdr flags host
  | .recvmsg msghdr flags host =>
    (Messages.recvmsg st fd msghdr flags host).map fun (o, st) => (o.value, st)

/-- A call that flips the flag and then returns at once: there is something to send or to
receive into, and the socket is shut down for it or has no TCP connection. -/
def GivesUp (st : MsgState) (ref : Nat) : MsgCall → Prop
  | .sendmsg msghdr _ _ =>
    (∃ payload, readMsghdrIov st.kernel.memory msghdr = .ok payload ∧ payload ≠ []) ∧
      (shutWr (st.read ref) = true ∨ st.streams .stream ref = none)
  | .recvmsg msghdr _ _ =>
    (∃ spans, msgSpans st.kernel.memory msghdr = .ok spans ∧ capacity spans ≠ 0) ∧
      (st.read ref).peekBuf = [] ∧ (shutRd (st.read ref) = true ∨ st.streams .stream ref = none)

def MsgCall.flags : MsgCall → Int
  | .sendmsg _ flags _ | .recvmsg _ flags _ => flags

/-- The flag stays set. -/
def Leaks (st : MsgState) (ref : Nat) (c : MsgCall) : Prop :=
  asksDontWait c.flags = true ∧ (st.read ref).nonblock = false ∧ GivesUp st ref c

-- ---------------------------------------------------------------------------
-- The flag
-- ---------------------------------------------------------------------------

variable {st st' : MsgState} {ref : Nat} {flags msghdr : Int}

@[simp] theorem read_deliver (st : MsgState) (ref : Nat) (peek : Bool) (msghdr : Int)
    (spans : List (Int × Int)) (data : List UInt8) :
    (st.deliver peek msghdr spans data).2.read ref = st.read ref := rfl

/-- After a restore the flag is what it was, whatever else the call did in between. -/
theorem restore_flip (st st' : MsgState) (ref : Nat) (flags : Int)
    (h : (st'.read ref).nonblock = ((flipNonblock st ref flags).2.read ref).nonblock) :
    ((restoreNonblock st' ref (flipNonblock st ref flags).1).read ref).nonblock = (st.read ref).nonblock := by
  unfold flipNonblock at h ⊢
  split
  · simp [restoreNonblock]
  · rename_i hasks
    rw [if_neg hasks] at h
    exact h

/-- Without a restore it is what it was only if it was set, or not asked for. -/
theorem flip_same_iff : ((flipNonblock st ref flags).2.read ref).nonblock = (st.read ref).nonblock ↔
    ¬ (asksDontWait flags = true ∧ (st.read ref).nonblock = false) := by
  rw [flip_read]
  cases asksDontWait flags <;> cases (st.read ref).nonblock <;> simp

-- ---------------------------------------------------------------------------
-- A call
-- ---------------------------------------------------------------------------

variable {fd value : Int} {fd' : UInt32} {spans : List (Int × Int)} {c : MsgCall} {payload : List UInt8}

/-- A payload that cannot be sent leaves the flag set. -/
theorem sendPayload_same_iff (h : sendPayload st ref flags payload host = some (value, st')) :
    (st'.read ref).nonblock = (st.read ref).nonblock ↔
      ¬ ((asksDontWait flags = true ∧ (st.read ref).nonblock = false) ∧
        (shutWr (st.read ref) = true ∨ st.streams .stream ref = none)) := by
  simp only [sendPayload, shutWr_flip, flip_streams] at h
  cases hshut : shutWr (st.read ref) with
  | true =>
    simp only [hshut, if_true] at h
    cases h
    simpa using flip_same_iff
  | false =>
    simp only [hshut, Bool.false_eq_true, if_false] at h
    cases hstream : st.streams .stream ref with
    | none =>
      rw [hstream] at h
      cases h
      simpa using flip_same_iff
    | some s =>
      rw [hstream] at h
      obtain ⟨⟨n, s'⟩, -, hst⟩ := Option.map_eq_some_iff.mp h
      cases hst
      simpa using restore_flip st ((flipNonblock st ref flags).2.setStream .stream ref (some s')) ref flags rfl

theorem sendmsg_same_iff (hfd : u32Fd fd = some fd') (hget : st.kernel.fds.get fd' = .ok (.socket ref))
    (h : Messages.sendmsg st fd msghdr flags host = some (value, st')) :
    (st'.read ref).nonblock = (st.read ref).nonblock ↔ ¬ Leaks st ref (.sendmsg msghdr flags host) := by
  simp only [Messages.sendmsg, hfd, hget] at h
  simp only [Leaks, GivesUp, MsgCall.flags]
  cases hpayload : readMsghdrIov st.kernel.memory msghdr with
  | error e =>
    rw [hpayload] at h
    cases h
    simp
  | ok payload =>
    simp only [hpayload] at h
    cases payload with
    | nil =>
      cases h
      simp
    | cons b rest =>
      rw [sendPayload_same_iff h]
      simp [and_assoc]

/-- With nothing queued, a socket that cannot be received from keeps the flag set. -/
theorem recvSpans_same_iff (h : recvSpans st ref msghdr flags spans host = some (o, st')) :
    (st'.read ref).nonblock = (st.read ref).nonblock ↔
      ¬ ((asksDontWait flags = true ∧ (st.read ref).nonblock = false) ∧
        (st.read ref).peekBuf = [] ∧ (shutRd (st.read ref) = true ∨ st.streams .stream ref = none)) := by
  simp only [recvSpans, shutRd_flip, flip_streams, peekBuf_flip] at h
  cases hqueued : (st.read ref).peekBuf with
  | cons b rest =>
    rw [hqueued] at h
    cases h
    simpa using restore_flip st _ ref flags (by simp)
  | nil =>
    simp only [hqueued, List.isEmpty_nil, if_true] at h
    cases hshut : shutRd (st.read ref) with
    | true =>
      simp only [hshut, if_true] at h
      cases h
      simpa using flip_same_iff
    | false =>
      simp only [hshut, Bool.false_eq_true, if_false] at h
      cases hstream : st.streams .stream ref with
      | none =>
        rw [hstream] at h
        cases h
        simpa using flip_same_iff
      | some s =>
        simp only [hstream] at h
        split at h
        · cases h
        · cases h
          simpa using restore_flip st _ ref flags rfl
        · cases h
          simp only [reduceCtorEq, or_self, and_false, not_false_iff, iff_true, Bool.false_eq_true]
          apply restore_flip
          split
          · simp
          · simp

theorem recvmsg_same_iff (hfd : u32Fd fd = some fd') (hget : st.kernel.fds.get fd' = .ok (.socket ref))
    (h : Messages.recvmsg st fd msghdr flags host = some (o, st')) :
    (st'.read ref).nonblock = (st.read ref).nonblock ↔ ¬ Leaks st ref (.recvmsg msghdr flags host) := by
  simp only [Messages.recvmsg, hfd, hget] at h
  simp only [Leaks, GivesUp, MsgCall.flags]
  cases hspans : msgSpans st.kernel.memory msghdr with
  | error e =>
    rw [hspans] at h
    cases h
    simp
  | ok spans =>
    simp only [hspans] at h
    split at h
    · rename_i hcap
      cases h
      simp [hcap]
    · rename_i hcap
      rw [recvSpans_same_iff h]
      simp [hcap, and_assoc]

/-- A `sendmsg` or `recvmsg` on a socket leaves its flag as it was except where it gives up
after it set the flag. -/
theorem dontwait_transient_iff (hfd : u32Fd fd = some fd') (hget : st.kernel.fds.get fd' = .ok (.socket ref))
    (h : c.run st fd = some (value, st')) :
    (st'.read ref).nonblock = (st.read ref).nonblock ↔ ¬ Leaks st ref c := by
  cases c with
  | sendmsg msghdr flags host => exact sendmsg_same_iff hfd hget h
  | recvmsg msghdr flags host =>
    obtain ⟨⟨o, st₁⟩, hrecv, hst⟩ := Option.map_eq_some_iff.mp h
    cases hst
    exact recvmsg_same_iff hfd hget hrecv

-- ---------------------------------------------------------------------------
-- One byte for a socket that is not connected
-- ---------------------------------------------------------------------------

theorem gather_one (hbase : base ≠ 0) (hlen : 0 < len) (h : guestSlice memory base len = .ok data) :
    gather memory [(base, len)] = .ok data := by
  rw [gather, if_pos ⟨hbase, hlen⟩, h]
  exact congrArg Except.ok (List.append_nil data)

def unconnected (memory : Option MemoryKind) : MsgState where
  kernel := { Names.unnamed with memory }
  streams := fun _ _ => none

theorem unconnected_open (memory : Option MemoryKind) :
    (unconnected memory).kernel.fds.get 3 = .ok (.socket 0) := rfl

theorem unconnected_read (memory : Option MemoryKind) : (unconnected memory).read 0 = .new .stream false := rfl

theorem unconnected_memory (memory : Option MemoryKind) : (unconnected memory).kernel.memory = memory := rfl

theorem peeker_payload : ∃ payload, readMsghdrIov peeker.memory 0 = .ok payload ∧ payload ≠ [] := by
  have hslice : (guestSlice peeker.memory 48 1).isOk = true :=
    peeker_sized.slice (by decide) (by decide) (by decide)
  cases hread : guestSlice peeker.memory 48 1 with
  | error e =>
    rw [hread] at hslice
    cases hslice
  | ok data =>
    refine ⟨data, ?_, ?_⟩
    · rw [readMsghdrIov_spans peeker_spans]
      exact gather_one (by decide) (by decide) hread
    · rintro rfl
      cases guestSlice_length hread

theorem unconnected_sendmsg (h : ∃ payload, readMsghdrIov memory 0 = .ok payload ∧ payload ≠ []) (flags : Int) :
    (MsgCall.sendmsg 0 flags .fails).run (unconnected memory) 3 =
      some (-ENOTCONN, (flipNonblock (unconnected memory) 0 flags).2) := by
  obtain ⟨payload, hpayload, hne⟩ := h
  have hempty : ¬ payload.isEmpty = true := by
    rw [List.isEmpty_iff]
    exact hne
  have hnumber : u32Fd 3 = some 3 := rfl
  have hshut : ¬ shutWr ((unconnected memory).read 0) = true := by
    rw [unconnected_read]
    decide
  simp only [MsgCall.run, sendmsg, hnumber, unconnected_open, unconnected_memory, hpayload]
  rw [if_neg hempty]
  simp only [sendPayload, shutWr_flip, flip_streams]
  exact if_neg hshut

theorem connected_sendmsg (h : ∃ payload, readMsghdrIov memory 0 = .ok payload ∧ payload ≠ []) :
    ∃ st', (MsgCall.sendmsg 0 0x40 (.takes 1)).run (connected memory) 3 = some (1, st') := by
  obtain ⟨payload, hpayload, hne⟩ := h
  have hempty : ¬ payload.isEmpty = true := by
    rw [List.isEmpty_iff]
    exact hne
  have hnumber : u32Fd 3 = some 3 := rfl
  have hshut : ¬ shutWr ((connected memory).read 0) = true := by
    rw [connected_read]
    decide
  have hstream : (connected memory).streams .stream 0 = some { rest := [7, 8], sent := [] } := rfl
  have hwrite : HostStream.write { rest := [7, 8], sent := [] } payload (.takes 1) =
      some (1, { rest := [7, 8], sent := payload.take 1 }) :=
    if_pos ⟨List.length_pos_iff.mpr hne, fun h => by cases h⟩
  simp only [MsgCall.run, sendmsg, hnumber, connected_open, connected_memory, hpayload]
  rw [if_neg hempty]
  simp only [sendPayload, shutWr_flip, flip_streams]
  rw [if_neg hshut]
  simp only [hstream, hwrite]
  exact ⟨_, rfl⟩

/-- A byte is sent with `MSG_DONTWAIT`, and the socket blocks again. -/
theorem dontwait_transient_sent :
    u32Fd 3 = some 3 ∧ (connected peeker.memory).kernel.fds.get 3 = .ok (.socket 0) ∧ ∃ st',
      (MsgCall.sendmsg 0 0x40 (.takes 1)).run (connected peeker.memory) 3 = some (1, st') ∧
        (st'.read 0).nonblock = ((connected peeker.memory).read 0).nonblock := by
  obtain ⟨st', hrun⟩ := connected_sendmsg peeker_payload
  refine ⟨rfl, connected_open _, st', hrun, ?_⟩
  rw [dontwait_transient_iff rfl (connected_open _) hrun]
  rintro ⟨-, -, -, hshut | hnone⟩
  · rw [connected_read] at hshut
    revert hshut
    decide
  · cases hnone

/-- The send is refused, and the socket does not block from then on. -/
theorem refused_send_keeps_dontwait : ∃ st',
    (MsgCall.sendmsg 0 0x40 .fails).run (unconnected peeker.memory) 3 = some (-ENOTCONN, st') ∧
      ((unconnected peeker.memory).read 0).nonblock = false ∧ (st'.read 0).nonblock = true := by
  refine ⟨_, unconnected_sendmsg peeker_payload 0x40, ?_, ?_⟩
  · rw [unconnected_read]
    rfl
  · rw [flip_read]
    rfl

end EdgeLibos.Sys.DontWait
