import EdgeLibos.Sys.Messages

/-!
# The buffers of a message

`recvmsg` takes its bytes before it looks at where they go, and a buffer that is not in
memory is passed over. Bytes are lost where a part of a buffer that they would fill is not
in memory.
-/

namespace EdgeLibos.Sys.Scatter

open Errno Lib Messages
open FdSets (Fits)
open Names (shutRd)

/-- How many bytes a call gets that has this room. -/
def available (c : Conn) (cap : Nat) (host : HostRead) : Nat :=
  if c.peekBuf.isEmpty then
    if c.shutRd then 0
    else
      match c.streams .stream, host with
      | some _, .gives n => min n cap
      | _, _ => 0
  else min c.peekBuf.length cap

def Took (c c' : Conn) (data : List UInt8) : Prop :=
  c.peekBuf = data ++ c'.peekBuf ∧ c'.streams = c.streams ∨
    ∃ s s', c.peekBuf = [] ∧ c.streams .stream = some s ∧ s.rest = data ++ s'.rest ∧
      c'.streams = Function.update c.streams .stream (some s')

/-- No byte is lost: what was taken is written to the buffers in order, and where a part
of a buffer that would be filled is not in memory the call fails and takes nothing. -/
structure KeepsBytes (c : Conn) (msghdr : Int) (spans : List (Int × Int)) (host : HostRead) (o : Received)
    (c' : Conn) : Prop where
  stored : 0 ≤ o.value → ∃ data m, (data.length : Int) = o.value ∧ Took c c' data ∧
    scatter c.memory spans data = .ok m ∧ (c'.memory = m ∨ c'.memory = writeBackMsghdr m msghdr)
  refused : ¬ PiecesFit c.memory spans (available c (capacity spans) host) →
    o.value = -EFAULT ∧ c'.peekBuf = c.peekBuf ∧ c'.streams = c.streams

/-- Where the bytes of the buffers are, in order. -/
def places (spans : List (Int × Int)) : List Nat :=
  spans.flatMap fun (base, len) => (List.range len.toNat).map (base.toNat + ·)

-- ---------------------------------------------------------------------------
-- Writing to the buffers
-- ---------------------------------------------------------------------------

variable {memory memory' m : Option MemoryKind} {spans : List (Int × Int)} {data : List UInt8}

theorem places_cons (base len : Int) (rest : List (Int × Int)) :
    places ((base, len) :: rest) = (List.range len.toNat).map (base.toNat + ·) ++ places rest := rfl

theorem places_take (base len : Int) (rest : List (Int × Int)) (n : Nat) :
    (places ((base, len) :: rest)).take n =
      (List.range (min n len.toNat)).map (base.toNat + ·) ++ (places rest).take (n - len.toNat) := by
  rw [places_cons, List.take_append, ← List.map_take, List.take_range, List.length_map, List.length_range]

/-- The first buffer gets its part of the bytes, and nothing else changes before the next. -/
theorem scatter_cons_ok (hlen : 0 ≤ len) (h : scatter memory ((base, len) :: rest) data = .ok m) :
    ∃ m₁, scatter m₁ rest (data.drop len.toNat) = .ok m ∧
      Keeps memory m₁ (fun i => i ∈ (List.range (min data.length len.toNat)).map (base.toNat + ·)) ∧
      ∀ j < min data.length len.toNat, byteAt m₁ (base.toNat + j) = data[j]? := by
  by_cases hskip : (data.isEmpty || decide (len = 0)) = true
  · have hzero := (skip_iff len hlen).mp hskip
    rw [scatter_cons_skip hskip] at h
    have hsame : data.drop len.toNat = data := by
      rw [Bool.or_eq_true, List.isEmpty_iff, decide_eq_true_eq] at hskip
      rcases hskip with rfl | rfl
      · simp
      · simp
    refine ⟨memory, by rwa [hsame], .refl _ _, fun j hj => ?_⟩
    omega
  · rw [scatter, if_neg hskip] at h
    split at h
    · cases h
    · rename_i m₁ hcopy
      obtain ⟨hfits, -, -⟩ := FdSets.guestCopy_fitted hcopy
      obtain ⟨mem, -, hbase, -⟩ := FdSets.fits_iff.mp hfits
      have hlength : (data.take len.toNat).length = min data.length len.toNat := by
        rw [List.length_take, Nat.min_comm]
      refine ⟨m₁, h, guestCopy_keeps hcopy fun i hi => ?_, fun j hj => ?_⟩
      · obtain ⟨hlow, hhigh⟩ := hi
        rw [List.mem_map]
        exact ⟨i - base.toNat, List.mem_range.mpr (by omega), by omega⟩
      · have hspan : Span base (data.take len.toNat).length (base.toNat + j) := ⟨by omega, by omega⟩
        rw [guestCopy_byteAt hcopy, if_pos hspan, Nat.add_sub_cancel_left]
        exact List.getElem?_take_of_lt (by omega)

theorem scatter_keeps (h : scatter memory spans data = .ok m) (hnonneg : ∀ span ∈ spans, 0 ≤ span.2) :
    Keeps memory m fun i => i ∈ (places spans).take data.length := by
  induction spans generalizing memory data with
  | nil =>
    cases h
    exact .refl _ _
  | cons span rest ih =>
    obtain ⟨base, len⟩ := span
    obtain ⟨m₁, hrest, hkeeps, -⟩ := scatter_cons_ok (hnonneg _ List.mem_cons_self) h
    intro i hi
    simp only [places_take, List.mem_append, not_or] at hi
    rw [← List.length_drop] at hi
    rw [ih hrest (fun s hs => hnonneg s (List.mem_cons_of_mem _ hs)) i hi.2]
    exact hkeeps i hi.1

theorem scatter_reads_back (h : scatter memory spans data = .ok m) (hnonneg : ∀ span ∈ spans, 0 ≤ span.2)
    (hcap : data.length ≤ capacity spans) (hapart : ((places spans).take data.length).Nodup) :
    ((places spans).take data.length).map (byteAt m) = data.map some := by
  induction spans generalizing memory data with
  | nil =>
    obtain rfl : data = [] := List.eq_nil_of_length_eq_zero (Nat.le_zero.mp hcap)
    rfl
  | cons span rest ih =>
    obtain ⟨base, len⟩ := span
    have hrest : ∀ span ∈ rest, 0 ≤ span.2 := fun s hs => hnonneg s (List.mem_cons_of_mem _ hs)
    obtain ⟨m₁, hm, -, hpiece⟩ := scatter_cons_ok (hnonneg _ List.mem_cons_self) h
    rw [capacity_cons] at hcap
    have hleft : (data.drop len.toNat).length ≤ capacity rest := by
      rw [List.length_drop]
      omega
    rw [places_take, List.nodup_append] at hapart
    rw [places_take, List.map_append, ← List.length_drop]
    rw [← List.length_drop] at hapart
    rw [ih hm hrest hleft hapart.2.1]
    have hfirst : ((List.range (min data.length len.toNat)).map (base.toNat + ·)).map (byteAt m) =
        (data.take len.toNat).map some := by
      apply List.ext_getElem?
      intro j
      by_cases hj : j < min data.length len.toNat
      · have hplace : base.toNat + j ∉ (places rest).take (data.drop len.toNat).length := by
          intro hmem
          refine hapart.2.2 (base.toNat + j) ?_ _ hmem rfl
          exact List.mem_map.mpr ⟨j, List.mem_range.mpr hj, rfl⟩
        have hbyte := hpiece j hj
        rw [← scatter_keeps hm hrest _ hplace] at hbyte
        have hget : data[j]? = some data[j] := List.getElem?_eq_getElem (by omega)
        simp [hj, hbyte, show j < len.toNat by omega, hget]
      · simp [hj, List.getElem?_take]
        omega
    rw [hfirst, ← List.map_append, List.take_append_drop]

-- ---------------------------------------------------------------------------
-- A call
-- ---------------------------------------------------------------------------

variable {c c' : Conn} {host : HostRead} {o : Received} {msghdr flags : Int}

theorem available_zero (c : Conn) (host : HostRead) : available c 0 host = 0 := by
  unfold available
  split
  · split
    · rfl
    · split
      · exact Nat.min_zero _
      · rfl
  · exact Nat.min_zero _

/-- A call with room takes what is available or leaves everything as it was. -/
theorem step_took (h : RecvmsgStep c msghdr flags spans host (o, c')) :
    (available c (capacity spans) host = 0 ∧ o.value ≤ 0 ∧ c' = c) ∨
      ∃ data, data.length = available c (capacity spans) host ∧ data.length ≤ capacity spans ∧ Took c c' data ∧
        o.value = data.length ∧ c'.memory = writeBackMsghdr (copyBytesToSpans c.memory spans data).2 msghdr := by
  cases h with
  | queued hne =>
    right
    refine ⟨c.peekBuf.take (capacity spans), ?_, List.length_take_le .., .inl ⟨?_, rfl⟩, rfl, rfl⟩
    · simp [available, hne, Nat.min_comm]
    · exact (List.take_append_drop ..).symm
  | shut hnil hshut =>
    left
    exact ⟨by simp [available, hnil, hshut], le_refl _, rfl⟩
  | notConnected hnil hshut hnone =>
    left
    exact ⟨by simp [available, hnil, hshut, hnone], by decide, rfl⟩
  | @failed s s' hnil hshut hs hread =>
    left
    cases host with
    | fails => exact ⟨by simp [available, hnil, hshut, hs], by decide, rfl⟩
    | gives n =>
      simp only [HostStream.read] at hread
      split at hread <;> cases hread
  | @received s data s' hnil hshut hs hread =>
    right
    obtain ⟨rfl, hcap, hrest, -⟩ := read_some hread
    refine ⟨data, ?_, hcap, .inr ⟨s, s', hnil, hs, hrest, rfl⟩, rfl, rfl⟩
    simp [available, hnil, hshut, hs, hcap]

theorem keepsBytes_iff (h : RecvmsgStep c msghdr flags spans host (o, c')) (hnonneg : ∀ span ∈ spans, 0 ≤ span.2) :
    KeepsBytes c msghdr spans host o c' ↔ PiecesFit c.memory spans (available c (capacity spans) host) := by
  rcases step_took h with ⟨hnone, hvalue, rfl⟩ | ⟨data, hlength, hcap, htook, hvalue, hmemory⟩
  · rw [hnone]
    refine iff_of_true ⟨fun hv => ?_, fun hout => ?_⟩ (piecesFit_zero spans)
    · exact ⟨[], c'.memory, (le_antisymm hvalue hv).symm, .inl ⟨rfl, rfl⟩, scatter_nil spans, .inl rfl⟩
    · rw [hnone] at hout
      exact absurd (piecesFit_zero spans) hout
  · constructor
    · intro hkeeps
      by_contra hout
      have hfault := (hkeeps.refused hout).1
      rw [hvalue] at hfault
      have hneg : -EFAULT < 0 := by decide
      omega
    · intro hfit
      refine ⟨fun _ => ?_, fun hout => absurd hfit hout⟩
      rw [← hlength] at hfit
      obtain ⟨m, hm, hcopy⟩ := scatter_of_fit hfit hnonneg
      refine ⟨data, m, hvalue.symm, htook, hm, .inr ?_⟩
      rw [hmemory, hcopy]

theorem writeBackMsghdr_keeps (memory : Option MemoryKind) (msghdr : Int) :
    Keeps memory (writeBackMsghdr memory msghdr) (Span (msghdr + MSG_CONTROLLEN_OFF) 4) :=
  guestCopy_getD_keeps fun _ h => h

/-- Kept bytes can be read from buffers that share no byte with one another and none with
the header's field that the call writes. -/
theorem KeepsBytes.reads_back (h : KeepsBytes c msghdr spans host o c') (hvalue : 0 ≤ o.value)
    (hnonneg : ∀ span ∈ spans, 0 ≤ span.2) (hcap : o.value ≤ capacity spans)
    (hapart : ((places spans).take o.value.toNat).Nodup)
    (hfield : ∀ i ∈ (places spans).take o.value.toNat, ¬ Span (msghdr + MSG_CONTROLLEN_OFF) 4 i) :
    ∃ data, Took c c' data ∧ ((places spans).take o.value.toNat).map (byteAt c'.memory) = data.map some := by
  obtain ⟨data, m, hlength, htook, hm, hmemory⟩ := h.stored hvalue
  have hn : o.value.toNat = data.length := by omega
  rw [hn] at hapart hfield ⊢
  refine ⟨data, htook, ?_⟩
  rw [← scatter_reads_back hm hnonneg (by omega) hapart]
  apply List.map_congr_left
  intro i hi
  rcases hmemory with hmemory | hmemory
  · rw [hmemory]
  · rw [hmemory, writeBackMsghdr_keeps m msghdr i (hfield i hi)]

variable {st st' : MsgState} {ref : Nat} {fd : Int} {fd' : UInt32}

/-- A `recvmsg` keeps every byte exactly when the buffers are in memory as far as the bytes
reach that it gets. -/
theorem recvmsg_keeps_bytes_iff (hfd : u32Fd fd = some fd') (hget : st.kernel.fds.get fd' = .ok (.socket ref))
    (hspans : msgSpans st.kernel.memory msghdr = .ok spans)
    (h : recvmsg st fd msghdr flags host = some (o, st')) :
    KeepsBytes (st.conn ref) msghdr spans host o (st'.conn ref) ↔
      PiecesFit st.kernel.memory spans (available (st.conn ref) (capacity spans) host) := by
  simp only [recvmsg, hfd, hget, hspans] at h
  split at h
  · rename_i hcap
    cases h
    have hnone : available (st.conn ref) (capacity spans) host = 0 := by
      rw [hcap]
      exact available_zero _ _
    refine iff_of_true ⟨fun _ => ?_, fun hout => ?_⟩ (by rw [hnone]; exact piecesFit_zero spans)
    · exact ⟨[], st.kernel.memory, rfl, .inl ⟨rfl, rfl⟩, scatter_nil spans, .inl rfl⟩
    · rw [hnone] at hout
      exact absurd (piecesFit_zero spans) hout
  · exact keepsBytes_iff (recvSpans_step h) (msgSpans_nonneg hspans)

-- ---------------------------------------------------------------------------
-- A byte for a buffer behind the memory
-- ---------------------------------------------------------------------------

def oneSpanMsg (base : UInt32) : List UInt8 :=
  List.replicate 8 0 ++ le32 32 ++ le32 1 ++ List.replicate 16 0 ++ le32 base ++ le32 1

theorem oneSpanMsg_length (base : UInt32) : (oneSpanMsg base).length = 40 := by
  simp [oneSpanMsg]

theorem oneSpanMsg_fits (base : UInt32) : 0 + (oneSpanMsg base).length ≤ LinearMemory.zeroPage.size := by
  rw [LinearMemory.zeroPage_size, oneSpanMsg_length]
  decide

def msgMemory (base : UInt32) : Option MemoryKind :=
  some (.owned (LinearMemory.zeroPage.write 0 (oneSpanMsg base) (oneSpanMsg_fits base)))

theorem oneSpan_iovecs (base : UInt32) : iovecsOf (le32 base ++ le32 1) = [((base.toNat : Int), 1)] := by
  have hread : iovecsOf (le32 base ++ le32 1) = [((leValue (le32 base) : Int), (leValue (le32 1) : Int))] := rfl
  rw [hread, FdSets.leValue_le32, FdSets.leValue_le32]
  rfl

theorem oneSpanMsg_spans {mem : LinearMemory}
    (h : mem.load 0 (oneSpanMsg base).length = some (oneSpanMsg base)) :
    msgSpans (some (.owned mem)) 0 = .ok [((base.toNat : Int), 1)] := by
  have hheader : guestSlice (some (.owned mem)) 0 MSGHDR_SIZE = .ok ((oneSpanMsg base).take 32) :=
    guestSlice_of_load (k := 32) h (by rw [oneSpanMsg_length]; decide)
  have hiov : guestSlice (some (.owned mem)) 32 8 = .ok (le32 base ++ le32 1) :=
    guestSlice_of_load (k := 8) (LinearMemory.load_sub (i := 32) (k := 8) h
      (by rw [oneSpanMsg_length])) (le_refl _)
  have hlen : u32At ((oneSpanMsg base).take 32) MSG_IOVLEN_OFF = 1 := rfl
  have hptr : u32At ((oneSpanMsg base).take 32) MSG_IOV_OFF = 32 := rfl
  unfold msgSpans
  rw [hheader]
  simp only [hlen, hptr]
  rw [if_neg (by decide), show (1 : Int) * 8 = 8 from rfl, hiov]
  exact congrArg Except.ok (oneSpan_iovecs base)

theorem msgMemory_spans (base : UInt32) : msgSpans (msgMemory base) 0 = .ok [((base.toNat : Int), 1)] :=
  oneSpanMsg_spans (LinearMemory.load_write (oneSpanMsg_fits base))

theorem msgMemory_sized (base : UInt32) : Sized 65536 (msgMemory base) :=
  ⟨_, rfl, by rw [LinearMemory.write_size, LinearMemory.zeroPage_size]⟩

theorem msgMemory_fits (base : UInt32) : Fits (msgMemory base) base.toNat 1 ↔ base.toNat + 1 ≤ 65536 := by
  obtain ⟨mem, hmem, hsize⟩ := msgMemory_sized base
  rw [hmem, FdSets.fits_iff]
  constructor
  · rintro ⟨mem', hmem', -, -, hle⟩
    cases hmem'
    rw [hsize] at hle
    exact hle
  · intro hle
    refine ⟨mem, rfl, Int.natCast_nonneg _, by decide, ?_⟩
    rw [hsize]
    exact hle

def connected (memory : Option MemoryKind) : MsgState where
  kernel := { Names.unnamed with memory }
  streams slot ref := if slot = .stream ∧ ref = 0 then some { rest := [7, 8], sent := [] } else none

theorem connected_open (memory : Option MemoryKind) :
    (connected memory).kernel.fds.get 3 = .ok (.socket 0) := rfl

theorem connected_memory (memory : Option MemoryKind) : (connected memory).kernel.memory = memory := rfl

theorem connected_read (memory : Option MemoryKind) : (connected memory).read 0 = .new .stream false := rfl

theorem connected_recvmsg (h : msgSpans memory 0 = .ok [(base, 1)]) :
    ∃ o st', recvmsg (connected memory) 3 0 0 (.gives 1) = some (o, st') ∧ o.value = 1 ∧
      o.bytes = (copyBytesToSpans memory [(base, 1)] [7]).1 ∧
        st'.streams .stream 0 = some { rest := [8], sent := [] } := by
  have hnumber : u32Fd 3 = some 3 := rfl
  have hcap : ¬ capacity [(base, 1)] = 0 := Nat.one_ne_zero
  have hflip : flipNonblock (connected memory) 0 0 = (none, connected memory) := rfl
  have hpeek : asksPeek 0 = false := rfl
  have hqueue : ((connected memory).read 0).peekBuf = [] := by
    rw [connected_read]
    rfl
  have hopen : shutRd ((connected memory).read 0) = false := by
    rw [connected_read]
    rfl
  have hstream : (connected memory).streams .stream 0 = some { rest := [7, 8], sent := [] } := rfl
  have hread : HostStream.read { rest := [7, 8], sent := [] } (capacity [(base, 1)]) (.gives 1) =
      some (some [7], { rest := [8], sent := [] }) := rfl
  have hrun : recvmsg (connected memory) 3 0 0 (.gives 1) =
      some (((connected memory).setStream .stream 0 (some { rest := [8], sent := [] })).deliver false 0
        [(base, 1)] [7]) := by
    simp only [recvmsg, hnumber, connected_open, connected_memory, h]
    rw [if_neg hcap]
    simp only [recvSpans, hflip, hqueue, hopen, hstream, hread, hpeek]
    rfl
  exact ⟨_, _, hrun, rfl, rfl, rfl⟩

theorem connected_available (memory : Option MemoryKind) (base : Int) :
    available ((connected memory).conn 0) (capacity [(base, 1)]) (.gives 1) = 1 := by
  have hqueue : ((connected memory).conn 0).peekBuf = [] := by
    rw [MsgState.conn, connected_read]
    rfl
  have hopen : ((connected memory).conn 0).shutRd = false := by
    rw [MsgState.conn, connected_read]
    rfl
  have hstream : ((connected memory).conn 0).streams .stream = some { rest := [7, 8], sent := [] } := rfl
  simp [available, hqueue, hopen, hstream, capacity]

theorem onePiece_iff (base : UInt32) :
    PiecesFit (msgMemory base) [((base.toNat : Int), 1)] 1 ↔ base.toNat + 1 ≤ 65536 := by
  rw [← msgMemory_fits]
  simp [PiecesFit]

theorem copy_outside (h : ¬ Fits memory base 1) : (copyBytesToSpans memory [(base, 1)] [b]).1 = [] := by
  cases hcopy : guestCopy memory base (1 : Nat) [b] with
  | ok m => exact absurd (FdSets.guestCopy_fitted hcopy).1 h
  | error e =>
    have hskip : ¬ ([b].isEmpty || decide ((1 : Int) = 0)) = true := by simp
    rw [copyBytesToSpans, if_neg hskip]
    simp only [Int.toNat_one, List.take_succ_cons, List.take_zero, List.length_singleton, hcopy]
    rfl

/-- The byte arrives in its buffer at 48. -/
theorem recvmsg_keeps_bytes_48 : u32Fd 3 = some 3 ∧
    (connected (msgMemory 48)).kernel.fds.get 3 = .ok (.socket 0) ∧
      msgSpans (connected (msgMemory 48)).kernel.memory 0 = .ok [(48, 1)] ∧ ∃ o st',
        recvmsg (connected (msgMemory 48)) 3 0 0 (.gives 1) = some (o, st') ∧
          KeepsBytes ((connected (msgMemory 48)).conn 0) 0 [(48, 1)] (.gives 1) o (st'.conn 0) := by
  have hspans : msgSpans (connected (msgMemory 48)).kernel.memory 0 = .ok [(48, 1)] := msgMemory_spans 48
  obtain ⟨o, st', hrun, -⟩ := connected_recvmsg hspans
  refine ⟨rfl, connected_open _, hspans, o, st', hrun, ?_⟩
  rw [recvmsg_keeps_bytes_iff rfl (connected_open _) hspans hrun, connected_available]
  exact (onePiece_iff 48).mpr (by decide)

/-- The byte for a buffer behind the memory is taken and stored nowhere. -/
theorem recvmsg_swallows_byte : msgSpans (msgMemory 65536) 0 = .ok [(65536, 1)] ∧
    ∃ o st', recvmsg (connected (msgMemory 65536)) 3 0 0 (.gives 1) = some (o, st') ∧ o.value = 1 ∧
      o.bytes = [] ∧ st'.streams .stream 0 = some { rest := [8], sent := [] } ∧
        ¬ KeepsBytes ((connected (msgMemory 65536)).conn 0) 0 [(65536, 1)] (.gives 1) o (st'.conn 0) := by
  have hspans : msgSpans (msgMemory 65536) 0 = .ok [(65536, 1)] := msgMemory_spans 65536
  obtain ⟨o, st', hrun, hvalue, hbytes, hstream⟩ := connected_recvmsg hspans
  have hiff : Fits (msgMemory 65536) 65536 1 ↔ _ := msgMemory_fits 65536
  refine ⟨hspans, o, st', hrun, hvalue, ?_, hstream, fun hkeeps => ?_⟩
  · rw [hbytes, copy_outside (hiff.not.mpr (by decide))]
  · have hout : ¬ PiecesFit (msgMemory 65536) [(65536, 1)] 1 := (onePiece_iff 65536).not.mpr (by decide)
    have hfault := (hkeeps.refused (by rw [connected_available]; exact hout)).1
    rw [hvalue] at hfault
    cases hfault

end EdgeLibos.Sys.Scatter
