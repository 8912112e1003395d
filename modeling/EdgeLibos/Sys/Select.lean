import EdgeLibos.Lib.Bitmaps
import EdgeLibos.Sys.Poll
import EdgeLibos.Sys.Stdio

/-!
# select

`select` turns its two bitmaps into a pollfd array, which it writes to the guest's memory
at 8192, calls `poll` on it and turns the answer back into bitmaps. A call that parks
holds the kernel until it returns: meanwhile only what it shares with the host changes,
the pipes and the sockets. When it is woken is left open.
-/

namespace EdgeLibos.Sys

open Errno Lib

def FD_SET_LONGS : Nat := 16

/-- Where the pollfd array is written. -/
def TMP_BASE : Int := 8192

def POLLFD_SIZE : Nat := 8

def maskAt (memory : Option MemoryKind) (set : Int) : Option (List UInt8) :=
  if set ≠ 0 then (guestSlice memory set (FD_SET_LONGS * 8)).toOption else none

def isSet (mask : Option (List UInt8)) (fd : Nat) : Bool :=
  match mask with
  | some b => wordBit (ofLe64 ((b.drop (fd / 64 * 8)).take 8)) (fd % 64)
  | none => false

def scanFds (memory : Option MemoryKind) (nfds : Nat) (readfds writefds : Int) : List (Nat × Bool × Bool) :=
  let readMask := maskAt memory readfds
  let writeMask := maskAt memory writefds
  (List.range nfds).filterMap fun fd =>
    if FD_SET_LONGS ≤ fd / 64 then none
    else
      let inRead := isSet readMask fd
      let inWrite := isSet writeMask fd
      if inRead || inWrite then some (fd, inRead, inWrite) else none

def eventsOf (inRead inWrite : Bool) : UInt16 :=
  (if inRead then POLLIN else 0) ||| (if inWrite then POLLOUT else 0)

def pollEntries (fds : List (Nat × Bool × Bool)) : List (Int × UInt16) :=
  fds.map fun (fd, inRead, inWrite) => ((fd : Int), eventsOf inRead inWrite)

def pollfdBytes (entry : Int × UInt16) : List UInt8 :=
  le32 (UInt32.ofNat entry.1.toNat) ++ le16 entry.2 ++ le16 0

/-- A `struct timeval` in milliseconds; the sum wraps. -/
def timevalMs (bytes : List UInt8) : Option Int :=
  let sec := (BitVec.ofNat 64 (leValue (bytes.take 8))).toInt
  let usec := (BitVec.ofNat 64 (leValue ((bytes.drop 8).take 8))).toInt
  if sec < 0 ∨ usec < 0 then none else some (Int.bmod (sec * 1000 + usec / 1000) (2 ^ 64))

def timeoutMs (memory : Option MemoryKind) (timeoutPtr : Int) : Except Int Int :=
  if timeoutPtr = 0 then .ok (-1)
  else
    match guestSlice memory timeoutPtr 16 with
    | .error e => .error e
    | .ok t =>
      match timevalMs t with
      | none => .error (-EINVAL)
      | some ms => .ok ms

def clearFdSet (memory : Option MemoryKind) (set : Int) : Option MemoryKind :=
  (guestCopy memory set (FD_SET_LONGS * 8) (List.replicate (FD_SET_LONGS * 8) 0)).toOption.getD memory

def setFdBit (memory : Option MemoryKind) (set : Int) (fd : Nat) : Option MemoryKind :=
  let word := fd / 64
  if FD_SET_LONGS ≤ word then memory
  else
    let ptr := set + (word * 8 : Nat)
    match guestSlice memory ptr 8 with
    | .error _ => memory
    | .ok bytes => (guestCopy memory ptr 8 (le64 (setWordBit (ofLe64 bytes) (fd % 64)))).toOption.getD memory

def reventsOf : List UInt8 → List UInt16
  | _ :: _ :: _ :: _ :: _ :: _ :: r₀ :: r₁ :: rest => UInt16.ofNat (leValue [r₀, r₁]) :: reventsOf rest
  | _ => []

section
variable (readfds writefds : Int)

/-- One descriptor's answer goes to the bitmaps it was in. -/
def setReady (memory : Option MemoryKind) (answer : (Int × UInt16) × UInt16) : Option MemoryKind :=
  let ((fd, ev), revents) := answer
  if revents = 0 then memory
  else
    let memory := if revents &&& POLLIN ≠ 0 ∧ ev &&& POLLIN ≠ 0 ∧ readfds ≠ 0 then
        setFdBit memory readfds fd.toNat
      else memory
    if revents &&& POLLOUT ≠ 0 ∧ ev &&& POLLOUT ≠ 0 ∧ writefds ≠ 0 then setFdBit memory writefds fd.toNat
    else memory

/-- What follows the return of `poll`. -/
def selectEnd (entries : List (Int × UInt16)) (r : Int) (memory : Option MemoryKind) :
    Int × Option MemoryKind :=
  if r < 0 then (r, memory)
  else
    match guestSlice memory TMP_BASE (entries.length * POLLFD_SIZE) with
    | .error e => (e, memory)
    | .ok bytes =>
      let memory' := if readfds ≠ 0 then clearFdSet memory readfds else memory
      let memory'' := if writefds ≠ 0 then clearFdSet memory' writefds else memory'
      (r, (entries.zip (reventsOf bytes)).foldl (setReady readfds writefds) memory'')

end

/-- A parked call: its own entries, and those that `poll` read from memory. -/
structure Selecting where
  readfds : Int
  writefds : Int
  entries : List (Int × UInt16)
  polled : List (Int × UInt16)
  memory : Option MemoryKind

inductive Selected
  | returns (value : Int) (memory : Option MemoryKind)
  | parks (q : Selecting)

/-- The end of a call: nothing is left to wait for. -/
def Polled.select (readfds writefds : Int) (entries polled : List (Int × UInt16))
    (memory : Option MemoryKind) : Polled → Selected
  | .returns r memory =>
    let (value, memory) := selectEnd readfds writefds entries r memory
    .returns value memory
  | .parks .. => .parks { readfds, writefds, entries, polled, memory }

section
variable (k : Kernel) (sides : Nat → SocketSide)

def select (nfds readfds writefds timeoutPtr : Int) : Selected :=
  if nfds < 0 ∨ 2 ^ 31 ≤ nfds then .returns (-EINVAL) k.memory
  else if nfds = 0 then .returns 0 k.memory
  else
    let entries := pollEntries (scanFds k.memory nfds.toNat readfds writefds)
    if entries.isEmpty then .returns 0 k.memory
    else
      let totalBytes : Int := entries.length * POLLFD_SIZE
      match guestCopy k.memory TMP_BASE totalBytes (entries.flatMap pollfdBytes) with
      | .error e => .returns e k.memory
      | .ok memory =>
        match timeoutMs memory timeoutPtr with
        | .error e => .returns e memory
        | .ok timeoutMs =>
          let polled := pollfdsOf (bytesAt memory TMP_BASE totalBytes)
          (poll { k with memory } sides TMP_BASE entries.length timeoutMs).select readfds writefds entries polled
            memory

/-- The last look of a parked call, in the kernel `k` and with the memory it left. -/
def Selecting.resume (q : Selecting) : Int × Option MemoryKind :=
  let readiness := q.polled.map fun e => pollOne k sides e.1 e.2
  match writeRevents { k with memory := q.memory } TMP_BASE readiness with
  | .returns r memory => selectEnd q.readfds q.writefds q.entries r memory
  | .parks .. => (0, q.memory)

/-- A call that returned, and the pipes and sockets at its last look. -/
inductive Completes (nfds readfds writefds timeoutPtr : Int) :
    Cells → (Nat → SocketSide) → Int → Option MemoryKind → Prop
  | now (h : select k sides nfds readfds writefds timeoutPtr = .returns value memory) :
      Completes nfds readfds writefds timeoutPtr k.cells sides value memory
  | later (q : Selecting) (h : select k sides nfds readfds writefds timeoutPtr = .parks q) (cells : Cells)
      (sides' : Nat → SocketSide) :
      Completes nfds readfds writefds timeoutPtr cells sides' (q.resume { k with cells } sides').1
        (q.resume { k with cells } sides').2

end

-- ---------------------------------------------------------------------------
-- What a call can write to
-- ---------------------------------------------------------------------------

def byteAt (memory : Option MemoryKind) (i : Nat) : Option UInt8 := memory.bind fun m => m.mem.data[i]?

/-- No byte changes except those that are `touched`. -/
def Keeps (memory memory' : Option MemoryKind) (touched : Nat → Prop) : Prop :=
  ∀ i, ¬ touched i → byteAt memory' i = byteAt memory i

def Span (ptr : Int) (len i : Nat) : Prop := ptr ≤ i ∧ (i : Int) < ptr + len

instance (ptr : Int) (len i : Nat) : Decidable (Span ptr len i) := inferInstanceAs (Decidable (_ ∧ _))

/-- The supplied bitmaps and the pollfd array. -/
def Touched (memory : Option MemoryKind) (nfds readfds writefds : Int) (i : Nat) : Prop :=
  readfds ≠ 0 ∧ Span readfds 128 i ∨ writefds ≠ 0 ∧ Span writefds 128 i ∨
    Span TMP_BASE (8 * (scanFds memory nfds.toNat readfds writefds).length) i

theorem Keeps.refl (memory : Option MemoryKind) (touched : Nat → Prop) : Keeps memory memory touched :=
  fun _ _ => rfl

theorem Keeps.trans (h : Keeps memory memory' touched) (h' : Keeps memory' memory'' touched) :
    Keeps memory memory'' touched := fun i hi => (h' i hi).trans (h i hi)

theorem guestCopy_byteAt (h : guestCopy memory ptr len new = .ok memory') (i : Nat) :
    byteAt memory' i = if Span ptr new.length i then new[i - ptr.toNat]? else byteAt memory i := by
  unfold guestCopy at h
  split at h
  · cases h
  · rename_i hsign
    split at h
    · cases h
    · rename_i mem hmem
      split at h
      · rename_i hfits
        cases h
        have hsplice : ptr.toNat + new.length ≤ mem.data.length := by
          have hsize : mem.size = mem.data.length := rfl
          omega
        have hspan : Span ptr new.length i ↔ ptr.toNat ≤ i ∧ i < ptr.toNat + new.length := by
          unfold Span
          omega
        rw [ownedOf_ok hmem]
        refine (LinearMemory.splice_getElem? hsplice i).trans ?_
        exact if_congr hspan.symm rfl rfl
      · cases h

theorem guestCopy_keeps (h : guestCopy memory ptr len new = .ok memory')
    (hspan : ∀ i, Span ptr new.length i → touched i) : Keeps memory memory' touched := by
  intro i hi
  rw [guestCopy_byteAt h, if_neg fun hin => hi (hspan i hin)]

theorem guestCopy_getD_keeps (hspan : ∀ i, Span ptr new.length i → touched i) :
    Keeps memory ((guestCopy memory ptr len new).toOption.getD memory) touched := by
  cases h : guestCopy memory ptr len new with
  | error e => exact .refl memory touched
  | ok memory' => exact guestCopy_keeps h hspan

theorem clearFdSet_keeps (set : Int) (hspan : ∀ i, Span set 128 i → touched i) :
    Keeps memory (clearFdSet memory set) touched := by
  refine guestCopy_getD_keeps fun i hi => hspan i ?_
  rwa [List.length_replicate] at hi

theorem setFdBit_keeps (set : Int) (fd : Nat) (hspan : ∀ i, Span set 128 i → touched i) :
    Keeps memory (setFdBit memory set fd) touched := by
  unfold setFdBit
  dsimp only
  split
  · exact .refl memory touched
  · rename_i hword
    split
    · exact .refl memory touched
    · refine guestCopy_getD_keeps fun i hi => hspan i ?_
      rw [le64_length] at hi
      unfold Span FD_SET_LONGS at *
      omega

theorem setReady_keeps (hread : readfds ≠ 0 → ∀ i, Span readfds 128 i → touched i)
    (hwrite : writefds ≠ 0 → ∀ i, Span writefds 128 i → touched i) (answer : (Int × UInt16) × UInt16) :
    Keeps memory (setReady readfds writefds memory answer) touched := by
  obtain ⟨⟨fd, ev⟩, revents⟩ := answer
  unfold setReady
  dsimp only
  split
  · exact .refl memory touched
  · have hfirst : Keeps memory (if revents &&& POLLIN ≠ 0 ∧ ev &&& POLLIN ≠ 0 ∧ readfds ≠ 0 then
        setFdBit memory readfds fd.toNat else memory) touched := by
      split
      · rename_i hr
        exact setFdBit_keeps _ _ (hread hr.2.2)
      · exact .refl memory touched
    split
    · rename_i hw
      exact hfirst.trans (setFdBit_keeps _ _ (hwrite hw.2.2))
    · exact hfirst

theorem foldl_setReady_keeps (hread : readfds ≠ 0 → ∀ i, Span readfds 128 i → touched i)
    (hwrite : writefds ≠ 0 → ∀ i, Span writefds 128 i → touched i)
    (answers : List ((Int × UInt16) × UInt16)) :
    Keeps memory (answers.foldl (setReady readfds writefds) memory) touched := by
  induction answers generalizing memory with
  | nil => exact .refl memory touched
  | cons answer answers ih => exact (setReady_keeps hread hwrite answer).trans ih

theorem selectEnd_keeps (hread : readfds ≠ 0 → ∀ i, Span readfds 128 i → touched i)
    (hwrite : writefds ≠ 0 → ∀ i, Span writefds 128 i → touched i) (entries : List (Int × UInt16)) (r : Int) :
    Keeps memory (selectEnd readfds writefds entries r memory).2 touched := by
  unfold selectEnd
  split
  · exact .refl memory touched
  · split
    · exact .refl memory touched
    · refine Keeps.trans ?_ (foldl_setReady_keeps hread hwrite _)
      have hclear : Keeps memory (if readfds ≠ 0 then clearFdSet memory readfds else memory) touched := by
        split
        · rename_i hr
          exact clearFdSet_keeps _ (hread hr)
        · exact .refl memory touched
      split
      · rename_i hw
        exact hclear.trans (clearFdSet_keeps _ (hwrite hw))
      · exact hclear

theorem setRevents_length (bytes : List UInt8) (readiness : List UInt16) :
    (setRevents bytes readiness).length = bytes.length := by
  fun_induction setRevents bytes readiness with
  | case1 f₀ f₁ f₂ f₃ e₀ e₁ _ _ rest r readiness ih =>
    rw [List.length_append, List.length_append, le16_length, ih]
    simp only [List.length_cons, List.length_nil]
    omega
  | case2 => rfl

theorem pollfdsOf_length_le (bytes : List UInt8) : 8 * (pollfdsOf bytes).length ≤ bytes.length := by
  fun_induction pollfdsOf bytes with
  | case1 f₀ f₁ f₂ f₃ e₀ e₁ _ _ rest ih =>
    simp only [List.length_cons]
    omega
  | case2 => exact Nat.zero_le _

theorem writeRevents_keeps {k : Kernel} (hspan : ∀ i, Span fdsPtr (8 * readiness.length) i → touched i)
    (h : writeRevents k fdsPtr readiness = .returns r memory) : Keeps k.memory memory touched := by
  unfold writeRevents at h
  dsimp only at h
  split at h
  · cases h
    exact .refl k.memory touched
  · rename_i bytes hs
    have hlen := guestSlice_length hs
    split at h
    · cases h
      exact .refl k.memory touched
    · rename_i memory' hcopy
      cases h
      refine guestCopy_keeps hcopy fun i hi => hspan i ?_
      rw [setRevents_length, hlen] at hi
      unfold Span at *
      omega

theorem bytesAt_length_le (memory : Option MemoryKind) (buf n : Int) :
    (bytesAt memory buf n).length ≤ n.toNat := by
  unfold bytesAt
  cases hs : guestSlice memory buf n with
  | error e => exact Nat.zero_le _
  | ok bytes => exact le_of_eq (guestSlice_length hs)

/-- Every branch of `poll` that returns has written its answers or nothing. -/
theorem poll_keeps {k : Kernel} {nfds : Nat} (hspan : ∀ i, Span fdsPtr (8 * nfds) i → touched i)
    (h : poll k sides fdsPtr nfds ms = .returns r memory) : Keeps k.memory memory touched := by
  unfold poll at h
  split at h
  · cases h
    exact .refl k.memory touched
  · split at h
    · cases h
      exact .refl k.memory touched
    · split at h
      · cases h
        exact .refl k.memory touched
      · rename_i hwide
        split at h
        · cases h
          exact .refl k.memory touched
        · rename_i bytes hs
          have hlen := guestSlice_length hs
          have hcount := pollfdsOf_length_le bytes
          dsimp only at h
          split at h
          · refine writeRevents_keeps (fun i hi => hspan i ?_) h
            rw [List.length_map] at hi
            have hmod : (Int.bmod (nfds * 8) (2 ^ 64)).toNat ≤ 8 * nfds := by
              unfold Int.bmod
              dsimp only
              split <;> omega
            unfold Span at *
            omega
          · cases h

theorem pollEntries_length (fds : List (Nat × Bool × Bool)) : (pollEntries fds).length = fds.length :=
  List.length_map ..

theorem pollfdBytes_length (entry : Int × UInt16) : (pollfdBytes entry).length = 8 := by
  rw [pollfdBytes, List.length_append, List.length_append, le32_length, le16_length, le16_length]

theorem scratch_length (entries : List (Int × UInt16)) :
    (entries.flatMap pollfdBytes).length = 8 * entries.length := by
  induction entries with
  | nil => rfl
  | cons entry entries ih =>
    rw [List.flatMap_cons, List.length_append, pollfdBytes_length, ih, List.length_cons]
    omega

/-- A call that parks has written the pollfd array only, and has a copy of no more. -/
structure Selecting.Framed (q : Selecting) (memory : Option MemoryKind) (nfds readfds writefds : Int) :
    Prop where
  read : q.readfds = readfds
  write : q.writefds = writefds
  polled : q.polled.length ≤ (scanFds memory nfds.toNat readfds writefds).length
  keeps : Keeps memory q.memory (Touched memory nfds readfds writefds)

def Selected.Framed (memory : Option MemoryKind) (nfds readfds writefds : Int) : Selected → Prop
  | .returns _ memory' => Keeps memory memory' (Touched memory nfds readfds writefds)
  | .parks q => q.Framed memory nfds readfds writefds

theorem select_framed (k : Kernel) (sides : Nat → SocketSide) (nfds readfds writefds timeoutPtr : Int) :
    (select k sides nfds readfds writefds timeoutPtr).Framed k.memory nfds readfds writefds := by
  have hsame := Keeps.refl k.memory (Touched k.memory nfds readfds writefds)
  have hread (hr : readfds ≠ 0) : ∀ i, Span readfds 128 i → Touched k.memory nfds readfds writefds i :=
    fun _ hi => .inl ⟨hr, hi⟩
  have hwrite (hw : writefds ≠ 0) : ∀ i, Span writefds 128 i → Touched k.memory nfds readfds writefds i :=
    fun _ hi => .inr (.inl ⟨hw, hi⟩)
  have hscratch : ∀ i, Span TMP_BASE (8 * (scanFds k.memory nfds.toNat readfds writefds).length) i →
      Touched k.memory nfds readfds writefds i := fun _ hi => .inr (.inr hi)
  unfold select
  split
  · exact hsame
  · split
    · exact hsame
    · dsimp only
      split
      · exact hsame
      · split
        · exact hsame
        · rename_i memory hcopy
          have hcopied : Keeps k.memory memory (Touched k.memory nfds readfds writefds) := by
            refine guestCopy_keeps hcopy fun i hi => hscratch i ?_
            rwa [scratch_length, pollEntries_length] at hi
          split
          · exact hcopied
          · rename_i ms _
            cases hpoll : poll { k with memory } sides TMP_BASE
                (pollEntries (scanFds k.memory nfds.toNat readfds writefds)).length ms with
            | returns r memory' =>
              rw [pollEntries_length] at hpoll
              exact hcopied.trans ((poll_keeps hscratch hpoll).trans (selectEnd_keeps hread hwrite _ _))
            | parks _ _ =>
              refine ⟨rfl, rfl, ?_, hcopied⟩
              have hbytes := bytesAt_length_le memory TMP_BASE
                ((pollEntries (scanFds k.memory nfds.toNat readfds writefds)).length * POLLFD_SIZE)
              have hpolled := pollfdsOf_length_le (bytesAt memory TMP_BASE
                ((pollEntries (scanFds k.memory nfds.toNat readfds writefds)).length * POLLFD_SIZE))
              rw [pollEntries_length] at *
              dsimp only [POLLFD_SIZE] at *
              omega

theorem resume_framed (h : Selecting.Framed q memory nfds readfds writefds) (k : Kernel)
    (sides : Nat → SocketSide) :
    Keeps memory (q.resume k sides).2 (Touched memory nfds readfds writefds) := by
  unfold Selecting.resume
  dsimp only
  split
  · rename_i r memory' hwritten
    have hanswered : Keeps q.memory memory' (Touched memory nfds readfds writefds) := by
      refine writeRevents_keeps (k := { k with memory := q.memory }) (fun i hi => .inr (.inr ?_)) hwritten
      have hle := h.polled
      rw [List.length_map] at hi
      unfold Span at *
      omega
    refine h.keeps.trans (hanswered.trans (selectEnd_keeps (fun hr i hi => ?_) (fun hw i hi => ?_) _ _))
    · rw [h.read] at hr hi
      exact .inl ⟨hr, hi⟩
    · rw [h.write] at hw hi
      exact .inr (.inl ⟨hw, hi⟩)
  · exact h.keeps

/-- Whatever a call returns, it writes to its bitmaps and to the pollfd array only, also
before it parks. -/
theorem select_keeps (k : Kernel) (sides : Nat → SocketSide) (nfds readfds writefds timeoutPtr : Int) :
    (∀ cells sides' value memory, Completes k sides nfds readfds writefds timeoutPtr cells sides' value memory →
      Keeps k.memory memory (Touched k.memory nfds readfds writefds)) ∧
    ∀ q, select k sides nfds readfds writefds timeoutPtr = .parks q →
      Keeps k.memory q.memory (Touched k.memory nfds readfds writefds) := by
  have hframed := select_framed k sides nfds readfds writefds timeoutPtr
  refine ⟨fun cells sides' value memory h => ?_, fun q h => ?_⟩
  · cases h with
    | now h =>
      rw [h] at hframed
      exact hframed
    | later q h cells sides' =>
      rw [h] at hframed
      exact resume_framed hframed _ _
  · rw [h] at hframed
    exact hframed.keeps

-- ---------------------------------------------------------------------------
-- A call that asks for one descriptor
-- ---------------------------------------------------------------------------

def firstBit : List UInt8 := 1 :: List.replicate 127 0

theorem firstBit_length : firstBit.length = 128 := by rw [firstBit, List.length_cons, List.length_replicate]

theorem firstBit_fits : 100 + firstBit.length ≤ LinearMemory.zeroPage.size := by
  rw [LinearMemory.zeroPage_size, firstBit_length]
  decide

def markedPage : LinearMemory := LinearMemory.zeroPage.write 100 firstBit firstBit_fits

theorem markedPage_size : markedPage.size = 65536 :=
  (LinearMemory.write_size _ _).trans LinearMemory.zeroPage_size

def markedKernel : Kernel :=
  { Kernel.new [] [] { root := "/", cwd := "/" } (Vector.replicate 32 0) with memory := some (.owned markedPage) }

theorem markedPage_mask : maskAt (some (.owned markedPage)) 100 = some firstBit := by
  have hload : markedPage.load 100 128 = some firstBit := LinearMemory.load_write firstBit_fits
  have hslice : guestSlice (some (.owned markedPage)) 100 (FD_SET_LONGS * 8) = .ok (firstBit.take 128) :=
    guestSlice_of_load hload (le_refl 128)
  rw [maskAt, if_pos (by decide), hslice]
  rfl

theorem markedPage_scan : scanFds (some (.owned markedPage)) 1 100 0 = [(0, true, false)] := by
  have hnull : maskAt (some (.owned markedPage)) 0 = none := rfl
  simp only [scanFds, markedPage_mask, hnull]
  decide

theorem markedPage_scratch :
    ∃ mem, guestCopy (some (.owned markedPage)) TMP_BASE 8 (pollfdBytes (0, POLLIN)) =
      .ok (some (.owned mem)) := by
  have hfits : 8192 + 8 ≤ markedPage.size := by
    rw [markedPage_size]
    decide
  have hslice : guestSlice (some (.owned markedPage)) TMP_BASE 8 = _ :=
    guestSlice_of_load (LinearMemory.load_some hfits) (le_refl 8)
  have hok : (guestSlice (some (.owned markedPage)) TMP_BASE 8).isOk = true := by
    rw [hslice]
    rfl
  have hlen : ((pollfdBytes (0, POLLIN)).length : Int) ≤ 8 := by decide
  obtain ⟨_, mem, -, -, hcopy⟩ := guestCopy_of_fits hok hlen
  exact ⟨mem, hcopy⟩

/-- The pollfd array is written before the timeout turns out to lie nowhere. -/
theorem select_bad_timeout (sides : Nat → SocketSide) :
    ∃ memory, select markedKernel sides 1 100 0 (-1) = .returns (-EFAULT) memory ∧
      ∀ i, byteAt memory i = if Span TMP_BASE 8 i then (pollfdBytes (0, POLLIN))[i - TMP_BASE.toNat]?
        else byteAt markedKernel.memory i := by
  obtain ⟨mem, hcopy⟩ := markedPage_scratch
  have hbyte := guestCopy_byteAt hcopy
  rw [pollfdBytes_length] at hbyte
  refine ⟨some (.owned mem), ?_, hbyte⟩
  have hmem : markedKernel.memory = some (.owned markedPage) := rfl
  have hrange : ¬ ((1 : Int) < 0 ∨ 2 ^ 31 ≤ (1 : Int)) := by decide
  have hone : ¬ (1 : Int) = 0 := by decide
  have hentries : pollEntries [(0, true, false)] = [(0, POLLIN)] := rfl
  have htotal : (([(0, POLLIN)] : List (Int × UInt16)).length : Int) * POLLFD_SIZE = 8 := rfl
  have hbytes : ([(0, POLLIN)] : List (Int × UInt16)).flatMap pollfdBytes = pollfdBytes (0, POLLIN) := rfl
  have htimeout : timeoutMs (some (.owned mem)) (-1) = .error (-EFAULT) := rfl
  simp only [select, hrange, hone, if_false, hmem, Int.toNat_one, markedPage_scan, hentries, List.isEmpty_cons,
    Bool.false_eq_true, htotal, hbytes, hcopy, htimeout]

/-- A call that writes to the pollfd array and nowhere else. -/
theorem select_keeps_marked :
    ∃ memory, Completes markedKernel (fun _ => default) 1 100 0 (-1) markedKernel.cells (fun _ => default) (-EFAULT)
        memory ∧ Keeps markedKernel.memory memory (Touched markedKernel.memory 1 100 0) := by
  obtain ⟨memory, hselect, -⟩ := select_bad_timeout fun _ => default
  have hcompletes := Completes.now hselect
  exact ⟨memory, hcompletes, (select_keeps markedKernel _ 1 100 0 (-1)).1 _ _ _ _ hcompletes⟩

theorem markedPage_byte : byteAt (some (.owned markedPage)) 8196 = some 0 := by
  have hout : ¬ (100 ≤ 8196 ∧ 8196 < 100 + firstBit.length) := by
    rw [firstBit_length]
    decide
  refine (LinearMemory.splice_getElem? firstBit_fits 8196).trans ?_
  rw [if_neg hout, show LinearMemory.zeroPage.data = List.replicate 65536 0 from rfl, List.getElem?_replicate,
    if_pos (by decide)]

/-- The requested events are written at 8196, far from the only bitmap. -/
theorem select_writes_elsewhere :
    ∃ memory, Completes markedKernel (fun _ => default) 1 100 0 (-1) markedKernel.cells (fun _ => default) (-EFAULT)
        memory ∧ ¬ Keeps markedKernel.memory memory (Span 100 128) := by
  obtain ⟨memory, hselect, hbyte⟩ := select_bad_timeout fun _ => default
  refine ⟨memory, .now hselect, fun hkeeps => ?_⟩
  have hsame := hkeeps 8196 (by decide)
  have hmem : markedKernel.memory = some (.owned markedPage) := rfl
  rw [hbyte, if_pos (by decide), hmem, markedPage_byte] at hsame
  revert hsame
  decide

end EdgeLibos.Sys
