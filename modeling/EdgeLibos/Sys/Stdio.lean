import EdgeLibos.Sys.Dup
import EdgeLibos.Sys.Probe

/-!
# Standard streams

A kernel with buffered standard streams makes standard input and standard output the
two ends of one pipe. Everything the guest writes to standard output is what its
reads from standard input return, in order, as long as the host has not taken it.
-/

namespace EdgeLibos

open Errno Lib

namespace Resource

def isStdin : Resource → Bool
  | .stdin _ => true
  | _ => false

def isStdout : Resource → Bool
  | .stdout _ => true
  | _ => false

end Resource

/-- The buffer behind descriptor 1, while that is standard output. -/
def Kernel.stdoutBuf (k : Kernel) : Option Nat :=
  match k.fds.get FdTable.STDOUT with
  | .ok (.stdout w) => some w.pipe
  | _ => none

namespace Sys

def World.resourceAt (w : World) (fd : Int) : Option Resource :=
  (u32Fd fd).bind w.kernel.fds.table.get?

def bytesAt (memory : Option MemoryKind) (buf n : Int) : List UInt8 :=
  (guestSlice memory buf n).toOption.getD []

/-- A world, with the bytes written to standard output so far and those that reads
from standard input returned, each through whichever descriptor. -/
structure Logged where
  world : World
  written : List UInt8
  got : List UInt8

namespace Logged

section
variable (sock : SocketCalls)

def read (s : Logged) (fd buf len : Int) : Int × Logged :=
  let (n, w) := Sys.read sock s.world fd buf len
  let new := if (s.world.resourceAt fd).any Resource.isStdin then bytesAt w.kernel.memory buf n else []
  (n, { s with world := w, got := s.got ++ new })

def write (s : Logged) (fd buf len : Int) : Int × Logged :=
  let (n, w) := Sys.write sock s.world fd buf len
  let new :=
    if (s.world.resourceAt fd).any Resource.isStdout then bytesAt s.world.kernel.memory buf n else []
  (n, { s with world := w, written := s.written ++ new })

def vectorCall (call : Logged → Int → Int → Int → Int × Logged) (s : Logged) (fd iov count : Int) :
    Int × Logged :=
  match iovecs s.world.kernel.memory iov count with
  | .error e => (e, s)
  | .ok entries => vectored (fun s base len => call s fd base len) s 0 entries

def withTable (s : Logged) (t : FdTable) : Logged := { s with world.kernel.fds := t }

end

end Logged

inductive StdioCall
  | store (ptr : Int) (bytes : List UInt8)
  | read (fd buf len : Int)
  | write (fd buf len : Int)
  | readv (fd iov count : Int)
  | writev (fd iov count : Int)
  | dup (oldfd : Int)
  | dup2 (oldfd newfd : Int)
  | close (fd : Int)
  deriving DecidableEq, Repr

/-- What a call returns and leaves; `none` when it never returns. -/
def Logged.step (sock : SocketCalls) (s : Logged) : StdioCall → Option (Int × Logged)
  | .store ptr bytes =>
    let (n, memory) := Sys.store s.world.kernel.memory ptr bytes
    some (n, { s with world.kernel.memory := memory })
  | .read fd buf len => some (s.read sock fd buf len)
  | .write fd buf len => some (s.write sock fd buf len)
  | .readv fd iov count => some (vectorCall (read sock) s fd iov count)
  | .writev fd iov count => some (vectorCall (write sock) s fd iov count)
  | .dup oldfd => (Sys.dup s.world.kernel.fds oldfd).map fun (n, t) => (n, s.withTable t)
  | .dup2 oldfd newfd => (Sys.dup2 s.world.kernel.fds oldfd newfd).map fun (n, t) => (n, s.withTable t)
  | .close fd =>
    let (n, t) := Sys.close s.world.kernel.fds fd
    some (n, s.withTable t)

def Logged.next (sock : SocketCalls) (s : Logged) (c : StdioCall) : Option Logged :=
  (s.step sock c).map Prod.snd

-- ---------------------------------------------------------------------------
-- The log changes nothing
-- ---------------------------------------------------------------------------

/-- A loop over calls that agree on a part of the state agrees on it too. -/
theorem vectored_project {call : σ → Int → Int → Int × σ} {call' : τ → Int → Int → Int × τ}
    (f : σ → τ) (h : ∀ s base len, call' (f s) base len = ((call s base len).1, f (call s base len).2))
    (s : σ) (total : Int) (entries : List (Int × Int)) :
    vectored call' (f s) total entries =
      ((vectored call s total entries).1, f (vectored call s total entries).2) := by
  induction entries generalizing s total with
  | nil => rfl
  | cons entry rest ih =>
    obtain ⟨base, len⟩ := entry
    unfold vectored
    rw [h]
    split
    · exact ih s total
    · simp only
      split
      · rfl
      · split
        · rfl
        · exact ih _ _

theorem Logged.readv_world (sock : SocketCalls) (s : Logged) (fd iov count : Int) :
    readv sock s.world fd iov count =
      ((vectorCall (read sock) s fd iov count).1, (vectorCall (read sock) s fd iov count).2.world) := by
  unfold readv vectorCall
  cases iovecs s.world.kernel.memory iov count with
  | error e => rfl
  | ok entries => exact vectored_project Logged.world (fun _ _ _ => rfl) s 0 entries

theorem Logged.writev_world (sock : SocketCalls) (s : Logged) (fd iov count : Int) :
    writev sock s.world fd iov count =
      ((vectorCall (write sock) s fd iov count).1,
        (vectorCall (write sock) s fd iov count).2.world) := by
  unfold writev vectorCall
  cases iovecs s.world.kernel.memory iov count with
  | error e => rfl
  | ok entries => exact vectored_project Logged.world (fun _ _ _ => rfl) s 0 entries

-- ---------------------------------------------------------------------------
-- What a call does to the pipe of standard output
-- ---------------------------------------------------------------------------

def stdioResources : List Resource :=
  [.stdin { pipe := 0, notify := 0 }, .stdout { pipe := 0, notify := 1 },
    .stderr { pipe := 1, notify := 3 }]

/-- Nothing but the three streams is bound. -/
def OnlyStdio (t : FdTable) : Prop := ∀ fd r, t.table.get? fd = some r → r ∈ stdioResources

def World.outBuf (w : World) : List UInt8 := (w.kernel.cells.pipes.read 0).buf

/-- The call reads from standard input into memory, and there is something to read. -/
def TakesFrom (w : World) (fd buf len : Int) : Prop :=
  (w.resourceAt fd).any Resource.isStdin = true ∧ (guestSlice w.kernel.memory buf len).isOk = true ∧
    0 < len ∧ w.outBuf ≠ []

instance (w : World) (fd buf len : Int) : Decidable (TakesFrom w fd buf len) :=
  inferInstanceAs (Decidable (_ ∧ _ ∧ _ ∧ _))

variable {w w' : World}

theorem guestSlice_ok (h : guestSlice memory ptr len = .ok bytes) :
    ∃ mem, memory = some (.owned mem) ∧ 0 ≤ ptr ∧ 0 ≤ len ∧ ptr.toNat + len.toNat ≤ mem.size ∧
      bytes = (mem.data.drop ptr.toNat).take len.toNat := by
  unfold guestSlice at h
  split at h
  · cases h
  · rename_i hsign
    split at h
    · cases h
    · rename_i mem hmem
      split at h
      · rename_i hfits
        cases h
        exact ⟨mem, ownedOf_ok hmem, by omega, by omega, hfits, rfl⟩
      · cases h

theorem guestSlice_length (h : guestSlice memory ptr len = .ok bytes) : bytes.length = len.toNat := by
  obtain ⟨mem, -, -, -, hfits, rfl⟩ := guestSlice_ok h
  have hsize : mem.size = mem.data.length := rfl
  rw [List.length_take, List.length_drop]
  omega

theorem guestCopy_of_fits (h : (guestSlice memory base len).isOk = true)
    (hnew : (new.length : Int) ≤ len) :
    ∃ mem mem', memory = some (.owned mem) ∧ mem'.size = mem.size ∧
      guestCopy memory base new.length new = .ok (some (.owned mem')) := by
  cases hs : guestSlice memory base len with
  | error e =>
    rw [hs] at h
    cases h
  | ok old =>
    obtain ⟨mem, rfl, hbase, hlen, hfits, -⟩ := guestSlice_ok hs
    have hwrite : base.toNat + new.length ≤ mem.size := by omega
    refine ⟨mem, mem.write base.toNat new hwrite, rfl, LinearMemory.write_size _ _, ?_⟩
    rw [guestCopy, if_neg (by omega)]
    simp only [ownedOf, Int.toNat_natCast]
    rw [dif_pos ⟨hwrite, le_refl _⟩]

theorem deliver_bytes (h : guestSlice memory buf len = .ok old) (htmp : tmp.length ≤ len.toNat) :
    ∃ memory', deliver memory buf len (.bytes tmp) = ((tmp.length : Int), memory') ∧
      bytesAt memory' buf tmp.length = tmp := by
  obtain ⟨mem, rfl, hbuf, hlen, hfits, -⟩ := guestSlice_ok h
  have hwrite : buf.toNat + tmp.length ≤ mem.size := by omega
  refine ⟨some (.owned (mem.write buf.toNat tmp hwrite)), ?_, ?_⟩
  · have hcopy : guestCopy (some (.owned mem)) buf len tmp =
        .ok (some (.owned (mem.write buf.toNat tmp hwrite))) := by
      rw [guestCopy, if_neg (by omega)]
      simp only [ownedOf]
      rw [dif_pos ⟨hfits, htmp⟩]
    simp only [deliver, hcopy]
  · have hload := LinearMemory.load_write hwrite
    rw [LinearMemory.load_some (by rw [LinearMemory.write_size]; exact hwrite)] at hload
    rw [bytesAt, guestSlice, if_neg (by omega)]
    simp only [ownedOf, Int.toNat_natCast]
    rw [if_pos (by rw [LinearMemory.write_size]; exact hwrite), Option.some.inj hload]
    rfl

theorem guestSlice_of_bytesAt (h : bytesAt memory buf n = b :: bytes) : guestSlice memory buf n = .ok (b :: bytes) := by
  unfold bytesAt at h
  cases hs : guestSlice memory buf n with
  | error e =>
    rw [hs] at h
    cases h
  | ok got =>
    rw [hs] at h
    exact congrArg Except.ok h

theorem bytesAt_of_le (h : n ≤ 0) : bytesAt memory buf n = [] := by
  unfold bytesAt
  cases hs : guestSlice memory buf n with
  | error e => rfl
  | ok bytes =>
    refine List.eq_nil_of_length_eq_zero ?_
    rw [Except.toOption, Option.getD_some, guestSlice_length hs]
    omega

/-- A read takes bytes from the pipe and returns them, or leaves it alone and returns
none. -/
structure ReadEffect (w : World) (fd buf len n : Int) (w' : World) : Prop where
  fds : w'.kernel.fds = w.kernel.fds
  took : TakesFrom w fd buf len → ∃ taken, taken ≠ [] ∧ w.outBuf = taken ++ w'.outBuf ∧
    bytesAt w'.kernel.memory buf n = taken
  nothing : ¬ TakesFrom w fd buf len → n ≤ 0 ∧ w'.outBuf = w.outBuf

theorem ReadEffect.of_refused (hn : n ≤ 0) (h : ¬ TakesFrom w fd buf len) :
    ReadEffect w fd buf len n w :=
  ⟨rfl, fun ht => absurd ht h, fun _ => ⟨hn, rfl⟩⟩

theorem Pipe.read_nil {p : Pipe} (h : p.buf = []) (len : Nat) :
    ∃ n : Int, n ≤ 0 ∧ p.read len = (.ret n, { p with buf := [] }) := by
  unfold Pipe.read
  simp only [h, List.take_nil, List.drop_nil, List.isEmpty_nil, Bool.true_and]
  split
  · exact ⟨_, by decide, rfl⟩
  · split
    · exact ⟨_, le_refl 0, rfl⟩
    · exact ⟨_, by decide, rfl⟩

theorem Pipe.read_some {p : Pipe} (h : p.buf ≠ []) (hlen : 0 < len) :
    p.read len = (.bytes (p.buf.take len), { p with buf := p.buf.drop len }) := by
  have htake : (p.buf.take len).isEmpty = false := by
    rw [List.isEmpty_eq_false_iff, Ne, List.take_eq_nil_iff, not_or]
    exact ⟨Nat.ne_of_gt hlen, h⟩
  unfold Pipe.read
  simp only [htake, Bool.false_and, Bool.false_eq_true, if_false]

theorem resourceAt_of_get (hf : u32Fd fd = some f) (hr : w.kernel.fds.table.get? f = some r) :
    w.resourceAt fd = some r := by
  rw [World.resourceAt, hf, Option.bind_some, hr]

theorem read_stdin (sock : SocketCalls) (hf : u32Fd fd = some f) (hs : guestSlice w.kernel.memory buf len = .ok old)
    (hlen : 0 < len)
    (hr : w.kernel.fds.table.get? f = some (.stdin { pipe := 0, notify := 0 })) :
    ReadEffect w fd buf len (read sock w fd buf len).1 (read sock w fd buf len).2 := by
  have hlen' : 0 < len.toNat := by omega
  have htakes : TakesFrom w fd buf len ↔ w.outBuf ≠ [] := by
    rw [TakesFrom, resourceAt_of_get hf hr, hs]
    exact ⟨fun h => h.2.2.2, fun h => ⟨rfl, rfl, hlen, h⟩⟩
  simp only [read, hf, hs, if_neg (ne_of_gt hlen), FdTable.get_ok.mpr hr, readFrom]
  by_cases hbuf : w.outBuf = []
  · obtain ⟨n, hn, hread⟩ := Pipe.read_nil hbuf len.toNat
    simp only [hread, deliver]
    refine ⟨rfl, fun ht => absurd hbuf (htakes.mp ht), fun _ => ⟨hn, ?_⟩⟩
    rw [hbuf]
    simp [World.outBuf, World.setPipe]
  · have hread := Pipe.read_some hbuf hlen'
    have htake : (w.outBuf.take len.toNat).length ≤ len.toNat := List.length_take_le ..
    obtain ⟨memory', hdeliver, hbytes⟩ := deliver_bytes hs htake
    simp only [World.outBuf] at hbytes hdeliver
    simp only [hread, World.setPipe, hdeliver]
    refine ⟨rfl, fun _ => ⟨w.outBuf.take len.toNat, ?_, ?_, hbytes⟩, fun hn => absurd hbuf ?_⟩
    · rw [Ne, List.take_eq_nil_iff, not_or]
      exact ⟨Nat.ne_of_gt hlen', hbuf⟩
    · simp [World.outBuf]
    · rwa [htakes] at hn

theorem read_effect (sock : SocketCalls) (hw : OnlyStdio w.kernel.fds) (fd buf len : Int) :
    ReadEffect w fd buf len (read sock w fd buf len).1 (read sock w fd buf len).2 := by
  cases hf : u32Fd fd with
  | none =>
    simp only [read, hf]
    refine .of_refused (by decide) ?_
    rintro ⟨hany, -⟩
    rw [World.resourceAt, hf] at hany
    cases hany
  | some f =>
    cases hs : guestSlice w.kernel.memory buf len with
    | error e =>
      simp only [read, hf, hs]
      refine .of_refused (le_of_lt (guestSlice_error_neg hs)) ?_
      rintro ⟨-, hok, -⟩
      rw [hs] at hok
      cases hok
    | ok old =>
      obtain ⟨mem, -, -, hlen, -, -⟩ := guestSlice_ok hs
      by_cases hzero : len = 0
      · simp only [read, hf, hs, if_pos hzero]
        refine .of_refused (le_refl 0) ?_
        rintro ⟨-, -, hpos, -⟩
        omega
      · cases hr : w.kernel.fds.table.get? f with
        | none =>
          have hget : w.kernel.fds.get f = .error (-EBADF) := by rw [FdTable.get, hr]
          simp only [read, hf, hs, if_neg hzero, hget]
          refine .of_refused (by decide) ?_
          rintro ⟨hany, -⟩
          rw [World.resourceAt, hf, Option.bind_some, hr] at hany
          cases hany
        | some r =>
          have hmem := hw f r hr
          simp only [stdioResources, List.mem_cons, List.not_mem_nil, or_false] at hmem
          have hpos : 0 < len := by omega
          rcases hmem with rfl | rfl | rfl
          · exact read_stdin sock hf hs hpos hr
          all_goals
            simp only [read, hf, hs, if_neg hzero, FdTable.get_ok.mpr hr, readFrom, deliver]
            refine .of_refused (by decide) ?_
            rintro ⟨hany, -⟩
            rw [resourceAt_of_get hf hr] at hany
            cases hany

def sentTo (w : World) (fd buf n : Int) : List UInt8 :=
  if (w.resourceAt fd).any Resource.isStdout then bytesAt w.kernel.memory buf n else []

structure WriteEffect (w : World) (fd buf n : Int) (w' : World) : Prop where
  fds : w'.kernel.fds = w.kernel.fds
  added : w'.outBuf = w.outBuf ++ sentTo w fd buf n

theorem WriteEffect.of_refused (hn : n ≤ 0) : WriteEffect w fd buf n w := by
  refine ⟨rfl, ?_⟩
  rw [sentTo, bytesAt_of_le hn, ite_self, List.append_nil]

theorem write_effect (sock : SocketCalls) (hw : OnlyStdio w.kernel.fds) (fd buf len : Int) :
    WriteEffect w fd buf (write sock w fd buf len).1 (write sock w fd buf len).2 := by
  cases hf : u32Fd fd with
  | none =>
    simp only [write, hf]
    exact .of_refused (by decide)
  | some f =>
    cases hs : guestSlice w.kernel.memory buf len with
    | error e =>
      simp only [write, hf, hs]
      exact .of_refused (le_of_lt (guestSlice_error_neg hs))
    | ok bytes =>
      by_cases hzero : bytes.length = 0
      · simp only [write, hf, hs, if_pos hzero]
        exact .of_refused (le_refl 0)
      · cases hr : w.kernel.fds.table.get? f with
        | none =>
          have hget : w.kernel.fds.get f = .error (-EBADF) := by rw [FdTable.get, hr]
          simp only [write, hf, hs, if_neg hzero, hget]
          exact .of_refused (by decide)
        | some r =>
          have hlen : (bytes.length : Int) = len := by
            obtain ⟨-, -, -, hlen, -, -⟩ := guestSlice_ok hs
            rw [guestSlice_length hs]
            omega
          have hbytes : bytesAt w.kernel.memory buf bytes.length = bytes := by
            rw [bytesAt, hlen, hs]
            rfl
          have hres := resourceAt_of_get hf hr
          have hmem := hw f r hr
          simp only [stdioResources, List.mem_cons, List.not_mem_nil, or_false] at hmem
          rcases hmem with rfl | rfl | rfl
          · simp only [write, hf, hs, if_neg hzero, FdTable.get_ok.mpr hr, writeTo, Option.getD_some]
            exact .of_refused (by decide)
          · simp only [write, hf, hs, if_neg hzero, FdTable.get_ok.mpr hr, writeTo, Option.getD_some]
            refine ⟨rfl, ?_⟩
            rw [sentTo, hres, Option.any_some, Resource.isStdout, if_pos rfl, hbytes]
            simp [World.outBuf, World.setPipe, Pipe.write]
          · simp only [write, hf, hs, if_neg hzero, FdTable.get_ok.mpr hr, writeTo, Option.getD_some]
            refine ⟨rfl, ?_⟩
            have hother : Resource.isStdout (.stderr { pipe := 1, notify := 3 }) = false := rfl
            rw [sentTo, hres, Option.any_some, hother, if_neg Bool.false_ne_true, List.append_nil]
            simp only [World.outBuf, World.setPipe]
            rw [Heap.read_write_ne _ _ (by decide)]

-- ---------------------------------------------------------------------------
-- Runs
-- ---------------------------------------------------------------------------

/-- What was read and what is left in the pipe are what was written. -/
structure Flows (s : Logged) : Prop where
  only : OnlyStdio s.world.kernel.fds
  flow : s.got ++ s.world.outBuf = s.written

def firstTakes (w : World) (fd : Int) (entries : List (Int × Int)) : Prop :=
  match entries.find? (·.2 ≠ 0) with
  | none => False
  | some (base, len) => TakesFrom w fd base len

def Takes (s : Logged) : StdioCall → Prop
  | .read fd buf len => TakesFrom s.world fd buf len
  | .readv fd iov count =>
    match iovecs s.world.kernel.memory iov count with
    | .error _ => False
    | .ok entries => firstTakes s.world fd entries
  | _ => False

/-- A step that keeps the flow, and whether it read anything. -/
structure Kept (s s' : Logged) (took : Prop) : Prop where
  flows : Flows s'
  got : s.got <+: s'.got
  same : s'.got = s.got ↔ ¬ took

variable {s s' : Logged}

theorem Flows.read (sock : SocketCalls) (h : Flows s) (fd buf len : Int) :
    Kept s (s.read sock fd buf len).2 (TakesFrom s.world fd buf len) := by
  have he := read_effect sock h.only fd buf len
  unfold Logged.read
  by_cases ht : TakesFrom s.world fd buf len
  · obtain ⟨taken, hne, hbuf, hbytes⟩ := he.took ht
    simp only [ht.1, if_true, hbytes]
    refine ⟨⟨he.fds.symm ▸ h.only, ?_⟩, List.prefix_append .., ?_⟩
    · rw [List.append_assoc, ← hbuf]
      exact h.flow
    · exact iff_of_false (fun hgot => hne (List.append_right_eq_self.mp hgot)) (not_not_intro ht)
  · obtain ⟨hn, hbuf⟩ := he.nothing ht
    simp only [bytesAt_of_le hn, ite_self, List.append_nil]
    refine ⟨⟨he.fds.symm ▸ h.only, ?_⟩, List.prefix_rfl, iff_of_true rfl ht⟩
    rw [hbuf]
    exact h.flow

theorem Flows.write (sock : SocketCalls) (h : Flows s) (fd buf len : Int) :
    Kept s (s.write sock fd buf len).2 False := by
  have he := write_effect sock h.only fd buf len
  refine ⟨⟨he.fds.symm ▸ h.only, ?_⟩, List.prefix_rfl, iff_of_true rfl not_false⟩
  show s.got ++ (Sys.write sock s.world fd buf len).2.outBuf = s.written ++ _
  rw [he.added, ← List.append_assoc, h.flow]
  rfl

theorem Kept.trans (h : Kept s s₁ p) (h' : Kept s₁ s' q) : Kept s s' (p ∨ q) := by
  refine ⟨h'.flows, h.got.trans h'.got, ?_⟩
  rw [not_or, ← h.same, ← h'.same]
  constructor
  · intro heq
    have hlength : s₁.got.length ≤ s.got.length := heq ▸ h'.got.length_le
    have hfirst : s.got = s₁.got := h.got.eq_of_length_le hlength
    exact ⟨hfirst.symm, heq.trans hfirst⟩
  · rintro ⟨hfirst, hsecond⟩
    exact hsecond.trans hfirst

theorem Kept.congr (h : Kept s s' p) (hp : p ↔ q) : Kept s s' q := ⟨h.flows, h.got, h.same.trans hp.not⟩

theorem Flows.stay (h : Flows s) : Kept s s False := ⟨h, List.prefix_rfl, iff_of_true rfl not_false⟩

theorem Flows.vectored_write (sock : SocketCalls) (h : Flows s) (fd total : Int)
    (entries : List (Int × Int)) :
    Kept s (vectored (fun s base len => s.write sock fd base len) s total entries).2 False := by
  induction entries generalizing s total with
  | nil => exact h.stay
  | cons entry rest ih =>
    obtain ⟨base, len⟩ := entry
    have hstep := h.write sock fd base len
    unfold vectored
    split
    · exact ih h total
    · simp only
      split
      · exact hstep
      · split
        · exact hstep
        · exact (hstep.trans (ih hstep.flows _)).congr (or_self_iff)

theorem firstTakes_zero (hlen : len = 0) :
    firstTakes w fd ((base, len) :: rest) ↔ firstTakes w fd rest := by
  rw [firstTakes, List.find?_cons_of_neg (by simpa using hlen), firstTakes]

theorem firstTakes_pos (hlen : len ≠ 0) :
    firstTakes w fd ((base, len) :: rest) ↔ TakesFrom w fd base len := by
  rw [firstTakes, List.find?_cons_of_pos (by simpa using hlen)]

theorem Flows.vectored_read (sock : SocketCalls) (h : Flows s) (fd total : Int)
    {entries : List (Int × Int)} (hlens : ∀ e ∈ entries, 0 ≤ e.2) :
    Kept s (vectored (fun s base len => s.read sock fd base len) s total entries).2
      (firstTakes s.world fd entries) := by
  induction entries generalizing s total with
  | nil => exact h.stay
  | cons entry rest ih =>
    obtain ⟨base, len⟩ := entry
    have hrest : ∀ e ∈ rest, 0 ≤ e.2 := fun e he => hlens e (List.mem_cons_of_mem _ he)
    have hlen : 0 ≤ len := hlens (base, len) List.mem_cons_self
    have hstep := h.read sock fd base len
    unfold vectored
    split
    · rename_i hzero
      exact (ih h total hrest).congr (firstTakes_zero hzero).symm
    · rename_i hzero
      rw [← iff_iff_eq.mp (firstTakes_pos hzero).symm]
      simp only
      split
      · exact hstep
      · split
        · exact hstep
        · rename_i hn hshort
          -- A full buffer was taken, so what the later reads take does not matter.
          have htakes : TakesFrom s.world fd base len := by
            by_contra hnot
            have hle := ((read_effect sock h.only fd base len).nothing hnot).1
            exact hshort (lt_of_le_of_lt hle (lt_of_le_of_ne hlen (Ne.symm hzero)))
          exact (hstep.trans (ih hstep.flows _ hrest)).congr
            ⟨fun _ => htakes, fun _ => .inl htakes⟩

theorem iovecsOf_nonneg (bytes : List UInt8) : ∀ e ∈ iovecsOf bytes, 0 ≤ e.2 := by
  fun_induction iovecsOf bytes with
  | case1 b₀ b₁ b₂ b₃ l₀ l₁ l₂ l₃ rest ih =>
    intro e he
    rcases List.mem_cons.mp he with rfl | he
    · exact Int.natCast_nonneg _
    · exact ih e he
  | case2 => exact fun e he => absurd he List.not_mem_nil

theorem iovecs_nonneg (h : iovecs memory iov count = .ok entries) : ∀ e ∈ entries, 0 ≤ e.2 := by
  unfold iovecs at h
  split at h
  · cases h
  · split at h
    · cases h
    · split at h
      · cases h
      · cases h
        exact iovecsOf_nonneg _

-- ---------------------------------------------------------------------------
-- The table
-- ---------------------------------------------------------------------------

variable {t t' : FdTable}

theorem Flows.withTable (h : Flows s) (ht : OnlyStdio t) : Kept s (s.withTable t) False :=
  ⟨⟨ht, h.flow⟩, List.prefix_rfl, iff_of_true rfl not_false⟩

theorem Flows.step (sock : SocketCalls) (h : Flows s) (hs : s.next sock c = some s') :
    Kept s s' (Takes s c) := by
  obtain ⟨⟨n, u⟩, hstep, rfl⟩ := Option.map_eq_some_iff.mp hs
  cases c with
  | store ptr bytes =>
    cases hstep
    exact ⟨⟨h.only, h.flow⟩, List.prefix_rfl, iff_of_true rfl not_false⟩
  | read fd buf len =>
    cases hstep
    exact h.read sock fd buf len
  | write fd buf len =>
    cases hstep
    exact h.write sock fd buf len
  | readv fd iov count =>
    have hu : u = (Logged.vectorCall (Logged.read sock) s fd iov count).2 :=
      congrArg Prod.snd (Option.some.inj hstep).symm
    rw [hu]
    simp only [Logged.vectorCall, Takes]
    cases hio : iovecs s.world.kernel.memory iov count with
    | error e => exact h.stay
    | ok entries => exact h.vectored_read sock fd 0 (iovecs_nonneg hio)
  | writev fd iov count =>
    have hu : u = (Logged.vectorCall (Logged.write sock) s fd iov count).2 :=
      congrArg Prod.snd (Option.some.inj hstep).symm
    rw [hu]
    simp only [Logged.vectorCall, Takes]
    cases iovecs s.world.kernel.memory iov count with
    | error e => exact h.stay
    | ok entries => exact h.vectored_write sock fd 0 entries
  | dup oldfd =>
    obtain ⟨⟨m, t⟩, hdup, hu⟩ := Option.map_eq_some_iff.mp hstep
    cases hu
    exact h.withTable (AllBound.duplicate h.only (c := .dup _) rfl hdup)
  | dup2 oldfd newfd =>
    obtain ⟨⟨m, t⟩, hdup, hu⟩ := Option.map_eq_some_iff.mp hstep
    cases hu
    exact h.withTable (AllBound.duplicate h.only (c := .dup2 _ _) rfl hdup)
  | close fd =>
    cases hstep
    exact h.withTable (AllBound.close h.only fd)

/-- A kernel with buffered standard streams and some memory, before the guest runs. -/
def startStdio (k : Kernel) (memory : Option MemoryKind) (fs : HostFs) : Logged where
  world := { kernel := { k with memory }, fs }
  written := []
  got := []

theorem startStdio_flows :
    Flows (startStdio (Kernel.new args env vfs seed) memory fs) where
  only fd r hr := by
    have hall : ∀ p ∈ (FdTable.withBufferedStdio .empty).1.table.entries, p.2 ∈ stdioResources := by
      decide
    exact hall (fd, r) (HashMap.get?_eq_some_iff.mp hr)
  flow := rfl

theorem Flows.run (sock : SocketCalls) (h : Flows s)
    (hrun : runFrom (Logged.next sock) s calls = some s') :
    Flows s' ∧ s.got <+: s'.got ∧
      (s'.got = s.got ↔ RunMeets (Logged.next sock) (fun s c => ¬ Takes s c) s calls) := by
  induction calls generalizing s with
  | nil =>
    obtain rfl := Option.some.inj hrun
    exact ⟨h, List.prefix_rfl, iff_of_true rfl trivial⟩
  | cons c rest ih =>
    obtain ⟨s₁, h₁, hrun⟩ := Option.bind_eq_some_iff.mp hrun
    have hstep := h.step sock h₁
    obtain ⟨hflows, hgot, hsame⟩ := ih hstep.flows hrun
    refine ⟨hflows, hstep.got.trans hgot, ?_⟩
    have hrest : Kept s₁ s' (¬ RunMeets (Logged.next sock) (fun s c => ¬ Takes s c) s₁ rest) :=
      ⟨hflows, hgot, hsame.trans not_not.symm⟩
    rw [(hstep.trans hrest).same, not_or, not_not]
    refine and_congr_right fun _ => ⟨fun hm s₂ h₂ => ?_, fun hm => hm s₁ h₁⟩
    exact Option.some.inj (h₁.symm.trans h₂) ▸ hm

/-- No read from standard input returned bytes written to standard output, and these
are what the buffer holds that the host took hold of before the run. Nothing else is
ever put into the pipe, so bytes that such a read returns are bytes that were written. -/
def Isolated (before after : Logged) : Prop :=
  after.got = [] ∧ ∃ p, before.world.kernel.stdoutBuf = some p ∧
    (after.world.kernel.cells.pipes.read p).buf = after.written

/-- The standard streams are isolated in a run exactly when no call of it reads from
standard input while the guest's own output is in the pipe. -/
theorem stdio_isolated (sock : SocketCalls) (args : List String) (env : List (String × String))
    (vfs : Vfs) (seed : RngSeed) (memory : Option MemoryKind) (fs : HostFs) (calls : List StdioCall)
    (h : runFrom (Logged.next sock) (startStdio (Kernel.new args env vfs seed) memory fs) calls =
      some s) :
    Isolated (startStdio (Kernel.new args env vfs seed) memory fs) s ↔
      RunMeets (Logged.next sock) (fun s c => ¬ Takes s c)
        (startStdio (Kernel.new args env vfs seed) memory fs) calls := by
  obtain ⟨hflows, -, hsame⟩ := startStdio_flows.run sock h
  rw [← hsame]
  constructor
  · exact fun hiso => hiso.1
  · intro hgot
    have hgot : s.got = [] := hgot
    refine ⟨hgot, 0, rfl, ?_⟩
    have hflow := hflows.flow
    rw [hgot, List.nil_append] at hflow
    exact hflow

-- ---------------------------------------------------------------------------
-- One byte of output
-- ---------------------------------------------------------------------------

def freshStdio : Logged :=
  startStdio (Kernel.new [] [] { root := "/", cwd := "/" } (Vector.replicate 32 0))
    (some (.owned .zeroPage)) { contents := fun _ => none }

theorem next_read (sock : SocketCalls) (s : Logged) (fd buf len : Int) :
    s.next sock (.read fd buf len) = some (s.read sock fd buf len).2 := rfl

theorem next_write (sock : SocketCalls) (s : Logged) (fd buf len : Int) :
    s.next sock (.write fd buf len) = some (s.write sock fd buf len).2 := rfl

/-- Standard input is empty until something was written. -/
theorem stdio_isolated_write :
    ∃ s, runFrom (Logged.next noSockets) freshStdio [.read 0 0 1, .write 1 0 1] = some s ∧
      Isolated freshStdio s := by
  have hrun : runFrom (Logged.next noSockets) freshStdio [.read 0 0 1, .write 1 0 1] = some _ :=
    (runFrom_cons (next_read ..)).trans (runFrom_cons (next_write ..))
  refine ⟨_, hrun, (stdio_isolated noSockets [] [] _ _ _ _ [.read 0 0 1, .write 1 0 1] hrun).mpr ?_⟩
  refine ⟨?_, fun s _ => ⟨not_false, fun s' _ => trivial⟩⟩
  rintro ⟨-, -, -, hbuf⟩
  exact hbuf rfl

theorem freshStdio_buffer : HasBuffer freshStdio.world.kernel.memory := by
  refine ⟨.zeroPage, rfl, ?_⟩
  rw [LinearMemory.zeroPage_size]
  decide

theorem Logged.write_world (h : Sys.write sock s.world fd buf len = (n, w')) :
    (s.write sock fd buf len).2.world = w' := by
  unfold Logged.write
  rw [h]

theorem takes_after_write (sock : SocketCalls) (h : Flows s) (hb : HasBuffer s.world.kernel.memory)
    (h0 : s.world.kernel.fds.table.get? 0 = some (.stdin { pipe := 0, notify := 0 }))
    (h1 : s.world.kernel.fds.table.get? 1 = some (.stdout { pipe := 0, notify := 1 })) :
    Takes (s.write sock 1 0 1).2 (.read 0 0 1) := by
  obtain ⟨w', hwrite, -, b, hready⟩ := write_pipe sock hb h1 rfl
  have hread := hready 0 0 s.world.outBuf ⟨hb, ⟨_, h0, rfl⟩, rfl⟩
  have hone : (((1 : UInt32).toNat : Nat) : Int) = 1 := rfl
  rw [hone] at hwrite
  have heffect := write_effect sock h.only 1 0 1
  rw [hwrite] at heffect
  obtain ⟨c, hslice⟩ := hread.memory.slice
  show TakesFrom (s.write sock 1 0 1).2.world 0 0 1
  rw [Logged.write_world hwrite]
  refine ⟨?_, by rw [hslice]; rfl, by decide, ?_⟩
  · rw [World.resourceAt, heffect.fds, show u32Fd 0 = some 0 from rfl, Option.bind_some, h0]
    rfl
  · rw [World.outBuf, hread.holds, if_pos rfl]
    exact List.append_ne_nil_of_right_ne_nil _ (List.cons_ne_nil _ _)

/-- A byte written to standard output comes back from standard input. -/
theorem stdin_returns_output :
    ∃ s, runFrom (Logged.next noSockets) freshStdio [.write 1 0 1, .read 0 0 1] = some s ∧
      ¬ Isolated freshStdio s := by
  have hrun : runFrom (Logged.next noSockets) freshStdio [.write 1 0 1, .read 0 0 1] = some _ :=
    (runFrom_cons (next_write ..)).trans (runFrom_cons (next_read ..))
  refine ⟨_, hrun, fun hiso => ?_⟩
  have hstart : Flows freshStdio := startStdio_flows
  obtain ⟨-, -, hsame⟩ := hstart.run noSockets hrun
  have hmeets := (hsame.mp hiso.1).2 _ (next_write noSockets freshStdio 1 0 1)
  exact hmeets.1 (takes_after_write noSockets hstart freshStdio_buffer rfl rfl)

end Sys

end EdgeLibos
