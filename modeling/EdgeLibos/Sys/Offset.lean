import EdgeLibos.Lib.Traces
import EdgeLibos.Sys.Stdio

/-!
# One offset for a file

An open file description as it should look through its descriptors, a file with one
offset, beside the two that a `FilePos` keeps. Reads agree with the one offset
always. A read that stops before the end of the file leaves the host's cursor further
on unless its length is a whole number of chunks, and the next write or relative seek
starts from there.
-/

namespace EdgeLibos

open Errno Lib

/-- The host's files after one of them was replaced. -/
def HostFs.put (fs : HostFs) (node : Nat) (data : List UInt8) : HostFs :=
  { contents := Function.update fs.contents node (some data) }

namespace Sys

inductive FileCall
  | store (ptr : Int) (bytes : List UInt8)
  | read (fd buf len : Int)
  | write (fd buf len : Int)
  | lseek (fd : Int) (offset : Int64) (whence : Int)
  | dup (oldfd : Int)
  | dup2 (oldfd newfd : Int)
  | close (fd : Int)
  deriving DecidableEq, Repr

/-- What a call shows: the bytes it read, or the value it returned. -/
inductive Seen
  | bytes (read : List UInt8)
  | value (n : Int)
  deriving DecidableEq, Repr

def FileCall.fd? : FileCall → Option Int
  | .store _ _ => none
  | .read fd _ _ | .write fd _ _ | .lseek fd _ _ | .dup fd | .dup2 fd _ | .close fd => some fd

section
variable (sock : SocketCalls)

def FileCall.run (w : World) : FileCall → Option (Seen × World)
  | .store ptr bytes =>
    let (n, memory) := Sys.store w.kernel.memory ptr bytes
    some (.value n, { w with kernel.memory := memory })
  | .read fd buf len =>
    let (n, w) := Sys.read sock w fd buf len
    some (.bytes (bytesAt w.kernel.memory buf n), w)
  | .write fd buf len =>
    let (n, w) := Sys.write sock w fd buf len
    some (.value n, w)
  | .lseek fd offset whence =>
    let (n, w) := Sys.lseek w fd offset.toInt whence
    some (.value n, w)
  | .dup oldfd =>
    (Sys.dup w.kernel.fds oldfd).map fun (n, t) => (.value n, { w with kernel.fds := t })
  | .dup2 oldfd newfd =>
    (Sys.dup2 w.kernel.fds oldfd newfd).map fun (n, t) => (.value n, { w with kernel.fds := t })
  | .close fd =>
    let (n, t) := Sys.close w.kernel.fds fd
    some (.value n, { w with kernel.fds := t })

/-- A step of a guest that uses only the descriptors of the file in cell `ref`: what the
call shows, and what the file holds after it. -/
def fileNext (ref : Nat) (w : World) (c : FileCall) :
    Option ((Seen × Option (List UInt8)) × World) :=
  if ∀ fd ∈ c.fd?, w.resourceAt fd = some (.file ref) then
    (c.run sock w).map fun (seen, w) =>
      ((seen, w.fs.contents (w.kernel.cells.files.read ref).inner.node), w)
  else none

end

-- ---------------------------------------------------------------------------
-- The file with one offset
-- ---------------------------------------------------------------------------

/-- An open file description, with the memory and the descriptors of its guest. -/
structure Description where
  memory : Option MemoryKind
  fds : FdTable
  data : List UInt8
  offset : Nat
  limit : OffsetLimit

/-- The bytes from `start` on are replaced; a gap before them is filled with zeros. -/
def overwrite (data : List UInt8) (start : Nat) (bytes : List UInt8) : List UInt8 :=
  LinearMemory.splice start bytes (data ++ List.replicate (start - data.length) 0)

namespace Description

def read (d : Description) (buf len : Int) : Seen × Description :=
  match guestSlice d.memory buf len with
  | .error _ => (.bytes [], d)
  | .ok _ =>
    let got := (d.data.drop d.offset).take len.toNat
    if got.isEmpty then (.bytes [], d)
    else
      (.bytes got, { d with
        memory := (deliver d.memory buf len (.bytes got)).2
        offset := d.offset + got.length })

/-- As many bytes are written as there are offsets for. -/
def write (d : Description) (buf len : Int) : Seen × Description :=
  match guestSlice d.memory buf len with
  | .error e => (.value e, d)
  | .ok bytes =>
    if bytes.length = 0 then (.value 0, d)
    else
      let n := min bytes.length (d.limit.first - 1 - d.offset)
      if n = 0 then (.value (- Errno.EIO), d)
      else
        (.value n, { d with
          data := overwrite d.data d.offset (bytes.take n)
          offset := d.offset + n })

/-- Where a seek goes. What is counted from the start or the end of the file stops at 0. -/
def target (d : Description) (offset whence : Int) : Option Int :=
  if whence = FilePos.SEEK_SET then some (max offset 0)
  else if whence = FilePos.SEEK_CUR then some (d.offset + offset)
  else if whence = FilePos.SEEK_END then some (max (Int.bmod (d.data.length + offset) (2 ^ 64)) 0)
  else none

def lseek (d : Description) (offset whence : Int) : Seen × Description :=
  match d.target offset whence with
  | none => (.value (-EINVAL), d)
  | some t =>
    if 0 ≤ t ∧ t < d.limit.first then (.value t, { d with offset := t.toNat })
    else (.value (-EINVAL), d)

def run (d : Description) : FileCall → Option (Seen × Description)
  | .store ptr bytes =>
    let (n, memory) := Sys.store d.memory ptr bytes
    some (.value n, { d with memory })
  | .read _ buf len => some (d.read buf len)
  | .write _ buf len => some (d.write buf len)
  | .lseek _ offset whence => some (d.lseek offset.toInt whence)
  | .dup oldfd => (Sys.dup d.fds oldfd).map fun (n, t) => (.value n, { d with fds := t })
  | .dup2 oldfd newfd => (Sys.dup2 d.fds oldfd newfd).map fun (n, t) => (.value n, { d with fds := t })
  | .close fd =>
    let (n, t) := Sys.close d.fds fd
    some (.value n, { d with fds := t })

def next (ref : Nat) (d : Description) (c : FileCall) :
    Option ((Seen × Option (List UInt8)) × Description) :=
  if ∀ fd ∈ c.fd?, (u32Fd fd).bind d.fds.table.get? = some (.file ref) then
    (d.run c).map fun (seen, d) => ((seen, some d.data), d)
  else none

end Description

-- ---------------------------------------------------------------------------
-- Reads
-- ---------------------------------------------------------------------------

variable {fs : HostFs} {f : HostFile} {fp : FilePos} {data : List UInt8}

structure Regular (f : HostFile) : Prop where
  readable : f.readable = true
  writable : f.writable = true
  append : f.append = false

/-- How far the chunks that a read of `len` bytes asks for reach. -/
def chunksFor (len : Nat) : Nat := CHUNK * ((len + (CHUNK - 1)) / CHUNK)

theorem chunksFor_one (h : 0 < n) (hle : n ≤ CHUNK) : chunksFor n = CHUNK := by
  simp only [chunksFor, CHUNK] at *
  omega

theorem chunksFor_more (h : CHUNK < n) : chunksFor n = CHUNK + chunksFor (n - CHUNK) := by
  simp only [chunksFor, CHUNK] at *
  omega

theorem le_chunksFor (n : Nat) : n ≤ chunksFor n := by
  simp only [chunksFor, CHUNK]
  omega

theorem take_append_chunk {data : List UInt8} (h : min CHUNK (data.length - c) ≤ n) :
    (data.drop c).take CHUNK ++ (data.drop (c + min CHUNK (data.length - c))).take
        (n - min CHUNK (data.length - c)) = (data.drop c).take n := by
  have htake : (data.drop c).take CHUNK = (data.drop c).take (min CHUNK (data.length - c)) := by
    rw [← List.length_drop, ← List.take_eq_take_min]
  rw [htake, ← List.drop_drop, ← List.take_add, Nat.add_sub_cancel' h]

theorem cursor_chunk (h : min CHUNK (size - c) < n) :
    c + min CHUNK (size - c) +
        min (size - (c + min CHUNK (size - c))) (chunksFor (n - min CHUNK (size - c))) =
      c + min (size - c) (chunksFor n) := by
  by_cases hfull : CHUNK ≤ size - c
  · rw [Nat.min_eq_left hfull] at h ⊢
    rw [chunksFor_more h]
    omega
  · have hn := le_chunksFor n
    omega

theorem read_chunk (hc : fs.contents f.node = some data) (hr : f.readable = true) :
    f.read fs CHUNK = some ((data.drop f.cursor).take CHUNK,
      { f with cursor := f.cursor + min CHUNK (data.length - f.cursor) }) := by
  simp only [HostFile.read, hc, hr, if_true, List.length_take, List.length_drop]

/-- One chunk after the other, up to the end of the file or the chunk that completes
the read. -/
theorem readLoop_eq (hc : fs.contents f.node = some data) (hr : f.readable = true)
    (hlen : got.length < len) :
    readLoop fs f len got =
      (some (got ++ (data.drop f.cursor).take (len - got.length)),
        { f with cursor := f.cursor + min (data.length - f.cursor) (chunksFor (len - got.length)) }) := by
  induction hn : len - got.length using Nat.strong_induction_on generalizing f got with
  | _ n ih =>
    have hchunk : ((data.drop f.cursor).take CHUNK).length = min CHUNK (data.length - f.cursor) := by
      rw [List.length_take, List.length_drop]
    rw [readLoop, read_chunk hc hr]
    simp only [hchunk, List.length_append]
    split
    · rename_i hend
      have hC : CHUNK = 4096 := rfl
      have hnil : data.drop f.cursor = [] := List.drop_eq_nil_of_le (by omega)
      rw [hnil, List.take_nil, List.append_nil]
      congr 3
      omega
    · split
      · rename_i hlong
        rw [List.take_take, hn, Nat.min_eq_left (by omega), chunksFor_one (by omega) (by omega)]
        congr 3
        omega
      · rename_i hshort
        split
        · rename_i hfull
          have hexact : n = min CHUNK (data.length - f.cursor) := by omega
          have htake : (data.drop f.cursor).take CHUNK = (data.drop f.cursor).take n := by
            rw [hexact, ← List.length_drop, ← List.take_eq_take_min]
          rw [htake, chunksFor_one (by omega) (by omega)]
          congr 3
          omega
        · rename_i hmore
          have hlength : (got ++ (data.drop f.cursor).take CHUNK).length < len := by
            rw [List.length_append, hchunk]
            omega
          have hrest := ih (len - (got ++ (data.drop f.cursor).take CHUNK).length)
            (by rw [List.length_append, hchunk]; omega)
            (f := { f with cursor := f.cursor + min CHUNK (data.length - f.cursor) }) hc hr hlength rfl
          have hleft : len - (got.length + min CHUNK (data.length - f.cursor)) =
              n - min CHUNK (data.length - f.cursor) := by omega
          rw [hrest, List.length_append, hchunk, hleft, List.append_assoc,
            take_append_chunk (by omega), cursor_chunk (by omega)]

theorem lt_word {limit : OffsetLimit} (h : n < limit.first) : n < 2 ^ 64 :=
  lt_trans (lt_of_lt_of_le h limit.signed) (by decide)

/-- A read starts at `pos`, wherever the host's cursor is. -/
theorem filePos_read_eq (hc : fs.contents fp.inner.node = some data) (hr : fp.inner.readable = true)
    (hpos : fp.pos.toNat < fp.inner.limit.first) (len : Nat) (hlen : 0 < len) :
    fp.read fs len =
      (if ((data.drop fp.pos.toNat).take len).isEmpty then .ret (-EAGAIN)
        else .bytes ((data.drop fp.pos.toNat).take len),
        { fp with
          inner := { fp.inner with
            cursor := fp.pos.toNat + min (data.length - fp.pos.toNat) (chunksFor len) }
          pos := fp.pos + UInt64.ofNat ((data.drop fp.pos.toNat).take len).length }) := by
  have hseek : (fp.inner.seek (.start fp.pos)).getD fp.inner =
      { fp.inner with cursor := fp.pos.toNat } := by
    simp only [HostFile.seek, HostFile.seekTo]
    rw [if_pos ⟨Int.natCast_nonneg _, Int.ofNat_lt.mpr hpos⟩, Option.getD_some, Int.toNat_natCast]
  rw [FilePos.read, hseek,
    readLoop_eq (f := { fp.inner with cursor := fp.pos.toNat }) hc hr hlen]
  simp only [List.nil_append, List.length_nil, Nat.sub_zero]
  split
  · rfl
  · rfl

theorem chunksFor_eq_iff (hlen : 0 < len) :
    min left (chunksFor len) = min len left ↔ left ≤ len ∨ CHUNK ∣ len := by
  have hle := le_chunksFor len
  constructor
  · intro h
    by_cases hend : left ≤ len
    · exact .inl hend
    · have heq : chunksFor len = len := by omega
      exact .inr ⟨_, heq.symm⟩
  · rintro (h | ⟨k, rfl⟩)
    · omega
    · have heq : chunksFor (CHUNK * k) = CHUNK * k := by
        simp only [chunksFor, CHUNK]
        omega
      rw [heq, Nat.min_comm]

-- ---------------------------------------------------------------------------
-- Agreement
-- ---------------------------------------------------------------------------

def World.filePos (w : World) (ref : Nat) : FilePos := w.kernel.cells.files.read ref

/-- The offset of the description is the `pos` of the file; nothing is said of the
host's cursor. -/
structure Agrees (ref : Nat) (w : World) (d : Description) : Prop where
  memory : w.kernel.memory = d.memory
  fds : w.kernel.fds = d.fds
  regular : Regular (w.filePos ref).inner
  file : (w.filePos ref).isDir = false
  data : w.fs.contents (w.filePos ref).inner.node = some d.data
  offset : (w.filePos ref).pos.toNat = d.offset
  limit : (w.filePos ref).inner.limit = d.limit
  offset_lt : d.offset < d.limit.first
  size_lt : d.data.length < d.limit.first

/-- The host's cursor is where the next byte is due. -/
def Together (ref : Nat) (w : World) : Prop :=
  (w.filePos ref).inner.cursor = (w.filePos ref).pos.toNat

/-- A write of some bytes and a relative seek need the two offsets together. -/
def InStep (ref : Nat) (w : World) : FileCall → Prop
  | .write _ buf len => ∀ bytes, guestSlice w.kernel.memory buf len = .ok bytes → bytes ≠ [] →
      Together ref w
  | .lseek _ _ whence => whence = FilePos.SEEK_CUR → Together ref w
  | _ => True

variable {w w' : World} {d : Description} {ref : Nat}

theorem Agrees.moved (h : Agrees ref w d) (cursor : Nat) (hp : p.toNat = n)
    (hn : n < d.limit.first) {m m' : Option MemoryKind} (hm : m = m') :
    Agrees ref { w.setFile ref { w.filePos ref with
        inner := { (w.filePos ref).inner with cursor }, pos := p } with kernel.memory := m }
      { d with memory := m', offset := n } := by
  refine ⟨hm, h.fds, ?_, ?_, ?_, ?_, ?_, hn, h.size_lt⟩
  all_goals
    simp only [World.filePos, World.setFile, Heap.read_write_same]
  · exact ⟨h.regular.readable, h.regular.writable, h.regular.append⟩
  · exact h.file
  · exact h.data
  · exact hp
  · exact h.limit

theorem Agrees.pos_lt (h : Agrees ref w d) :
    (w.filePos ref).pos.toNat < (w.filePos ref).inner.limit.first := by
  rw [h.offset, h.limit]
  exact h.offset_lt

theorem toNat_add_ofNat (p : UInt64) (h : p.toNat + n < 2 ^ 64) :
    (p + UInt64.ofNat n).toNat = p.toNat + n := by
  rw [UInt64.toNat_add, UInt64.toNat_ofNat']
  omega

theorem read_file (sock : SocketCalls) (hf : w.resourceAt fd = some (.file ref))
    (hs : guestSlice w.kernel.memory buf len = .ok old) (hlen : 0 < len)
    (hread : (w.filePos ref).read w.fs len.toNat = (out, fp)) :
    read sock w fd buf len = ((deliver w.kernel.memory buf len out).1,
      { w.setFile ref fp with kernel.memory := (deliver w.kernel.memory buf len out).2 }) := by
  obtain ⟨f, hu, hr⟩ := Option.bind_eq_some_iff.mp hf
  unfold World.filePos at hread
  simp only [read, hu, hs, if_neg (ne_of_gt hlen), FdTable.get_ok.mpr hr, readFrom, hread]
  rfl

theorem read_error (sock : SocketCalls) (hf : w.resourceAt fd = some (.file ref))
    (hs : guestSlice w.kernel.memory buf len = .error e) : read sock w fd buf len = (e, w) := by
  obtain ⟨f, hu, -⟩ := Option.bind_eq_some_iff.mp hf
  simp only [read, hu, hs]

theorem read_zero (sock : SocketCalls) (hf : w.resourceAt fd = some (.file ref))
    (hs : guestSlice w.kernel.memory buf 0 = .ok old) : read sock w fd buf 0 = (0, w) := by
  obtain ⟨f, hu, -⟩ := Option.bind_eq_some_iff.mp hf
  simp only [read, hu, hs, if_true]

theorem Agrees.read (sock : SocketCalls) (h : Agrees ref w d) (hf : w.resourceAt fd = some (.file ref))
    (buf len : Int) :
    (d.read buf len).1 =
        .bytes (bytesAt (Sys.read sock w fd buf len).2.kernel.memory buf (Sys.read sock w fd buf len).1) ∧
      Agrees ref (Sys.read sock w fd buf len).2 (d.read buf len).2 := by
  unfold Description.read
  rw [← h.memory]
  cases hs : guestSlice w.kernel.memory buf len with
  | error e =>
    rw [read_error sock hf hs]
    simp only [bytesAt_of_le (le_of_lt (guestSlice_error_neg hs))]
    exact ⟨trivial, h⟩
  | ok old =>
    obtain ⟨-, -, -, hlen, -, -⟩ := guestSlice_ok hs
    rcases hlen.eq_or_lt with rfl | hlen
    · rw [read_zero sock hf hs]
      simp only [Int.toNat_zero, List.take_zero, List.isEmpty_nil, if_true, bytesAt_of_le (le_refl 0)]
      exact ⟨trivial, h⟩
    · have hread := filePos_read_eq h.data h.regular.readable
        h.pos_lt len.toNat (by omega)
      rw [h.offset] at hread
      have hgot : ((d.data.drop d.offset).take len.toNat).length ≤ d.data.length - d.offset := by
        rw [List.length_take, List.length_drop]
        omega
      have hlt : d.offset + ((d.data.drop d.offset).take len.toNat).length < d.limit.first := by
        have hsize := h.size_lt
        have hoffset := h.offset_lt
        omega
      have hpos : ((w.filePos ref).pos + UInt64.ofNat
          ((d.data.drop d.offset).take len.toNat).length).toNat =
            d.offset + ((d.data.drop d.offset).take len.toNat).length := by
        rw [toNat_add_ofNat, h.offset]
        rw [h.offset]
        exact lt_word hlt
      rw [read_file sock hf hs hlen hread]
      have hmoved {m m' : Option MemoryKind} (hm : m = m') :=
        h.moved (d.offset + min (d.data.length - d.offset) (chunksFor len.toNat)) hpos hlt hm
      cases hempty : ((d.data.drop d.offset).take len.toNat).isEmpty with
      | true =>
        have hnil := List.isEmpty_iff.mp hempty
        have hsame := hmoved h.memory
        simp only [hempty, if_true, deliver]
        rw [hnil, List.length_nil, Nat.add_zero] at hsame
        rw [bytesAt_of_le (by decide), hnil]
        exact ⟨rfl, hsame⟩
      | false =>
        have htake : ((d.data.drop d.offset).take len.toNat).length ≤ len.toNat :=
          List.length_take_le ..
        obtain ⟨memory', hdeliver, hbytes⟩ := deliver_bytes hs htake
        simp only [hempty, Bool.false_eq_true, if_false, hdeliver, hbytes]
        exact ⟨trivial, hmoved rfl⟩

/-- A read leaves the two offsets together when it reaches the end of the file or asks
for whole chunks, and only then. -/
theorem Agrees.read_together_iff (sock : SocketCalls) (h : Agrees ref w d)
    (hf : w.resourceAt fd = some (.file ref)) (hs : guestSlice w.kernel.memory buf len = .ok old)
    (hlen : 0 < len) :
    Together ref (Sys.read sock w fd buf len).2 ↔
      d.data.length - d.offset ≤ len.toNat ∨ CHUNK ∣ len.toNat := by
  have hread := filePos_read_eq h.data h.regular.readable
    h.pos_lt len.toNat (by omega)
  have hgot : ((d.data.drop d.offset).take len.toNat).length =
      min len.toNat (d.data.length - d.offset) := by
    rw [List.length_take, List.length_drop]
  have hsize := h.size_lt
  have hoffset := h.offset_lt
  have hpos : ((w.filePos ref).pos +
      UInt64.ofNat (min len.toNat (d.data.length - d.offset))).toNat =
        d.offset + min len.toNat (d.data.length - d.offset) := by
    have hlt : d.offset + min len.toNat (d.data.length - d.offset) < d.limit.first := by omega
    rw [toNat_add_ofNat, h.offset]
    rw [h.offset]
    exact lt_word hlt
  rw [h.offset, hgot] at hread
  rw [read_file sock hf hs hlen hread, ← chunksFor_eq_iff (by omega)]
  simp only [Together, World.filePos, World.setFile, Heap.read_write_same]
  rw [show ((w.kernel.cells.files.read ref).pos + _).toNat = _ from hpos]
  omega

theorem Agrees.refreshed (h : Agrees ref w d) : Agrees ref (w.setFile ref (w.filePos ref)) d := by
  refine ⟨h.memory, h.fds, ?_, ?_, ?_, ?_, ?_, h.offset_lt, h.size_lt⟩
  all_goals
    simp only [World.filePos, World.setFile, Heap.read_write_same]
  · exact h.regular
  · exact h.file
  · exact h.data
  · exact h.offset
  · exact h.limit

theorem overwrite_length (data : List UInt8) (start : Nat) (bytes : List UInt8) :
    (overwrite data start bytes).length = max data.length (start + bytes.length) := by
  have hfits : (data ++ List.replicate (start - data.length) (0 : UInt8)).length =
      max data.length start := by
    rw [List.length_append, List.length_replicate]
    omega
  simp only [overwrite, LinearMemory.splice, List.length_append, List.length_take,
    List.length_drop, hfits]
  omega

theorem Agrees.written (h : Agrees ref w d) (bytes : List UInt8)
    (hlt : d.offset + n < d.limit.first) (hn : bytes.length ≤ n) :
    Agrees ref ({ w with
        fs := w.fs.put (w.filePos ref).inner.node (overwrite d.data d.offset bytes) }.setFile ref
          { w.filePos ref with
            inner := { (w.filePos ref).inner with cursor := d.offset + n }
            pos := (w.filePos ref).pos + UInt64.ofNat n })
      { d with
        data := overwrite d.data d.offset bytes
        offset := d.offset + n } := by
  refine ⟨h.memory, h.fds, ?_, ?_, ?_, ?_, ?_, hlt, ?_⟩
  all_goals
    simp only [World.filePos, World.setFile, Heap.read_write_same]
  · exact ⟨h.regular.readable, h.regular.writable, h.regular.append⟩
  · exact h.file
  · exact Function.update_self ..
  · have hoffset : (w.kernel.cells.files.read ref).pos.toNat = d.offset := h.offset
    rw [toNat_add_ofNat, hoffset]
    rw [hoffset]
    exact lt_word hlt
  · exact h.limit
  · have hsize := h.size_lt
    rw [overwrite_length]
    omega

theorem write_file (sock : SocketCalls) (hf : w.resourceAt fd = some (.file ref))
    (hs : guestSlice w.kernel.memory buf len = .ok bytes) (hne : bytes.length ≠ 0)
    (hwrite : (w.filePos ref).write w.fs bytes = (n, fp, fs)) :
    write sock w fd buf len = (n, World.setFile { w with fs } ref fp) := by
  obtain ⟨f, hu, hr⟩ := Option.bind_eq_some_iff.mp hf
  unfold World.filePos at hwrite
  simp only [write, hu, hs, if_neg hne, FdTable.get_ok.mpr hr, writeTo, hwrite, Option.getD_some]

theorem write_refused (sock : SocketCalls) (hf : w.resourceAt fd = some (.file ref))
    (hs : guestSlice w.kernel.memory buf len = .error e) : write sock w fd buf len = (e, w) := by
  obtain ⟨f, hu, -⟩ := Option.bind_eq_some_iff.mp hf
  simp only [write, hu, hs]

theorem write_empty (sock : SocketCalls) (hf : w.resourceAt fd = some (.file ref))
    (hs : guestSlice w.kernel.memory buf len = .ok bytes) (hne : bytes.length = 0) :
    write sock w fd buf len = (0, w) := by
  obtain ⟨f, hu, -⟩ := Option.bind_eq_some_iff.mp hf
  simp only [write, hu, hs, if_pos hne]

theorem Agrees.write (sock : SocketCalls) (h : Agrees ref w d)
    (hf : w.resourceAt fd = some (.file ref)) (hin : InStep ref w (.write fd buf len)) :
    (d.write buf len).1 = .value (Sys.write sock w fd buf len).1 ∧
      Agrees ref (Sys.write sock w fd buf len).2 (d.write buf len).2 := by
  unfold Description.write
  rw [← h.memory]
  cases hs : guestSlice w.kernel.memory buf len with
  | error e =>
    rw [write_refused sock hf hs]
    exact ⟨rfl, h⟩
  | ok bytes =>
    by_cases hne : bytes.length = 0
    · rw [write_empty sock hf hs hne]
      simp only [if_pos hne]
      exact ⟨trivial, h⟩
    · have htogether := hin bytes hs (fun hnil => hne (by rw [hnil]; rfl))
      have hstart : (w.filePos ref).inner.writeStart d.data = d.offset := by
        rw [HostFile.writeStart, h.regular.append, if_neg Bool.false_ne_true, htogether, h.offset]
      simp only [if_neg hne]
      by_cases hzero : min bytes.length (d.limit.first - 1 - d.offset) = 0
      · have hwrite : (w.filePos ref).write w.fs bytes = (- Errno.EIO, w.filePos ref, w.fs) := by
          simp only [FilePos.write, HostFile.write, h.data, hstart, h.limit, hzero, ne_eq, not_true_eq_false,
            decide_false, Bool.and_false, Bool.false_eq_true, if_false]
        rw [write_file sock hf hs hne hwrite]
        simp only [if_pos hzero]
        exact ⟨trivial, h.refreshed⟩
      · have hwrite : (w.filePos ref).write w.fs bytes =
            (((min bytes.length (d.limit.first - 1 - d.offset) : Nat) : Int),
              { w.filePos ref with
                inner := { (w.filePos ref).inner with
                  cursor := d.offset + min bytes.length (d.limit.first - 1 - d.offset) }
                pos := (w.filePos ref).pos +
                  UInt64.ofNat (min bytes.length (d.limit.first - 1 - d.offset)) },
              w.fs.put (w.filePos ref).inner.node (overwrite d.data d.offset
                (bytes.take (min bytes.length (d.limit.first - 1 - d.offset))))) := by
          simp only [FilePos.write, HostFile.write, h.data, hstart, h.limit, hzero, h.regular.writable, ne_eq,
            not_false_eq_true, decide_true, Bool.and_self, if_true, overwrite, HostFs.put]
        rw [write_file sock hf hs hne hwrite]
        simp only [if_neg hzero]
        rw [h.memory]
        refine ⟨trivial, h.written _ ?_ ?_⟩
        · omega
        · rw [List.length_take]
          omega

theorem lseek_file (hf : w.resourceAt fd = some (.file ref))
    (hseek : (w.filePos ref).lseek w.fs offset whence = (n, fp)) :
    lseek w fd offset whence = (n, w.setFile ref fp) := by
  obtain ⟨f, hu, hr⟩ := Option.bind_eq_some_iff.mp hf
  unfold World.filePos at hseek
  simp only [lseek, hu, FdTable.get_ok.mpr hr, hseek]

theorem seek_startAt_max (f : HostFile) (hv : v < 9223372036854775808) :
    f.seek (FilePos.startAt v) = f.seekTo (max v 0) := by
  have hnat : (UInt64.ofNat (max v 0).toNat).toNat = (max v 0).toNat := by
    rw [UInt64.toNat_ofNat']
    omega
  simp only [FilePos.startAt, HostFile.seek, hnat]
  congr 1
  omega

theorem bmod_lt (v : Int) : Int.bmod v (2 ^ 64) < 9223372036854775808 := by
  have hlt := Int.bmod_lt (x := v) (Nat.two_pow_pos 64)
  omega

/-- What the source computes for a seek is where the description goes. -/
theorem Agrees.seekFrom (h : Agrees ref w d) (offset : Int64)
    (hin : whence = FilePos.SEEK_CUR → Together ref w) :
    ((w.filePos ref).seekFrom w.fs offset.toInt whence).bind (w.filePos ref).inner.seek =
      (d.target offset.toInt whence).bind (w.filePos ref).inner.seekTo := by
  have hoffset : offset.toInt < 9223372036854775808 := by
    have hlt := Int64.toInt_lt offset
    omega
  rw [FilePos.seekFrom, Description.target]
  by_cases hset : whence = FilePos.SEEK_SET
  · rw [if_pos hset, if_pos hset, Option.bind_some, Option.bind_some]
    exact seek_startAt_max _ hoffset
  · rw [if_neg hset, if_neg hset]
    by_cases hcur : whence = FilePos.SEEK_CUR
    · have htogether := hin hcur
      rw [if_pos hcur, if_pos hcur, Option.bind_some, Option.bind_some, HostFile.seek, htogether,
        h.offset]
    · rw [if_neg hcur, if_neg hcur]
      by_cases hend : whence = FilePos.SEEK_END
      · have hlen : (w.filePos ref).inner.len w.fs = d.data.length := by
          rw [HostFile.len, h.data, Option.map_some, Option.getD_some]
        rw [if_pos hend, if_pos hend, Option.bind_some, Option.bind_some, hlen]
        exact seek_startAt_max _ (bmod_lt _)
      · rw [if_neg hend, if_neg hend]
        rfl

theorem Agrees.lseek (h : Agrees ref w d) (hf : w.resourceAt fd = some (.file ref))
    (offset : Int64) (hin : whence = FilePos.SEEK_CUR → Together ref w) :
    (d.lseek offset.toInt whence).1 = .value (Sys.lseek w fd offset.toInt whence).1 ∧
      Agrees ref (Sys.lseek w fd offset.toInt whence).2 (d.lseek offset.toInt whence).2 := by
  have hseek : (w.filePos ref).lseek w.fs offset.toInt whence =
      ((d.target offset.toInt whence).bind (w.filePos ref).inner.seekTo).elim (-EINVAL, w.filePos ref)
        fun inner => (inner.cursor, { w.filePos ref with inner, pos := UInt64.ofNat inner.cursor }) := by
    have hfile : (w.filePos ref).isDir = false := h.file
    cases ht : (d.target offset.toInt whence).bind (w.filePos ref).inner.seekTo with
    | none =>
      simp only [FilePos.lseek, hfile, Bool.false_eq_true, if_false, h.seekFrom offset hin, ht, Option.elim_none]
    | some inner =>
      simp only [FilePos.lseek, hfile, Bool.false_eq_true, if_false, h.seekFrom offset hin, ht, Option.elim_some]
  unfold Description.lseek
  cases ht : d.target offset.toInt whence with
  | none =>
    simp only [ht, Option.bind_none, Option.elim_none] at hseek
    rw [lseek_file hf hseek]
    exact ⟨rfl, h.refreshed⟩
  | some t =>
    simp only [ht, Option.bind_some, HostFile.seekTo] at hseek
    simp only
    split
    · rename_i hrange
      have haccepted := hrange
      rw [← h.limit] at haccepted
      rw [if_pos haccepted, Option.elim_some] at hseek
      rw [lseek_file hf hseek]
      refine ⟨?_, ?_⟩
      · simp only [Int.toNat_of_nonneg hrange.1]
      · have hlt : t.toNat < d.limit.first := by omega
        have hpos : (UInt64.ofNat t.toNat).toNat = t.toNat := by
          rw [UInt64.toNat_ofNat']
          exact Nat.mod_eq_of_lt (lt_word hlt)
        exact h.moved t.toNat hpos hlt h.memory
    · rename_i hrange
      rw [← h.limit] at hrange
      rw [if_neg hrange, Option.elim_none] at hseek
      rw [lseek_file hf hseek]
      exact ⟨rfl, h.refreshed⟩

theorem Agrees.withTable (h : Agrees ref w d) (t : FdTable) :
    Agrees ref { w with kernel.fds := t } { d with fds := t } :=
  ⟨h.memory, rfl, h.regular, h.file, h.data, h.offset, h.limit, h.offset_lt, h.size_lt⟩

theorem Agrees.run (sock : SocketCalls) (h : Agrees ref w d) (hin : InStep ref w c)
    (hfd : ∀ fd ∈ c.fd?, w.resourceAt fd = some (.file ref)) (hs : c.run sock w = some (seen, w')) :
    ∃ d', d.run c = some (seen, d') ∧ Agrees ref w' d' := by
  cases c with
  | store ptr bytes =>
    cases hs
    refine ⟨{ d with memory := (Sys.store w.kernel.memory ptr bytes).2 }, ?_, ?_⟩
    · rw [Description.run, ← h.memory]
      rfl
    · exact ⟨rfl, h.fds, h.regular, h.file, h.data, h.offset, h.limit, h.offset_lt, h.size_lt⟩
  | read fd buf len =>
    obtain ⟨hseen, hagrees⟩ := h.read sock (hfd fd rfl) buf len
    cases hs
    exact ⟨_, congrArg some (Prod.ext hseen rfl), hagrees⟩
  | write fd buf len =>
    obtain ⟨hseen, hagrees⟩ := h.write sock (hfd fd rfl) hin
    cases hs
    exact ⟨_, congrArg some (Prod.ext hseen rfl), hagrees⟩
  | lseek fd offset whence =>
    obtain ⟨hseen, hagrees⟩ := h.lseek (hfd fd rfl) offset hin
    cases hs
    exact ⟨_, congrArg some (Prod.ext hseen rfl), hagrees⟩
  | dup oldfd =>
    obtain ⟨⟨n, t⟩, hdup, hs⟩ := Option.map_eq_some_iff.mp hs
    cases hs
    refine ⟨_, ?_, h.withTable t⟩
    rw [Description.run, ← h.fds, hdup]
    rfl
  | dup2 oldfd newfd =>
    obtain ⟨⟨n, t⟩, hdup, hs⟩ := Option.map_eq_some_iff.mp hs
    cases hs
    refine ⟨_, ?_, h.withTable t⟩
    rw [Description.run, ← h.fds, hdup]
    rfl
  | close fd =>
    cases hs
    refine ⟨_, ?_, h.withTable _⟩
    rw [Description.run, ← h.fds]
    rfl

theorem Agrees.step (sock : SocketCalls) (h : Agrees ref w d) (hin : InStep ref w c)
    (hs : fileNext sock ref w c = some (o, w')) :
    ∃ d', d.next ref c = some (o, d') ∧ Agrees ref w' d' := by
  unfold fileNext at hs
  split at hs
  · rename_i hfd
    obtain ⟨⟨seen, u⟩, hrun, hs⟩ := Option.map_eq_some_iff.mp hs
    cases hs
    obtain ⟨d', hrun', hagrees⟩ := h.run sock hin hfd hrun
    refine ⟨d', ?_, hagrees⟩
    unfold World.resourceAt at hfd
    rw [h.fds] at hfd
    have hdata := hagrees.data
    unfold World.filePos at hdata
    rw [Description.next, if_pos hfd, hrun', hdata]
    rfl
  · cases hs

/-- A file just opened for reading and writing, without `O_APPEND`. -/
structure Opened (ref : Nat) (w : World) (data : List UInt8) : Prop where
  regular : Regular (w.filePos ref).inner
  file : (w.filePos ref).isDir = false
  contents : w.fs.contents (w.filePos ref).inner.node = some data
  cursor : (w.filePos ref).inner.cursor = 0
  pos : (w.filePos ref).pos = 0
  size_lt : data.length < (w.filePos ref).inner.limit.first

def Description.opened (ref : Nat) (w : World) (data : List UInt8) : Description where
  memory := w.kernel.memory
  fds := w.kernel.fds
  data := data
  offset := 0
  limit := (w.filePos ref).inner.limit

theorem Opened.agrees (h : Opened ref w data) : Agrees ref w (.opened ref w data) :=
  ⟨rfl, rfl, h.regular, h.file, h.contents, by rw [h.pos]; rfl, rfl,
    lt_trans Nat.two_pos (w.filePos ref).inner.limit.room, h.size_lt⟩

/-- As long as every write of some bytes and every relative seek finds the host's
cursor at `pos`, the descriptors of a file show what one offset shows. -/
theorem one_offset (sock : SocketCalls) (h : Opened ref w data)
    (hm : RunMeets (silent (fileNext sock ref)) (InStep ref) w calls)
    (hrun : traceFrom (fileNext sock ref) w calls = some (os, w')) :
    ∃ d', traceFrom (Description.next ref) (.opened ref w data) calls = some (os, d') := by
  have hstep : ∀ w d c o w', Agrees ref w d → InStep ref w c → fileNext sock ref w c = some (o, w') →
      ∃ d', Description.next ref d c = some (o, d') ∧ Agrees ref w' d' := by
    intro w d c o w' hagrees hin hs
    exact hagrees.step sock hin hs
  obtain ⟨d', htrace, -⟩ := trace_refines hstep h.agrees hm hrun
  exact ⟨d', htrace⟩

theorem fileNext_read (sock : SocketCalls) (hfd : w.resourceAt fd = some (.file ref))
    (hs : guestSlice w.kernel.memory buf len = .ok old) (hlen : 0 < len)
    (hread : (w.filePos ref).read w.fs len.toNat = (.bytes (b :: rest), fp))
    (hshort : (b :: rest).length ≤ len.toNat) :
    ∃ m, guestSlice m buf (b :: rest).length = .ok (b :: rest) ∧ fileNext sock ref w (.read fd buf len) =
      some ((.bytes (b :: rest), w.fs.contents fp.inner.node), { w.setFile ref fp with kernel.memory := m }) := by
  obtain ⟨m, hdeliver, hbytes⟩ := deliver_bytes hs hshort
  have hcall := read_file sock hfd hs hlen hread
  rw [hdeliver] at hcall
  have hfds : ∀ f ∈ (FileCall.read fd buf len).fd?, w.resourceAt f = some (.file ref) := by
    rintro f ⟨rfl⟩
    exact hfd
  refine ⟨m, guestSlice_of_bytesAt hbytes, ?_⟩
  rw [fileNext, if_pos hfds, FileCall.run, hcall]
  simp only [Option.map_some, hbytes, World.setFile, Heap.read_write_same]

theorem fileNext_write (sock : SocketCalls) (hfd : w.resourceAt fd = some (.file ref))
    (hs : guestSlice w.kernel.memory buf len = .ok bytes) (hne : bytes.length ≠ 0)
    (hwrite : (w.filePos ref).write w.fs bytes = (n, fp, fs)) :
    fileNext sock ref w (.write fd buf len) =
      some ((.value n, fs.contents fp.inner.node), World.setFile { w with fs } ref fp) := by
  have hfds : ∀ f ∈ (FileCall.write fd buf len).fd?, w.resourceAt f = some (.file ref) := by
    rintro f ⟨rfl⟩
    exact hfd
  rw [fileNext, if_pos hfds, FileCall.run, write_file sock hfd hs hne hwrite]
  simp only [Option.map_some, World.setFile, Heap.read_write_same]

theorem fileNext_lseek (sock : SocketCalls) (hfd : w.resourceAt fd = some (.file ref)) (offset : Int64) (whence : Int)
    (hseek : (w.filePos ref).lseek w.fs offset.toInt whence = (n, fp)) :
    fileNext sock ref w (.lseek fd offset whence) =
      some ((.value n, w.fs.contents fp.inner.node), w.setFile ref fp) := by
  have hfds : ∀ f ∈ (FileCall.lseek fd offset whence).fd?, w.resourceAt f = some (.file ref) := by
    rintro f ⟨rfl⟩
    exact hfd
  rw [fileNext, if_pos hfds, FileCall.run, lseek_file hfd hseek]
  simp only [Option.map_some, World.setFile, Heap.read_write_same]

-- ---------------------------------------------------------------------------
-- A file of two bytes
-- ---------------------------------------------------------------------------

def twoBytes : World :=
  let k := Kernel.new [] [] { root := "/", cwd := "/" } (Vector.replicate 32 0)
  let file := FilePos.new { node := 0, cursor := 0, readable := true, writable := true, append := false }
  { kernel := { k with
      memory := some (.owned .zeroPage)
      fds := (k.fds.insert (.file 0)).2
      cells := { k.cells with files := (k.cells.files.alloc file).2 } }
    fs := { contents := fun _ => some [7, 8] } }

theorem twoBytes_opened : Opened 0 twoBytes [7, 8] :=
  ⟨⟨rfl, rfl, rfl⟩, rfl, rfl, rfl, rfl, by decide⟩

theorem twoBytes_at_three : twoBytes.resourceAt 3 = some (.file 0) := by decide

theorem twoBytes_buffer (n : Nat) (hn : 0 + n ≤ 65536) :
    ∃ old, guestSlice twoBytes.kernel.memory 0 n = .ok old :=
  ⟨_, guestSlice_of_load (LinearMemory.zeroPage_load hn) (le_refl n)⟩

/-- The same guest with the file's two offsets at these places. -/
def twoBytesAt (m : Option MemoryKind) (cursor : Nat) (pos : UInt64) : World :=
  { twoBytes.setFile 0 { twoBytes.filePos 0 with
      inner := { (twoBytes.filePos 0).inner with cursor }, pos } with
    kernel.memory := m }

theorem twoBytesAt_three (m : Option MemoryKind) (cursor : Nat) (pos : UInt64) :
    (twoBytesAt m cursor pos).resourceAt 3 = some (.file 0) := twoBytes_at_three

/-- After a read of the whole file the two offsets are together; what is written goes
behind it, and a seek from the start goes anywhere. -/
theorem one_offset_written :
    ∃ os w', traceFrom (fileNext noSockets 0) twoBytes [.read 3 0 2, .write 3 0 2, .lseek 3 1 0] = some (os, w') ∧
      os = [(.bytes [7, 8], some [7, 8]), (.value 2, some [7, 8, 7, 8]), (.value 1, some [7, 8, 7, 8])] ∧
      ∃ d', traceFrom (Description.next 0) (.opened 0 twoBytes [7, 8]) [.read 3 0 2, .write 3 0 2, .lseek 3 1 0] =
        some (os, d') := by
  obtain ⟨old, hslice⟩ := twoBytes_buffer 2 (by decide)
  have hpos : (twoBytes.filePos 0).pos.toNat < (twoBytes.filePos 0).inner.limit.first := Nat.two_pow_pos 63
  obtain ⟨m, hm, hread⟩ : ∃ m, guestSlice m 0 2 = .ok [7, 8] ∧ fileNext noSockets 0 twoBytes (.read 3 0 2) =
      some ((.bytes [7, 8], some [7, 8]), twoBytesAt m 2 2) :=
    fileNext_read noSockets twoBytes_at_three hslice (by decide)
      ((filePos_read_eq twoBytes_opened.contents rfl hpos 2 (by decide)).trans rfl) (by decide)
  have htogether : Together 0 (twoBytesAt m 2 2) := rfl
  obtain ⟨w, hwrite, hfd, fp, hlseek, hdata⟩ : ∃ w, fileNext noSockets 0 (twoBytesAt m 2 2) (.write 3 0 2) =
      some ((.value 2, some [7, 8, 7, 8]), w) ∧ w.resourceAt 3 = some (.file 0) ∧
        ∃ fp, (w.filePos 0).lseek w.fs (1 : Int64).toInt 0 = (1, fp) ∧
          w.fs.contents fp.inner.node = some [7, 8, 7, 8] :=
    ⟨_, fileNext_write noSockets (twoBytesAt_three m 2 2) hm (by decide) rfl, twoBytes_at_three, _, rfl, rfl⟩
  have hseek := fileNext_lseek noSockets hfd 1 0 hlseek
  rw [hdata] at hseek
  have hrun : traceFrom (fileNext noSockets 0) twoBytes [.read 3 0 2, .write 3 0 2, .lseek 3 1 0] = some (_, _) :=
    traceFrom_cons hread (traceFrom_cons hwrite (traceFrom_cons hseek rfl))
  refine ⟨_, _, hrun, rfl, one_offset noSockets twoBytes_opened ?_ hrun⟩
  refine ⟨trivial, fun w₁ h₁ => ⟨fun _ _ _ => ?_, fun w₂ _ => ?_⟩⟩
  · rw [silent, hread] at h₁
    cases h₁
    exact htogether
  · exact ⟨fun h => absurd h (by decide), fun _ _ => trivial⟩

/-- A read of one byte leaves the host's cursor behind the second. -/
theorem twoBytes_read : ∃ m, fileNext noSockets 0 twoBytes (.read 3 0 1) =
    some ((.bytes [7], some [7, 8]), twoBytesAt m 2 1) := by
  obtain ⟨old, hslice⟩ := twoBytes_buffer 1 (by decide)
  have hpos : (twoBytes.filePos 0).pos.toNat < (twoBytes.filePos 0).inner.limit.first := Nat.two_pow_pos 63
  obtain ⟨m, -, hread⟩ := fileNext_read noSockets twoBytes_at_three hslice (by decide)
    ((filePos_read_eq twoBytes_opened.contents rfl hpos 1 (by decide)).trans rfl) (by decide)
  exact ⟨m, hread⟩

theorem one_description (h : Description.next 0 (.opened 0 twoBytes [7, 8]) (.read 3 0 1) = some (o, d)) :
    d.offset = 1 ∧ d.fds = twoBytes.kernel.fds := by
  obtain ⟨old, hbuffer⟩ := twoBytes_buffer 1 (by decide)
  have hslice : guestSlice twoBytes.kernel.memory 0 1 = .ok old := hbuffer
  have hfd : ∀ fd ∈ (FileCall.read 3 0 1).fd?,
      (u32Fd fd).bind (Description.opened 0 twoBytes [7, 8]).fds.table.get? = some (.file 0) := by
    rintro fd ⟨rfl⟩
    exact twoBytes_at_three
  rw [Description.next, if_pos hfd, Description.run, Description.read,
    show (Description.opened 0 twoBytes [7, 8]).memory = twoBytes.kernel.memory from rfl, hslice] at h
  cases h
  exact ⟨rfl, rfl⟩

theorem offset_zero : (0 : Int64).toInt = 0 := rfl

theorem tell_eq (sock : SocketCalls) (hfd : w.resourceAt 3 = some (.file 0))
    (hdir : (w.filePos 0).isDir = false) (hcursor : (w.filePos 0).inner.cursor = 2) :
    ∃ contents w', fileNext sock 0 w (.lseek 3 0 FilePos.SEEK_CUR) =
      some ((.value 2, contents), w') := by
  have hsmall := (w.filePos 0).inner.limit.room
  have htell : ((w.filePos 0).lseek w.fs (0 : Int64).toInt FilePos.SEEK_CUR).1 = 2 := by
    rw [offset_zero, lseek_cur hdir, hcursor, if_pos hsmall]
    rfl
  exact ⟨_, _, fileNext_lseek sock hfd 0 FilePos.SEEK_CUR (Prod.ext htell rfl)⟩

/-- After a read of one byte of two, a seek by nothing tells two. -/
theorem two_offsets :
    Opened 0 twoBytes [7, 8] ∧
      ∃ os w', traceFrom (fileNext noSockets 0) twoBytes [.read 3 0 1, .lseek 3 0 FilePos.SEEK_CUR] =
          some (os, w') ∧
        ∀ d', traceFrom (Description.next 0) (.opened 0 twoBytes [7, 8])
          [.read 3 0 1, .lseek 3 0 FilePos.SEEK_CUR] ≠ some (os, d') := by
  obtain ⟨m, hread⟩ := twoBytes_read
  obtain ⟨contents, w', htell⟩ := tell_eq noSockets
    (twoBytesAt_three m 2 1) rfl rfl
  refine ⟨twoBytes_opened, _, _, traceFrom_cons hread (traceFrom_cons htell rfl), fun d' htrace => ?_⟩
  obtain ⟨o, d₁, os, hfirst, hrest, hos⟩ := traceFrom_cons_some htrace
  obtain ⟨o', d₂, os', hsecond, -, rfl⟩ := traceFrom_cons_some hrest
  obtain ⟨hoffset, hfds⟩ := one_description hfirst
  have hone : d₁.lseek 0 FilePos.SEEK_CUR = (.value 1, { d₁ with offset := 1 }) := by
    have hroom : ((1 : Nat) : Int) + 0 < d₁.limit.first := by
      have hroom := d₁.limit.room
      omega
    rw [Description.lseek, Description.target, if_neg (by decide), if_pos rfl, hoffset]
    exact if_pos ⟨by decide, hroom⟩
  unfold Description.next at hsecond
  split at hsecond
  · rw [Description.run, offset_zero, hone] at hsecond
    cases hsecond
    cases hos
  · cases hsecond

end Sys

end EdgeLibos
