import EdgeLibos.Sys.Offset

/-!
# Reading and seeking in a regular file

A host may return fewer bytes than it was asked for, as long as it returns some. A read
collects its bytes whatever the host's portions are, but at the end of the file it has
none and then asks to try again, as an empty pipe does. A seek clamps a negative target
where it counts from the start or the end of the file, and counts from the host's cursor
where it should count from `pos`.
-/

namespace EdgeLibos

open Errno Lib

-- ---------------------------------------------------------------------------
-- Short reads
-- ---------------------------------------------------------------------------

/-- A host read of at most `quota` bytes; where there are bytes it returns at least one. -/
def HostFile.readSome (fs : HostFs) (f : HostFile) (n quota : Nat) : Option (List UInt8 × HostFile) :=
  f.read fs (min n (max 1 quota))

/-- The loop of `read` on a host that returns portions: `quotas i` bounds its `i`-th. -/
def readPortions (fs : HostFs) (quotas : Nat → Nat) (f : HostFile) (len : Nat) (got : List UInt8) :
    Option (List UInt8) × HostFile :=
  match f.readSome fs CHUNK (quotas 0) with
  | none => (none, f)
  | some (chunk, f) =>
    if chunk.length = 0 then (some got, f)
    else if chunk.length > len - got.length then (some (got ++ chunk.take (len - got.length)), f)
    else if (got ++ chunk).length ≥ len then (some (got ++ chunk), f)
    else readPortions fs (fun i => quotas (i + 1)) f len (got ++ chunk)
termination_by len - got.length
decreasing_by
  simp only [List.length_append] at *
  omega

namespace FilePos

/-- `FilePos.read` on such a host. -/
def readPortions (fs : HostFs) (quotas : Nat → Nat) (fp : FilePos) (len : Nat) : Outcome × FilePos :=
  let inner := (fp.inner.seek (.start fp.pos)).getD fp.inner
  match EdgeLibos.readPortions fs quotas inner len [] with
  | (none, inner) => (.ret (-EACCES), { fp with inner })
  | (some got, inner) =>
    let fp := { fp with inner, pos := fp.pos + UInt64.ofNat got.length }
    if got.isEmpty then (.ret (-EAGAIN), fp) else (.bytes got, fp)

end FilePos

namespace Sys

def readPortionsFrom (quotas : Nat → Nat) (w : World) (fd : UInt32) (len : Nat) :
    Resource → Option (Outcome × World)
  | .file ref =>
    let (out, fp) := (w.filePos ref).readPortions w.fs quotas len
    some (out, w.setFile ref fp)
  | r => readFrom w fd len r

/-- `read` on a host that returns portions. -/
def readPortions (sock : SocketCalls) (quotas : Nat → Nat) (w : World) (fd buf len : Int) :
    Int × World :=
  match u32Fd fd with
  | none => (-EBADF, w)
  | some f =>
    match guestSlice w.kernel.memory buf len with
    | .error e => (e, w)
    | .ok _ =>
      if len = 0 then (0, w)
      else
        match w.kernel.fds.get f with
        | .error e => (e, w)
        | .ok r =>
          match readPortionsFrom quotas w f len.toNat r with
          | none => sock.recvfrom w fd buf len
          | some (out, w) =>
            let (n, memory) := deliver w.kernel.memory buf len out
            (n, { w with kernel.memory := memory })

end Sys

-- ---------------------------------------------------------------------------
-- Whole chunks
-- ---------------------------------------------------------------------------

variable {fs : HostFs} {f : HostFile} {fp : FilePos} {data : List UInt8}

theorem readPortions_chunks (fs : HostFs) (f : HostFile) (len : Nat) (got : List UInt8) :
    readPortions fs (fun _ => CHUNK) f len got = readLoop fs f len got := by
  have hsome (f : HostFile) : f.readSome fs CHUNK CHUNK = f.read fs CHUNK := rfl
  fun_induction readLoop fs f len got with
  | case1 f got hread => rw [readPortions, hsome, hread]
  | case2 f got chunk f' hread hzero =>
    rw [readPortions, hsome, hread]
    simp only [if_pos hzero]
  | case3 f got chunk f' hread hzero hlong =>
    rw [readPortions, hsome, hread]
    simp only [if_neg hzero, if_pos hlong]
  | case4 f got chunk f' hread hzero hlong hfull =>
    rw [readPortions, hsome, hread]
    simp only [if_neg hzero, if_neg hlong, if_pos hfull]
  | case5 f got chunk f' hread hzero hlong hfull ih =>
    rw [readPortions, hsome, hread]
    simp only [if_neg hzero, if_neg hlong, if_neg hfull]
    exact ih

theorem Sys.readPortions_eq_read (sock : SocketCalls) (w : World) (fd buf len : Int) :
    Sys.readPortions sock (fun _ => CHUNK) w fd buf len = Sys.read sock w fd buf len := by
  have hfrom : readPortionsFrom (fun _ => CHUNK) w = readFrom w := by
    funext f n r
    cases r with
    | file ref =>
      rw [readPortionsFrom, readFrom, FilePos.readPortions, FilePos.read, EdgeLibos.readPortions_chunks]
      rfl
    | _ => rfl
  rw [Sys.readPortions, hfrom]
  rfl

-- ---------------------------------------------------------------------------
-- What a read collects
-- ---------------------------------------------------------------------------

theorem readSome_eq (hc : fs.contents f.node = some data) (hr : f.readable = true) (n quota : Nat) :
    f.readSome fs n quota = some ((data.drop f.cursor).take (min n (max 1 quota)),
      { f with cursor := f.cursor + min (min n (max 1 quota)) (data.length - f.cursor) }) := by
  simp only [HostFile.readSome, HostFile.read, hc, hr, if_true, List.length_take, List.length_drop]

/-- Whatever the portions are, the loop ends with the bytes from the cursor on, as many
as it wants and as there are. -/
theorem readPortions_fst (hc : fs.contents f.node = some data) (hr : f.readable = true)
    (quotas : Nat → Nat) (hlen : got.length < len) :
    (readPortions fs quotas f len got).1 =
      some (got ++ (data.drop f.cursor).take (len - got.length)) := by
  induction hn : len - got.length using Nat.strong_induction_on generalizing f got quotas with
  | _ n ih =>
    have hC : CHUNK = 4096 := rfl
    generalize hk : min CHUNK (max 1 (quotas 0)) = k
    have hchunk : ((data.drop f.cursor).take k).length = min k (data.length - f.cursor) := by
      rw [List.length_take, List.length_drop]
    rw [readPortions, readSome_eq hc hr, hk]
    simp only [hchunk, List.length_append]
    split
    · rename_i hend
      have hnil : data.drop f.cursor = [] := List.drop_eq_nil_of_le (by omega)
      rw [hnil, List.take_nil, List.append_nil]
    · split
      · rename_i hlong
        rw [List.take_take, hn, Nat.min_eq_left (by omega)]
      · rename_i hshort
        split
        · rename_i hfull
          have hexact : n = min k (data.length - f.cursor) := by omega
          have htake : (data.drop f.cursor).take k = (data.drop f.cursor).take n := by
            rw [hexact, ← List.length_drop, ← List.take_eq_take_min]
          rw [htake]
        · rename_i hmore
          have hlength : (got ++ (data.drop f.cursor).take k).length < len := by
            rw [List.length_append, hchunk]
            omega
          have hrest := ih (len - (got ++ (data.drop f.cursor).take k).length)
            (by rw [List.length_append, hchunk]; omega)
            (f := { f with cursor := f.cursor + min k (data.length - f.cursor) }) hc hr
            (fun i => quotas (i + 1)) hlength rfl
          have htake : (data.drop f.cursor).take k =
              (data.drop f.cursor).take (min k (data.length - f.cursor)) := by
            rw [← List.length_drop, ← List.take_eq_take_min]
          have hleft : len - (got ++ (data.drop f.cursor).take k).length =
              n - min k (data.length - f.cursor) := by
            rw [List.length_append, hchunk]
            omega
          rw [hrest, hleft, List.append_assoc, htake, ← List.drop_drop, ← List.take_add,
            Nat.add_sub_cancel' (by omega)]

/-- The cursor that the loop starts from: `pos`, or where it was when the host refuses
to go there. -/
def FilePos.readStart (fp : FilePos) : Nat :=
  if fp.pos.toNat < fp.inner.limit.first then fp.pos.toNat else fp.inner.cursor

theorem seek_readStart (fp : FilePos) :
    (fp.inner.seek (.start fp.pos)).getD fp.inner = { fp.inner with cursor := fp.readStart } := by
  simp only [HostFile.seek, HostFile.seekTo, FilePos.readStart]
  by_cases hpos : fp.pos.toNat < fp.inner.limit.first
  · rw [if_pos ⟨Int.natCast_nonneg _, Int.ofNat_lt.mpr hpos⟩, if_pos hpos, Option.getD_some,
      Int.toNat_natCast]
  · have hnot : ¬ (0 ≤ (fp.pos.toNat : Int) ∧ (fp.pos.toNat : Int) < fp.inner.limit.first) :=
      fun h => hpos (Int.ofNat_lt.mp h.2)
    rw [if_neg hnot, if_neg hpos, Option.getD_none]

theorem filePos_readPortions (hc : fs.contents fp.inner.node = some data)
    (hr : fp.inner.readable = true) (quotas : Nat → Nat) (hlen : 0 < len) :
    ∃ inner, fp.readPortions fs quotas len =
      (if (data.drop fp.readStart).take len = [] then .ret (-EAGAIN)
        else .bytes ((data.drop fp.readStart).take len),
        { fp with
          inner
          pos := fp.pos + UInt64.ofNat ((data.drop fp.readStart).take len).length }) := by
  have hcursor : fs.contents ({ fp.inner with cursor := fp.readStart } : HostFile).node = some data := hc
  have hnone : ([] : List UInt8).length < len := hlen
  have hloop := readPortions_fst hcursor hr quotas hnone
  rw [List.nil_append, List.length_nil, Nat.sub_zero] at hloop
  unfold FilePos.readPortions
  simp only [seek_readStart]
  generalize readPortions fs quotas _ len [] = res at hloop ⊢
  obtain ⟨got, inner⟩ := res
  simp only at hloop
  subst hloop
  refine ⟨inner, ?_⟩
  simp only [List.isEmpty_iff]
  split
  · rfl
  · rfl

namespace Sys

variable {w w' : World}

structure OpenFile (w : World) (fd : Int) (ref : Nat) (data : List UInt8) : Prop where
  bound : w.resourceAt fd = some (.file ref)
  regular : (w.filePos ref).isDir = false
  contents : w.fs.contents (w.filePos ref).inner.node = some data
  fits : data.length < (w.filePos ref).inner.limit.first

def World.pos (w : World) (ref : Nat) : Nat := (w.filePos ref).pos.toNat

/-- What a read of `len` bytes from a file has to do: as many as there are from `pos` on,
and `pos` moves past them. -/
structure FileReadLaw (w : World) (ref : Nat) (data : List UInt8) (buf len n : Int) (w' : World) :
    Prop where
  count : n = (min len.toNat (data.length - w.pos ref) : Nat)
  bytes : bytesAt w'.kernel.memory buf n = (data.drop (w.pos ref)).take n.toNat
  position : (w'.pos ref : Int) = w.pos ref + n

theorem readPortions_file (sock : SocketCalls) (hf : w.resourceAt fd = some (.file ref))
    (hs : guestSlice w.kernel.memory buf len = .ok old) (hlen : 0 < len)
    (hread : (w.filePos ref).readPortions w.fs quotas len.toNat = (out, fp)) :
    readPortions sock quotas w fd buf len = ((deliver w.kernel.memory buf len out).1,
      { w.setFile ref fp with kernel.memory := (deliver w.kernel.memory buf len out).2 }) := by
  obtain ⟨f, hu, hr⟩ := Option.bind_eq_some_iff.mp hf
  simp only [readPortions, hu, hs, if_neg (ne_of_gt hlen), FdTable.get_ok.mpr hr, readPortionsFrom,
    hread]
  rfl

theorem pos_setFile (w : World) (ref : Nat) (fp : FilePos) (memory : Option MemoryKind) :
    World.pos { w.setFile ref fp with kernel.memory := memory } ref = fp.pos.toNat := by
  simp [World.pos, World.filePos, World.setFile]

/-- A read of some bytes never returns 0: without any it asks to try again. -/
theorem readPortions_ne_zero (sock : SocketCalls) (quotas : Nat → Nat) (h : OpenFile w fd ref data)
    (hr : (w.filePos ref).inner.readable = true)
    (hs : guestSlice w.kernel.memory buf len = .ok old) (hlen : 0 < len) :
    (readPortions sock quotas w fd buf len).1 ≠ 0 := by
  have heagain : -EAGAIN ≠ 0 := by decide
  obtain ⟨inner, hread⟩ := filePos_readPortions h.contents hr quotas (show 0 < len.toNat by omega)
  rw [readPortions_file sock h.bound hs hlen hread]
  split
  · exact heagain
  · rename_i hne
    obtain ⟨memory', hdeliver, -⟩ := deliver_bytes hs (List.length_take_le len.toNat _)
    rw [hdeliver]
    have hpos := List.length_pos_iff.mpr hne
    simp only
    omega

/-- On any host that returns some bytes where there are any, a read from a regular file
does what it has to exactly when `pos` is before the end of the file. -/
theorem file_read_iff (sock : SocketCalls) (quotas : Nat → Nat) (h : OpenFile w fd ref data)
    (hr : (w.filePos ref).inner.readable = true)
    (hs : guestSlice w.kernel.memory buf len = .ok old) (hlen : 0 < len) :
    FileReadLaw w ref data buf len (readPortions sock quotas w fd buf len).1
        (readPortions sock quotas w fd buf len).2 ↔
      w.pos ref < data.length := by
  constructor
  · intro hlaw
    by_contra hend
    have hzero := hlaw.count
    rw [Nat.sub_eq_zero_of_le (Nat.le_of_not_lt hend), Nat.min_zero] at hzero
    exact readPortions_ne_zero sock quotas h hr hs hlen hzero
  · intro hbefore
    have hfits := h.fits
    have hstart : (w.filePos ref).readStart = w.pos ref := if_pos (lt_trans hbefore hfits)
    obtain ⟨inner, hread⟩ := filePos_readPortions h.contents hr quotas (show 0 < len.toNat by omega)
    rw [hstart] at hread
    have hlength : ((data.drop (w.pos ref)).take len.toNat).length =
        min len.toNat (data.length - w.pos ref) := by rw [List.length_take, List.length_drop]
    have hne : (data.drop (w.pos ref)).take len.toNat ≠ [] := by
      rw [Ne, ← List.length_eq_zero_iff, hlength]
      omega
    rw [if_neg hne] at hread
    obtain ⟨memory', hdeliver, hbytes⟩ := deliver_bytes hs (List.length_take_le len.toNat _)
    rw [readPortions_file sock h.bound hs hlen hread, hdeliver]
    refine ⟨by rw [hlength], ?_, ?_⟩
    · simp only
      rw [hbytes, Int.toNat_natCast, hlength, ← List.length_drop, ← List.take_eq_take_min]
    · have hsum : (w.filePos ref).pos.toNat + min len.toNat (data.length - w.pos ref) < 2 ^ 64 := by
        have hsigned := (w.filePos ref).inner.limit.signed
        simp only [World.pos, HostFile.OFFSET_LIMIT] at *
        omega
      simp only [pos_setFile]
      rw [hlength, toNat_add_ofNat _ hsum]
      exact Int.natCast_add ..

theorem twoBytes_open : OpenFile twoBytes 3 0 [7, 8] := ⟨twoBytes_at_three, rfl, rfl, by decide⟩

theorem twoBytes_slice : ∃ old, guestSlice twoBytes.kernel.memory 0 2 = .ok old := by
  have hload : LinearMemory.zeroPage.load 0 2 = _ := LinearMemory.zeroPage_load (by decide)
  exact ⟨_, guestSlice_of_load hload (le_refl 2)⟩

/-- Two bytes from a host that returns one at a time. -/
theorem file_read_one_at_a_time :
    FileReadLaw twoBytes 0 [7, 8] 0 2 (readPortions noSockets (fun _ => 1) twoBytes 3 0 2).1
      (readPortions noSockets (fun _ => 1) twoBytes 3 0 2).2 := by
  obtain ⟨old, hs⟩ := twoBytes_slice
  exact (file_read_iff noSockets (fun _ => 1) twoBytes_open rfl hs (by decide)).mpr (by decide)

def atEnd : World := twoBytes.setFile 0 { twoBytes.filePos 0 with pos := 2 }

theorem atEnd_open : OpenFile atEnd 3 0 [7, 8] := ⟨twoBytes_at_three, rfl, rfl, by decide⟩

theorem file_read_end :
    (readPortions noSockets (fun _ => CHUNK) atEnd 3 0 2).1 = -EAGAIN ∧
      ¬ FileReadLaw atEnd 0 [7, 8] 0 2 (readPortions noSockets (fun _ => CHUNK) atEnd 3 0 2).1
        (readPortions noSockets (fun _ => CHUNK) atEnd 3 0 2).2 := by
  obtain ⟨old, hs⟩ := twoBytes_slice
  have hs : guestSlice atEnd.kernel.memory 0 2 = .ok old := hs
  have hvalue : (readPortions noSockets (fun _ => CHUNK) atEnd 3 0 2).1 = -EAGAIN := by
    obtain ⟨inner, hread⟩ := filePos_readPortions atEnd_open.contents rfl (fun _ => CHUNK)
      (show 0 < 2 by decide)
    exact congrArg Prod.fst (readPortions_file noSockets atEnd_open.bound hs (by decide) hread)
  refine ⟨hvalue, fun hlaw => ?_⟩
  have hcount : -EAGAIN = 0 := hvalue.symm.trans hlaw.count
  exact absurd hcount (by decide)

-- ---------------------------------------------------------------------------
-- Seeking
-- ---------------------------------------------------------------------------

def seekBase (data : List UInt8) (pos : Nat) (whence : Int) : Int :=
  if whence = FilePos.SEEK_SET then 0
  else if whence = FilePos.SEEK_CUR then pos
  else data.length

/-- An offset that a signed 64-bit word can hold. -/
def Representable (target : Int) : Prop := 0 ≤ target ∧ target < HostFile.OFFSET_LIMIT

instance (target : Int) : Decidable (Representable target) := inferInstanceAs (Decidable (_ ∧ _))

/-- What a seek to `target` has to do to the file `ref`. -/
structure SeekLaw (w : World) (ref : Nat) (target n : Int) (w' : World) : Prop where
  moved : Representable target → n = target ∧ (w'.pos ref : Int) = target ∧
    ((w'.filePos ref).inner.cursor : Int) = target
  refused : ¬ Representable target → n = -EINVAL ∧ w'.filePos ref = w.filePos ref

/-- The sum that the source computes for `SEEK_END` fits its type. -/
def SumFits (data : List UInt8) (offset whence : Int) : Prop :=
  whence = FilePos.SEEK_END → data.length + offset < HostFile.OFFSET_LIMIT

/-- The host lets the cursor of the file go there. -/
def Accepts (f : HostFile) (target : Int) : Prop := 0 ≤ target ∧ target < f.limit.first

/-- Counted from the start or the end of the file the host accepts the target; counted from
`pos` it does and the host's cursor is there too, or neither has a target to go to. -/
def SeeksRight (f : HostFile) (data : List UInt8) (pos : Nat) (offset whence : Int) : Prop :=
  if whence = FilePos.SEEK_SET then Accepts f offset
  else if whence = FilePos.SEEK_CUR then
    f.cursor = pos ∧ Accepts f (pos + offset) ∨
      ¬ Representable (pos + offset) ∧ ¬ Accepts f (f.cursor + offset)
  else Accepts f (data.length + offset)

theorem Accepts.representable {f : HostFile} (h : Accepts f target) : Representable target :=
  ⟨h.1, lt_of_lt_of_le h.2 (Int.ofNat_le.mpr f.limit.signed)⟩

theorem seekTo_some (f : HostFile) (h : Accepts f target) :
    f.seekTo target = some { f with cursor := target.toNat } := if_pos h

theorem seekTo_none (f : HostFile) (h : ¬ Accepts f target) : f.seekTo target = none := if_neg h

theorem lseek_to (h : OpenFile w fd ref data)
    (ht : ((w.filePos ref).seekFrom w.fs offset whence).bind (w.filePos ref).inner.seek =
      (w.filePos ref).inner.seekTo target) :
    (Accepts (w.filePos ref).inner target → ∃ w', lseek w fd offset whence = (target, w') ∧
        (w'.pos ref : Int) = target ∧ ((w'.filePos ref).inner.cursor : Int) = target) ∧
      (¬ Accepts (w.filePos ref).inner target → ∃ w', lseek w fd offset whence = (-EINVAL, w') ∧
        w'.filePos ref = w.filePos ref) := by
  have hfile : (w.filePos ref).isDir = false := h.regular
  constructor
  · intro hacc
    have hrep := hacc.representable
    have hlt : target.toNat < 2 ^ 64 := by
      have hlt := hrep.2
      simp only [HostFile.OFFSET_LIMIT] at hlt
      omega
    have hseek : (w.filePos ref).lseek w.fs offset whence = (((target.toNat : Nat) : Int),
        { w.filePos ref with
          inner := { (w.filePos ref).inner with cursor := target.toNat }
          pos := UInt64.ofNat target.toNat }) := by
      rw [FilePos.lseek, if_neg (by simp [hfile]), ht, seekTo_some _ hacc]
    have hnat : ((target.toNat : Nat) : Int) = target := Int.toNat_of_nonneg hrep.1
    rw [hnat] at hseek
    refine ⟨_, lseek_file h.bound hseek, ?_, ?_⟩
    · simp only [World.pos, World.filePos, World.setFile, Heap.read_write_same, UInt64.toNat_ofNat']
      omega
    · simp only [World.filePos, World.setFile, Heap.read_write_same]
      exact hnat
  · intro hacc
    have hseek : (w.filePos ref).lseek w.fs offset whence = (-EINVAL, w.filePos ref) := by
      rw [FilePos.lseek, if_neg (by simp [hfile]), ht, seekTo_none _ hacc]
    refine ⟨_, lseek_file h.bound hseek, ?_⟩
    simp only [World.filePos, World.setFile, Heap.read_write_same]

/-- Where the source sends the host's cursor. -/
def sourceTarget (data : List UInt8) (cursor : Nat) (offset whence : Int) : Int :=
  if whence = FilePos.SEEK_SET then max offset 0
  else if whence = FilePos.SEEK_CUR then cursor + offset
  else max (Int.bmod (data.length + offset) (2 ^ 64)) 0

theorem seekFrom_target (h : OpenFile w fd ref data) (offset : Int64)
    (hwhence : whence = FilePos.SEEK_SET ∨ whence = FilePos.SEEK_CUR ∨ whence = FilePos.SEEK_END) :
    ((w.filePos ref).seekFrom w.fs offset.toInt whence).bind (w.filePos ref).inner.seek =
      (w.filePos ref).inner.seekTo
        (sourceTarget data (w.filePos ref).inner.cursor offset.toInt whence) := by
  rw [FilePos.seekFrom, sourceTarget]
  by_cases hset : whence = FilePos.SEEK_SET
  · have hoffset : offset.toInt < 9223372036854775808 := by
      have hlt := Int64.toInt_lt offset
      omega
    rw [if_pos hset, if_pos hset, Option.bind_some]
    exact seek_startAt_max _ hoffset
  · rw [if_neg hset, if_neg hset]
    by_cases hcur : whence = FilePos.SEEK_CUR
    · rw [if_pos hcur, if_pos hcur, Option.bind_some, HostFile.seek]
    · have hend := (hwhence.resolve_left hset).resolve_left hcur
      have hlen : (w.filePos ref).inner.len w.fs = data.length := by
        rw [HostFile.len, h.contents, Option.map_some, Option.getD_some]
      rw [if_neg hcur, if_neg hcur, if_pos hend, Option.bind_some, hlen]
      exact seek_startAt_max _ (bmod_lt _)

/-- A seek that goes to `c` is right for `target` when the two are the same and the host
accepts it, or the target is not representable and the host refuses `c`. -/
theorem seekLaw_iff (h : OpenFile w fd ref data)
    (hc : ((w.filePos ref).seekFrom w.fs offset whence).bind (w.filePos ref).inner.seek =
      (w.filePos ref).inner.seekTo c) :
    SeekLaw w ref target (lseek w fd offset whence).1 (lseek w fd offset whence).2 ↔
      Accepts (w.filePos ref).inner target ∧ c = target ∨
        ¬ Representable target ∧ ¬ Accepts (w.filePos ref).inner c := by
  have heinval : -EINVAL < 0 := by decide
  obtain ⟨hgoes, hstays⟩ := lseek_to h hc
  by_cases hacc : Accepts (w.filePos ref).inner c
  · obtain ⟨w', hseek, hpos, hcursor⟩ := hgoes hacc
    rw [hseek]
    constructor
    · intro hlaw
      by_cases htarget : Representable target
      · obtain rfl : c = target := (hlaw.moved htarget).1
        exact .inl ⟨hacc, rfl⟩
      · have hn := (hlaw.refused htarget).1
        have hnonneg := hacc.1
        simp only at hn
        omega
    · rintro (⟨htarget, rfl⟩ | ⟨-, hnot⟩)
      · exact ⟨fun _ => ⟨rfl, hpos, hcursor⟩, fun hnot => absurd htarget.representable hnot⟩
      · exact absurd hacc hnot
  · obtain ⟨w', hseek, hsame⟩ := hstays hacc
    rw [hseek]
    constructor
    · intro hlaw
      by_cases htarget : Representable target
      · have hn := (hlaw.moved htarget).1
        have hnonneg := htarget.1
        simp only at hn
        omega
      · exact .inr ⟨htarget, hacc⟩
    · rintro (⟨htarget, rfl⟩ | ⟨htarget, -⟩)
      · exact absurd htarget hacc
      · exact ⟨fun hyes => absurd hyes htarget, fun _ => ⟨rfl, hsame⟩⟩

theorem representable_iff : Representable target ↔ 0 ≤ target ∧ target < 9223372036854775808 := Iff.rfl

section
variable {f : HostFile}

/-- A file has room for a byte, so 0 is accepted. -/
theorem accepts_zero : Accepts f 0 :=
  ⟨le_refl 0, Int.ofNat_lt.mpr (lt_trans Nat.two_pos f.limit.room)⟩

/-- Counted from the start: 0, which is accepted, stands in for the negative targets. -/
theorem clamped_iff (hlt : offset < 9223372036854775808) :
    Accepts f offset ∧ max offset 0 = offset ∨ ¬ Representable offset ∧ ¬ Accepts f (max offset 0) ↔
      Accepts f offset := by
  constructor
  · rintro (⟨hacc, -⟩ | ⟨hrep, hnot⟩)
    · exact hacc
    · rcases le_total offset 0 with hneg | hpos
      · rw [max_eq_right hneg] at hnot
        exact absurd accepts_zero hnot
      · exact absurd (representable_iff.mpr ⟨hpos, hlt⟩) hrep
  · intro hacc
    exact .inl ⟨hacc, max_eq_left hacc.1⟩

theorem relative_iff {pos cursor : Nat} :
    Accepts f (pos + offset) ∧ (cursor + offset : Int) = pos + offset ∨
        ¬ Representable (pos + offset) ∧ ¬ Accepts f (cursor + offset) ↔
      cursor = pos ∧ Accepts f (pos + offset) ∨
        ¬ Representable (pos + offset) ∧ ¬ Accepts f (cursor + offset) := by
  have hsame : (cursor + offset : Int) = pos + offset ↔ cursor = pos := by omega
  rw [hsame, and_comm (a := Accepts f _)]

/-- Counted from the end: 0 stands in for the targets that are clamped. -/
theorem wrapped_iff (hlow : -9223372036854775808 ≤ target) :
    (Accepts f target ∧ max (Int.bmod target (2 ^ 64)) 0 = target ∨
          ¬ Representable target ∧ ¬ Accepts f (max (Int.bmod target (2 ^ 64)) 0)) ∧
        target < HostFile.OFFSET_LIMIT ↔
      Accepts f target := by
  constructor
  · rintro ⟨⟨hacc, -⟩ | ⟨hrep, hnot⟩, hfits⟩
    · exact hacc
    · have hneg : target < 0 := by
        by_contra hpos
        exact hrep ⟨Int.not_lt.mp hpos, hfits⟩
      have hsame : Int.bmod target (2 ^ 64) = target := Int.bmod_eq_of_le (by omega) (by omega)
      rw [hsame, max_eq_right hneg.le] at hnot
      exact absurd accepts_zero hnot
  · intro hacc
    obtain ⟨hnonneg, hlt⟩ := representable_iff.mp hacc.representable
    have hsame : Int.bmod target (2 ^ 64) = target := Int.bmod_eq_of_le (by omega) (by omega)
    refine ⟨.inl ⟨hacc, ?_⟩, hacc.representable.2⟩
    rw [hsame, max_eq_left hnonneg]

end

/-- A seek follows the one rule for all targets exactly when it need not clamp or wrap, the
host accepts the target and, counted from the current offset, its cursor is at `pos`. -/
theorem lseek_law_iff (h : OpenFile w fd ref data) (offset : Int64)
    (hwhence : whence = FilePos.SEEK_SET ∨ whence = FilePos.SEEK_CUR ∨ whence = FilePos.SEEK_END) :
    SeekLaw w ref (seekBase data (w.pos ref) whence + offset.toInt)
          (lseek w fd offset.toInt whence).1 (lseek w fd offset.toInt whence).2 ∧
        SumFits data offset.toInt whence ↔
      SeeksRight (w.filePos ref).inner data (w.pos ref) offset.toInt whence := by
  rw [seekLaw_iff h (seekFrom_target h offset hwhence), seekBase, sourceTarget, SumFits, SeeksRight]
  by_cases hset : whence = FilePos.SEEK_SET
  · have hfits : whence = FilePos.SEEK_END → data.length + offset.toInt < HostFile.OFFSET_LIMIT :=
      fun hend => absurd (hset.symm.trans hend) (by decide)
    have hlt : offset.toInt < 9223372036854775808 := by
      have hlt := Int64.toInt_lt offset
      omega
    rw [and_iff_left hfits, if_pos hset, if_pos hset, if_pos hset, Int.zero_add]
    exact clamped_iff hlt
  · rw [if_neg hset, if_neg hset, if_neg hset]
    by_cases hcur : whence = FilePos.SEEK_CUR
    · have hfits : whence = FilePos.SEEK_END → data.length + offset.toInt < HostFile.OFFSET_LIMIT :=
        fun hend => absurd (hcur.symm.trans hend) (by decide)
      rw [and_iff_left hfits, if_pos hcur, if_pos hcur, if_pos hcur]
      exact relative_iff
    · have hend := (hwhence.resolve_left hset).resolve_left hcur
      have hlow : -9223372036854775808 ≤ data.length + offset.toInt := by
        have hle := Int64.le_toInt offset
        omega
      rw [if_neg hcur, if_neg hcur, if_neg hcur, forall_prop_of_true hend]
      exact wrapped_iff hlow

/-- To the second byte. -/
theorem lseek_law_second_byte :
    SeekLaw twoBytes 0 1 (lseek twoBytes 3 1 FilePos.SEEK_SET).1 (lseek twoBytes 3 1 FilePos.SEEK_SET).2 :=
  have hright : SeeksRight (twoBytes.filePos 0).inner [7, 8] (twoBytes.pos 0) (1 : Int64).toInt
      FilePos.SEEK_SET := show Accepts _ 1 from ⟨by decide, by decide⟩
  ((lseek_law_iff twoBytes_open 1 (.inl rfl)).mpr hright).1

/-- Before the start. -/
theorem lseek_law_negative :
    (lseek twoBytes 3 (-1) FilePos.SEEK_SET).1 = 0 ∧
      ¬ SeekLaw twoBytes 0 (-1) (lseek twoBytes 3 (-1) FilePos.SEEK_SET).1
        (lseek twoBytes 3 (-1) FilePos.SEEK_SET).2 := by
  have hvalue : (lseek twoBytes 3 (-1) FilePos.SEEK_SET).1 = 0 := by decide
  refine ⟨hvalue, fun hlaw => ?_⟩
  have hrefused := (hlaw.refused (by decide)).1
  rw [hvalue] at hrefused
  exact absurd hrefused (by decide)

end Sys

end EdgeLibos
