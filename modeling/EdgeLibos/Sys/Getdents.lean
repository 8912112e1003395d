import EdgeLibos.Sys.Dirent
import EdgeLibos.Sys.RegularFile

/-!
# Reading a directory

`getdents64` keeps the encoded listing of a directory with its descriptor and hands it
out from `FilePos.pos` on, as many bytes as the guest's buffer takes. Nothing in it looks
at where a record ends.
-/

namespace EdgeLibos.Sys

open Errno Lib Paths HostTree

/-- What the host returns for a directory. Its listing is a `Vec`, which holds fewer
than 2⁶³ bytes. -/
structure Directory where
  results : DirResults
  fits : ((sortedEntries results.entries).foldl pushRecord []).length < 2 ^ 63

def Directory.listing (d : Directory) : List UInt8 := (sortedEntries d.results.entries).foldl pushRecord []

/-- `fs::read_dir` with what iterating over its result gives. -/
abbrev ReadDir := PathBuf → Except ErrorKind Directory

def FilePos.listing (readDir : ReadDir) (path : PathBuf) (fp : FilePos) : Except Int (List UInt8) :=
  match fp.dirCache with
  | some cache => .ok cache
  | none => readdirAll ((readDir path).map Directory.results)

/-- The position moves, and a slice of the cache goes to the guest. -/
def handOut (w : World) (ref : Nat) (fp : FilePos) (buf : Int) (slice : List UInt8) (stop : Nat) :
    Int × World :=
  let w := w.setFile ref { fp with pos := UInt64.ofNat stop }
  let (n, memory) := deliver w.kernel.memory buf slice.length (.bytes slice)
  (n, { w with kernel.memory := memory })

def getdentsFrom (w : World) (ref : Nat) (cache : List UInt8) (buf len : Int) : Int × World :=
  let fp := { w.kernel.cells.files.read ref with dirCache := some cache }
  let start := fp.pos.toNat
  if start ≥ cache.length then (0, w.setFile ref fp)
  else
    let stop := min (start + len.toNat) cache.length
    handOut w ref fp buf ((cache.drop start).take (stop - start)) stop

def getdents64 (readDir : ReadDir) (w : World) (fd buf len : Int) : Int × World :=
  match u32Fd fd with
  | none => (-EBADF, w)
  | some f =>
    match guestSlice w.kernel.memory buf len with
    | .error e => (e, w)
    | .ok _ =>
      if len = 0 then (-EINVAL, w)
      else
        match w.kernel.fds.get f with
        | .error e => (e, w)
        | .ok (.file ref) =>
          let fp := w.kernel.cells.files.read ref
          if !fp.isDir then (-ENOTDIR, w)
          else
            match fp.path with
            | none => (-EBADF, w)
            | some path =>
              match FilePos.listing readDir path fp with
              | .error e => (e, w)
              | .ok cache => getdentsFrom w ref cache buf len
        | .ok _ => (-ENOTDIR, w)

-- ---------------------------------------------------------------------------
-- One call
-- ---------------------------------------------------------------------------

variable {w w' : World} {readDir : ReadDir} {cache : List UInt8}

structure OpenDir (w : World) (fd : Int) (ref : Nat) (path : PathBuf) : Prop where
  bound : w.resourceAt fd = some (.file ref)
  isDir : (w.filePos ref).isDir = true
  path : (w.filePos ref).path = some path

theorem getdents64_dir (h : OpenDir w fd ref path) (hs : guestSlice w.kernel.memory buf len = .ok old)
    (hlen : 0 < len) :
    getdents64 readDir w fd buf len =
      match FilePos.listing readDir path (w.filePos ref) with
      | .error e => (e, w)
      | .ok cache => getdentsFrom w ref cache buf len := by
  obtain ⟨f, hu, hr⟩ := Option.bind_eq_some_iff.mp h.bound
  have hdir : (!(w.kernel.cells.files.read ref).isDir) = false := by
    rw [show (w.kernel.cells.files.read ref).isDir = true from h.isDir]
    rfl
  have hpath : (w.kernel.cells.files.read ref).path = some path := h.path
  simp only [getdents64, hu, hs, if_neg (ne_of_gt hlen), FdTable.get_ok.mpr hr, hdir, hpath,
    Bool.false_eq_true, if_false]
  rfl

/-- The rest of the listing that fits the buffer. -/
def portion (cache : List UInt8) (pos : Nat) (len : Int) : List UInt8 := (cache.drop pos).take len.toNat

theorem portion_length (cache : List UInt8) (pos : Nat) (len : Int) :
    (portion cache pos len).length = min len.toNat (cache.length - pos) := by
  rw [portion, List.length_take, List.length_drop]

theorem guestSlice_shorter (h : guestSlice memory buf len = .ok old) (hk : k ≤ len.toNat) :
    ∃ old', guestSlice memory buf (k : Nat) = .ok old' := by
  obtain ⟨mem, rfl, hbuf, hlen, hfits, -⟩ := guestSlice_ok h
  rw [guestSlice, if_neg (by omega)]
  simp only [ownedOf, Int.toNat_natCast]
  rw [if_pos (by omega)]
  exact ⟨_, rfl⟩

theorem getdentsFrom_portion (ref : Nat) (hs : guestSlice w.kernel.memory buf len = .ok old)
    (hfits : cache.length < 2 ^ 63) :
    ∃ w', getdentsFrom w ref cache buf len = (((portion cache (w.pos ref) len).length : Int), w') ∧
      bytesAt w'.kernel.memory buf (portion cache (w.pos ref) len).length =
        portion cache (w.pos ref) len ∧
      w'.filePos ref = { w.filePos ref with
        pos := UInt64.ofNat (w.pos ref + (portion cache (w.pos ref) len).length)
        dirCache := some cache } ∧
      w'.kernel.fds = w.kernel.fds := by
  have hlength := portion_length cache (w.pos ref) len
  by_cases hend : w.pos ref ≥ cache.length
  · have hnil : portion cache (w.pos ref) len = [] := List.eq_nil_of_length_eq_zero (by omega)
    have hrun : getdentsFrom w ref cache buf len =
        (0, w.setFile ref { w.filePos ref with dirCache := some cache }) := if_pos hend
    rw [hrun, hnil]
    refine ⟨_, rfl, bytesAt_of_le (le_refl 0), ?_, rfl⟩
    simp only [World.filePos, World.setFile, Heap.read_write_same, World.pos, List.length_nil,
      Nat.add_zero, UInt64.ofNat_toNat]
  · have hslice : (cache.drop (w.pos ref)).take (min (w.pos ref + len.toNat) cache.length - w.pos ref) =
        portion cache (w.pos ref) len := by
      rw [portion, List.take_eq_take_iff, List.length_drop]
      omega
    have hstop : min (w.pos ref + len.toNat) cache.length =
        w.pos ref + (portion cache (w.pos ref) len).length := by omega
    obtain ⟨old', hs'⟩ := guestSlice_shorter hs (show (portion cache (w.pos ref) len).length ≤ len.toNat by omega)
    obtain ⟨memory', hdeliver, hbytes⟩ := deliver_bytes hs' (by rw [Int.toNat_natCast])
    have hrun : getdentsFrom w ref cache buf len = (((portion cache (w.pos ref) len).length : Int),
        { w.setFile ref { w.filePos ref with
            pos := UInt64.ofNat (w.pos ref + (portion cache (w.pos ref) len).length)
            dirCache := some cache } with kernel.memory := memory' }) := by
      refine (if_neg hend).trans ?_
      show handOut w ref _ buf ((cache.drop (w.pos ref)).take
        (min (w.pos ref + len.toNat) cache.length - w.pos ref)) (min (w.pos ref + len.toNat) cache.length) = _
      rw [hslice, hstop, handOut]
      rw [show (w.setFile ref _).kernel.memory = w.kernel.memory from rfl, hdeliver]
      rfl
    refine ⟨_, hrun, hbytes, ?_, rfl⟩
    simp only [World.filePos, World.setFile, Heap.read_write_same]

/-- A call returns an error and changes nothing, or it has a buffer and a listing. -/
inductive GetdentsCase (readDir : ReadDir) (w : World) (fd : Int) (ref : Nat) (path : PathBuf)
    (buf len : Int) : Prop
  | refused (e : Int) (he : e < 0) (hrun : getdents64 readDir w fd buf len = (e, w))
  | served (old cache : List UInt8) (hs : guestSlice w.kernel.memory buf len = .ok old) (hlen : 0 < len)
      (hcache : FilePos.listing readDir path (w.filePos ref) = .ok cache)

theorem vfsIoToErrno_neg (e : ErrorKind) : vfsIoToErrno e < 0 := by
  cases e <;> decide

theorem listing_error_neg (h : FilePos.listing readDir path fp = .error e) : e < 0 := by
  unfold FilePos.listing at h
  split at h
  · cases h
  · cases hread : readDir path with
    | error kind =>
      rw [hread] at h
      cases h
      exact vfsIoToErrno_neg kind
    | ok d =>
      rw [hread] at h
      cases h

theorem getdents64_cases (h : OpenDir w fd ref path) (readDir : ReadDir) (buf len : Int) :
    GetdentsCase readDir w fd ref path buf len := by
  obtain ⟨f, hu, hr⟩ := Option.bind_eq_some_iff.mp h.bound
  cases hs : guestSlice w.kernel.memory buf len with
  | error e =>
    refine .refused e (guestSlice_error_neg hs) ?_
    simp only [getdents64, hu, hs]
  | ok old =>
    obtain ⟨-, -, -, hnonneg, -, -⟩ := guestSlice_ok hs
    by_cases hlen : len = 0
    · refine .refused (-EINVAL) (by decide) ?_
      simp only [getdents64, hu, hs, if_pos hlen]
    · have hpos : 0 < len := by omega
      cases hcache : FilePos.listing readDir path (w.filePos ref) with
      | error e =>
        refine .refused e (listing_error_neg hcache) ?_
        rw [getdents64_dir h hs hpos, hcache]
      | ok cache => exact .served old cache hs hpos hcache

-- ---------------------------------------------------------------------------
-- Calls one after the other
-- ---------------------------------------------------------------------------

/-- A world with the bytes that the calls on a directory returned so far. -/
structure DirStream where
  world : World
  got : List UInt8

inductive DirAct
  | memory (m : Option MemoryKind)
  | getdents64 (readDir : ReadDir) (buf len : Int)

def DirStream.next (fd : Int) (s : DirStream) : DirAct → Option DirStream
  | .memory m => some { s with world.kernel.memory := m }
  | .getdents64 readDir buf len =>
    let (n, w) := Sys.getdents64 readDir s.world fd buf len
    some { world := w, got := s.got ++ bytesAt w.kernel.memory buf n }

/-- The directory that the calls on the descriptor list: the one in the cache, or the one
that the next call finds. -/
def Lists (readDir : ReadDir) (path : PathBuf) (fp : FilePos) (d : Directory) : Prop :=
  fp.dirCache = some d.listing ∨ fp.dirCache = none ∧ readDir path = .ok d

/-- What was returned is the start of the listing, and the position is behind it. -/
structure StreamOk (fd : Int) (ref : Nat) (path : PathBuf) (s : DirStream) : Prop where
  dir : OpenDir s.world fd ref path
  pos : s.world.pos ref = s.got.length
  fresh : (s.world.filePos ref).dirCache = none → s.got = []
  cached : ∀ cache, (s.world.filePos ref).dirCache = some cache →
    ∃ d : Directory, cache = d.listing ∧ s.got <+: d.listing

theorem StreamOk.lists (hok : StreamOk fd ref path s)
    (h : FilePos.listing readDir path (s.world.filePos ref) = .ok cache) :
    ∃ d : Directory, cache = d.listing ∧ Lists readDir path (s.world.filePos ref) d := by
  unfold FilePos.listing at h
  split at h
  · rename_i cache' hcached
    cases h
    obtain ⟨d, rfl, -⟩ := hok.cached _ hcached
    exact ⟨d, rfl, .inl hcached⟩
  · rename_i hfresh
    cases hread : readDir path with
    | error kind =>
      rw [hread] at h
      cases h
    | ok d =>
      rw [hread] at h
      cases h
      exact ⟨d, rfl, .inr ⟨hfresh, hread⟩⟩

theorem StreamOk.got_starts (hok : StreamOk fd ref path s)
    (h : Lists readDir path (s.world.filePos ref) d) : s.got <+: d.listing := by
  rcases h with hcached | ⟨hfresh, -⟩
  · obtain ⟨d', hd, hgot⟩ := hok.cached _ hcached
    rwa [hd]
  · rw [hok.fresh hfresh]
    exact List.nil_prefix

theorem Lists.listing (h : Lists readDir path fp d) : FilePos.listing readDir path fp = .ok d.listing := by
  unfold FilePos.listing
  rcases h with hcached | ⟨hfresh, hread⟩
  · rw [hcached]
  · rw [hfresh, hread]
    rfl

theorem StreamOk.served (hok : StreamOk fd ref path s)
    (hd : Lists readDir path (s.world.filePos ref) d)
    (hs : guestSlice s.world.kernel.memory buf len = .ok old) (hlen : 0 < len) :
    ∃ w', getdents64 readDir s.world fd buf len =
        (((portion d.listing s.got.length len).length : Int), w') ∧
      bytesAt w'.kernel.memory buf (portion d.listing s.got.length len).length =
        portion d.listing s.got.length len ∧
      StreamOk fd ref path { world := w', got := s.got ++ portion d.listing s.got.length len } ∧
      (w'.filePos ref).dirCache = some d.listing := by
  have hrun : getdents64 readDir s.world fd buf len = getdentsFrom s.world ref d.listing buf len := by
    rw [getdents64_dir hok.dir hs hlen, hd.listing]
  have hfits : d.listing.length < 2 ^ 63 := d.fits
  obtain ⟨w', hfrom, hbytes, hfile, hfds⟩ := getdentsFrom_portion ref hs hfits
  obtain ⟨rest, hrest⟩ := hok.got_starts hd
  have hportion : s.got ++ portion d.listing s.got.length len <+: d.listing := by
    rw [portion, ← hrest, List.drop_left]
    exact (List.prefix_append_right_inj _).mpr (List.take_prefix ..)
  have hlt := Nat.lt_of_le_of_lt hportion.length_le hfits
  rw [List.length_append] at hlt
  rw [hok.pos] at hfrom hbytes hfile
  refine ⟨w', hrun.trans hfrom, hbytes, ⟨?_, ?_, ?_, ?_⟩, by rw [hfile]⟩
  · refine ⟨?_, ?_, ?_⟩
    · rw [World.resourceAt, hfds]
      exact hok.dir.bound
    · rw [hfile]
      exact hok.dir.isDir
    · rw [hfile]
      exact hok.dir.path
  · rw [World.pos, hfile, UInt64.toNat_ofNat', List.length_append]
    exact Nat.mod_eq_of_lt (by omega)
  · intro hnone
    rw [hfile] at hnone
    cases hnone
  · intro cache hcache
    rw [hfile] at hcache
    cases hcache
    exact ⟨d, rfl, hportion⟩

theorem StreamOk.next (hok : StreamOk fd ref path s) (h : DirStream.next fd s a = some s') :
    StreamOk fd ref path s' := by
  cases a with
  | memory m =>
    cases h
    exact ⟨⟨hok.dir.bound, hok.dir.isDir, hok.dir.path⟩, hok.pos, hok.fresh, hok.cached⟩
  | getdents64 readDir buf len =>
    simp only [DirStream.next] at h
    cases getdents64_cases hok.dir readDir buf len with
    | refused e he hrun =>
      rw [hrun] at h
      cases h
      rw [bytesAt_of_le (le_of_lt he), List.append_nil]
      exact hok
    | served old cache hs hlen hcache =>
      obtain ⟨d, rfl, hd⟩ := hok.lists hcache
      obtain ⟨w', hrun, hbytes, hok', -⟩ := hok.served hd hs hlen
      rw [hrun] at h
      cases h
      rw [hbytes]
      exact hok'

/-- What calls on a directory do, one after the other. -/
structure StreamLaw (path : PathBuf) (fp : FilePos) (s : DirStream) (readDir : ReadDir) (buf len n : Int)
    (w' : World) : Prop where
  /-- A call that fails changes nothing. -/
  refused : n < 0 → w' = s.world
  empty : ∀ old, guestSlice s.world.kernel.memory buf len = .ok old → len = 0 → n = -EINVAL
  /-- What was returned before is the start of the listing. -/
  start : ∀ d, Lists readDir path fp d → s.got <+: d.listing
  /-- A buffer is filled with what follows, as far as there is some. -/
  follows : ∀ d old, Lists readDir path fp d → guestSlice s.world.kernel.memory buf len = .ok old → 0 < len →
    n = min len (d.listing.length - s.got.length) ∧
      bytesAt w'.kernel.memory buf n = (d.listing.drop s.got.length).take len.toNat
  /-- Where a call returns 0, all of the listing was returned: a record for each entry, in
  the order of the names. -/
  whole : n = 0 → ∃ d, Lists readDir path fp d ∧ s.got = d.listing ∧
    ∃ visited, walkDirents s.got = some visited ∧ visited.map (fun v => v.1.file) =
      (sortedEntries d.results.entries).map fun e => (e.name, e.ino, direntType e.type)

theorem getdents64_empty (h : OpenDir w fd ref path) (hs : guestSlice w.kernel.memory buf len = .ok old)
    (hlen : len = 0) : (getdents64 readDir w fd buf len).1 = -EINVAL := by
  obtain ⟨f, hu, hr⟩ := Option.bind_eq_some_iff.mp h.bound
  simp only [getdents64, hu, hs, if_pos hlen]

structure FreshDir (w : World) (fd : Int) (ref : Nat) (path : PathBuf) : Prop where
  dir : OpenDir w fd ref path
  pos : w.pos ref = 0
  fresh : (w.filePos ref).dirCache = none

theorem FreshDir.streamOk (h : FreshDir w fd ref path) : StreamOk fd ref path { world := w, got := [] } where
  dir := h.dir
  pos := h.pos
  fresh _ := rfl
  cached cache hcache := by
    cases h.fresh.symm.trans hcache

/-- In every sequence of calls on a directory the bytes returned are the listing from its
start on, cut where the buffers end, and a 0 says that all of it was returned. -/
theorem getdents_streams (h : FreshDir w fd ref path)
    (hr : Reaches (DirStream.next fd) (fun _ _ => True) { world := w, got := [] } s)
    (readDir : ReadDir) (buf len : Int) :
    StreamLaw path (s.world.filePos ref) s readDir buf len (getdents64 readDir s.world fd buf len).1
      (getdents64 readDir s.world fd buf len).2 := by
  have hok : StreamOk fd ref path s := hr.invariant h.streamOk fun _ _ _ hok _ hnext => hok.next hnext
  refine ⟨?_, fun old hs hlen => getdents64_empty hok.dir hs hlen, fun d hd => hok.got_starts hd, ?_, ?_⟩
  · intro hneg
    cases getdents64_cases hok.dir readDir buf len with
    | refused e he hrun => rw [hrun]
    | served old cache hs hlen hcache =>
      obtain ⟨d, rfl, hd⟩ := hok.lists hcache
      obtain ⟨w', hrun, -, -⟩ := hok.served hd hs hlen
      rw [hrun] at hneg
      exact absurd hneg (Int.not_lt.mpr (Int.natCast_nonneg _))
  · intro d old hd hs hlen
    obtain ⟨w', hrun, hbytes, -⟩ := hok.served hd hs hlen
    have hlength := portion_length d.listing s.got.length len
    have hstart := (hok.got_starts hd).length_le
    rw [hrun]
    refine ⟨?_, hbytes⟩
    simp only
    omega
  · intro hzero
    cases getdents64_cases hok.dir readDir buf len with
    | refused e he hrun =>
      rw [hrun] at hzero
      exact absurd hzero (ne_of_lt he)
    | served old cache hs hlen hcache =>
      obtain ⟨d, rfl, hd⟩ := hok.lists hcache
      obtain ⟨w', hrun, -, -⟩ := hok.served hd hs hlen
      have hlength := portion_length d.listing s.got.length len
      have hstart := (hok.got_starts hd).length_le
      rw [hrun] at hzero
      simp only at hzero
      have hall : s.got = d.listing := (hok.got_starts hd).eq_of_length (by omega)
      refine ⟨d, hd, hall, visitedFrom 0 (sortedEntries d.results.entries), ?_, map_file_visitedFrom ..⟩
      rw [hall]
      exact walkDirents_listing (sortedEntries_fit _)

theorem listing_fileA_length :
    ((sortedEntries (DirResults.entries [.ok fileA])).foldl pushRecord []).length = 27 := by
  have hentries : sortedEntries (DirResults.entries [.ok fileA]) = [fileA.listed] := rfl
  have hname : (recordAt 0 fileA.listed).name.length = 1 := by
    rw [show (recordAt 0 fileA.listed).name = fileA.listed.name from rfl,
      textNames_fileA.name_listed List.mem_cons_self]
    rfl
  have hlen : (recordAt 0 fileA.listed).name.length ≤ 765 := hname ▸ (by decide)
  rw [hentries, foldl_pushRecord, List.length_nil, recordsFrom, recordsFrom, List.map_cons, List.map_nil,
    List.flatten_cons, List.flatten_nil, List.append_nil, List.nil_append, encode_length hlen,
    reclen_toNat hlen, hname]
  rfl

theorem listing_fileA_fits :
    ((sortedEntries (DirResults.entries [.ok fileA])).foldl pushRecord []).length < 2 ^ 63 := by
  rw [listing_fileA_length]
  decide

def oneFile : Directory := ⟨[.ok fileA], listing_fileA_fits⟩

def dirOpened : World :=
  twoBytes.setFile 0 { twoBytes.filePos 0 with isDir := true, path := some "/d" }

theorem dirOpened_fresh : FreshDir dirOpened 3 0 "/d" := by
  refine ⟨⟨twoBytes_at_three, ?_, ?_⟩, ?_, ?_⟩ <;> rfl

/-- A call with a buffer of ten bytes at 0, while ten bytes of the record are left. -/
theorem StreamOk.next_ten (hok : StreamOk 3 0 "/d" s)
    (hd : Lists (fun _ => .ok oneFile) "/d" (s.world.filePos 0) oneFile)
    (hs : guestSlice s.world.kernel.memory 0 10 = .ok old) (hleft : s.got.length + 10 ≤ 27) :
    ∃ s' old', DirStream.next 3 s (.getdents64 (fun _ => .ok oneFile) 0 10) = some s' ∧
      s'.got.length = s.got.length + 10 ∧ StreamOk 3 0 "/d" s' ∧
      Lists (fun _ => .ok oneFile) "/d" (s'.world.filePos 0) oneFile ∧
      guestSlice s'.world.kernel.memory 0 10 = .ok old' := by
  obtain ⟨w', hrun, hbytes, hok', hcache⟩ := hok.served hd hs (by decide)
  have hlen : (portion oneFile.listing s.got.length 10).length = 10 := by
    have hten : (10 : Int).toNat = 10 := rfl
    rw [portion_length, show oneFile.listing.length = 27 from listing_fileA_length, hten]
    omega
  obtain ⟨b, rest, hportion⟩ : ∃ b rest, portion oneFile.listing s.got.length 10 = b :: rest :=
    List.exists_cons_of_length_pos (by omega)
  have hnext : DirStream.next 3 s (.getdents64 (fun _ => .ok oneFile) 0 10) =
      some { world := w', got := s.got ++ portion oneFile.listing s.got.length 10 } := by
    simp only [DirStream.next, hrun, hbytes]
  rw [hlen, hportion] at hbytes
  refine ⟨_, _, hnext, ?_, hok', .inl hcache, guestSlice_of_bytesAt hbytes⟩
  rw [List.length_append, hlen]

/-- Two calls with a buffer of ten bytes have returned twenty of the record's 27; the third
gets the last seven. -/
theorem getdents_streams_tens :
    ∃ s, Reaches (DirStream.next 3) (fun _ _ => True) { world := dirOpened, got := [] } s ∧ s.got.length = 20 ∧
      StreamLaw "/d" (s.world.filePos 0) s (fun _ => .ok oneFile) 0 10
        (getdents64 (fun _ => .ok oneFile) s.world 3 0 10).1
        (getdents64 (fun _ => .ok oneFile) s.world 3 0 10).2 ∧
      (getdents64 (fun _ => .ok oneFile) s.world 3 0 10).1 = 7 := by
  have hload : LinearMemory.zeroPage.load 0 10 = _ := LinearMemory.zeroPage_load (by decide)
  have hs : guestSlice dirOpened.kernel.memory 0 10 = .ok _ := guestSlice_of_load hload (le_refl 10)
  obtain ⟨s₁, _, hnext₁, hten, hok₁, hd₁, hs₁⟩ :=
    dirOpened_fresh.streamOk.next_ten (.inr ⟨rfl, rfl⟩) hs (by decide)
  rw [List.length_nil, Nat.zero_add] at hten
  obtain ⟨s₂, _, hnext₂, htwenty, hok₂, hd₂, hs₂⟩ := hok₁.next_ten hd₁ hs₁ (by omega)
  have hr : Reaches (DirStream.next 3) (fun _ _ => True) { world := dirOpened, got := [] } s₂ :=
    (Reaches.start.step trivial hnext₁).step trivial hnext₂
  have hlaw := getdents_streams dirOpened_fresh hr (fun _ => .ok oneFile) 0 10
  refine ⟨s₂, hr, by omega, hlaw, ?_⟩
  rw [(hlaw.follows oneFile _ hd₂ hs₂ (by decide)).1, show oneFile.listing.length = 27 from listing_fileA_length,
    htwenty, hten]
  rfl

/-- A buffer of ten bytes gets the first ten of the only record, which has 27. -/
theorem getdents_tears :
    (getdents64 (fun _ => .ok oneFile) dirOpened 3 0 10).1 = 10 ∧
      frames reclenOf (bytesAt (getdents64 (fun _ => .ok oneFile) dirOpened 3 0 10).2.kernel.memory 0 10) =
        none := by
  have hload : LinearMemory.zeroPage.load 0 10 = _ := LinearMemory.zeroPage_load (by decide)
  have hs : guestSlice dirOpened.kernel.memory 0 10 = .ok _ := guestSlice_of_load hload (le_refl 10)
  have hd : Lists (fun _ => .ok oneFile) "/d" (dirOpened.filePos 0) oneFile := .inr ⟨rfl, rfl⟩
  obtain ⟨w', hrun, hbytes, -⟩ := dirOpened_fresh.streamOk.served hd hs (by decide)
  have hlen : (portion oneFile.listing 0 10).length = 10 := by
    rw [portion_length, show oneFile.listing.length = 27 from listing_fileA_length]
    rfl
  rw [List.length_nil, hlen] at hrun hbytes
  refine ⟨congrArg Prod.fst hrun, ?_⟩
  rw [show (getdents64 (fun _ => .ok oneFile) dirOpened 3 0 10).2 = w' from congrArg Prod.snd hrun,
    show bytesAt w'.kernel.memory 0 10 = portion oneFile.listing 0 10 from hbytes]
  have hne : portion oneFile.listing 0 10 ≠ [] := List.length_pos_iff.mp (by omega)
  rw [frames, if_neg hne, reclenOf, if_neg (by omega)]

end EdgeLibos.Sys
