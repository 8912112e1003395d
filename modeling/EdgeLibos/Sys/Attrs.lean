import EdgeLibos.Lib.History
import EdgeLibos.Sys.FileInfo
import EdgeLibos.Sys.Timeouts

/-!
# The attributes of a file

`chmod`, `truncate`, `utimensat` and their kin change a file through a path or a descriptor,
and `stat`, `statx` and `faccessat` tell of it. In every run they tell of each file what was
done to it, whatever names and descriptors it has.
-/

namespace EdgeLibos.Sys.FileInfo

open Errno Lib
open HostTree (ErrorKind)
open Paths (ioToErrno AT_FDCWD AT_EMPTY_PATH STATX_SIZE)
open SockAddrs (copy_read)
open Timeouts (timespecFromBytes)

-- ---------------------------------------------------------------------------
-- Calls that change a file
-- ---------------------------------------------------------------------------

def Drive.setInode (d : Drive) (node : Nat) (m : Metadata) : Drive :=
  { d with inodes := Function.update d.inodes node m }

/-- The type stays, and the other twelve bits are set. The host may take set-id bits from a
caller that has no right to them. -/
def Drive.setMode (d : Drive) (node : Nat) (mode drops : UInt32) : Drive :=
  let m := d.inodes node
  d.setInode node { m with permissions := (m.permissions &&& ~~~0o7777) ||| keptMode drops (mode &&& 0o7777) }

/-- The host touches a file that it cuts, and may take its set-id bits. -/
def Drive.setLen (d : Drive) (node : Nat) (len : UInt64) (now : Int) (drops : UInt32) : Drive :=
  let m := d.inodes node
  d.setInode node { m with len, permissions := keptMode drops m.permissions, modified := some now }

def Drive.setModified (d : Drive) (node : Nat) (t : Int) : Drive :=
  d.setInode node { d.inodes node with modified := some t }

/-- What is done to a file, unless the host objects. -/
def faulty (host : Host) (d done : Drive) : Int × Drive :=
  match host.fault with
  | some e => (-ioToErrno e, d)
  | none => (0, done)

/-- The descriptor is cut to 32 bits. -/
def fchmod (d : Drive) (fd mode : Int) (host : Host) : Int × Drive :=
  match nodeAt d.kernel (.ofBitVec (.ofInt 32 fd)) with
  | .error e => (e, d)
  | .ok none => (-EBADF, d)
  | .ok (some node) => faulty host d (d.setMode node (.ofBitVec (.ofInt 32 mode)) host.drops)

def fchmodat (d : Drive) (dirfd pathPtr mode : Int) (host : Host) : Int × Drive :=
  match findAt d dirfd pathPtr host with
  | .error e => (e, d)
  | .ok node => faulty host d (d.setMode node (.ofBitVec (.ofInt 32 mode)) host.drops)

/-- A file that is not open for writing is no argument for the host. -/
def ftruncate (d : Drive) (fd len : Int) (host : Host) : Int × Drive :=
  match u32Fd fd with
  | none => (-EBADF, d)
  | some fd =>
    if len < 0 then (-EINVAL, d)
    else
      match d.kernel.fds.get fd with
      | .ok (.file ref) =>
        let f := (d.kernel.cells.files.read ref).inner
        if f.writable then faulty host d (d.setLen f.node (.ofInt len) host.now host.drops)
        else (-ioToErrno .invalidInput, d)
      | .ok _ => (-EBADF, d)
      | .error e => (e, d)

/-- The file may be new: it is made before it is cut. -/
def truncate (d : Drive) (pathPtr len : Int) (host : Host) (fresh : Option Metadata) : Int × Drive :=
  match pathArg d.kernel pathPtr with
  | .error e => (e, d)
  | .ok path =>
    if len < 0 then (-EINVAL, d)
    else
      match resolveAt d.kernel AT_FDCWD path with
      | .error e => (e, d)
      | .ok abs =>
        match host.find abs with
        | .error e => (-ioToErrno e, d)
        | .ok node =>
          let made := fresh.elim d (d.setInode node)
          faulty host made (made.setLen node (.ofInt len) host.now host.drops)

/-- The new `mtime`; the `atime` is read and dropped. `none` is a panic. -/
def timesArg (k : Kernel) (times now : Int) : Option (Except Int Int) :=
  if times = 0 then some (.ok now)
  else
    match guestSlice k.memory times 32 with
    | .error e => some (.error e)
    | .ok bytes => do
      let _ ← timespecFromBytes (bytes.take 16)
      let mtime ← timespecFromBytes (bytes.drop 16)
      return .ok (mtime : Int)

def utimensat (d : Drive) (dirfd pathPtr times : Int) (host : Host) : Option (Int × Drive) :=
  match pathArg d.kernel pathPtr with
  | .error e => some (e, d)
  | .ok path =>
    match resolveAt d.kernel dirfd path with
    | .error e => some (e, d)
    | .ok abs =>
      match timesArg d.kernel times host.now, host.find abs with
      | none, _ => none
      | some (.error e), _ => some (e, d)
      | some (.ok _), .error e => some (-ioToErrno e, d)
      | some (.ok mtime), .ok node => some (faulty host d (d.setModified node mtime))

-- ---------------------------------------------------------------------------
-- Runs
-- ---------------------------------------------------------------------------

inductive Call
  | other (k : Kernel)
  | fstat (fd statbuf : Int) (host : Host)
  | newfstatat (dirfd pathPtr statbuf flags : Int) (host : Host)
  | statx (dirfd pathPtr flags buf : Int) (host : Host)
  | faccessat (dirfd pathPtr want : Int) (host : Host)
  | fchmod (fd mode : Int) (host : Host)
  | fchmodat (dirfd pathPtr mode : Int) (host : Host)
  | ftruncate (fd len : Int) (host : Host)
  | truncate (pathPtr len : Int) (host : Host) (fresh : Option Metadata)
  | utimensat (dirfd pathPtr times : Int) (host : Host)

/-- What a call returns and leaves; `none` is a panic. Other calls, and the guest, may do
anything to the kernel. -/
def run (d : Drive) : Call → Option (Int × Drive)
  | .other k => some (0, { d with kernel := k })
  | .fstat fd statbuf host => some (fstat d fd statbuf host)
  | .newfstatat dirfd pathPtr statbuf flags host => some (newfstatat d dirfd pathPtr statbuf flags host)
  | .statx dirfd pathPtr flags buf host => some (statx d dirfd pathPtr flags buf host)
  | .faccessat dirfd pathPtr want host => some (faccessat d dirfd pathPtr want host, d)
  | .fchmod fd mode host => some (fchmod d fd mode host)
  | .fchmodat dirfd pathPtr mode host => some (fchmodat d dirfd pathPtr mode host)
  | .ftruncate fd len host => some (ftruncate d fd len host)
  | .truncate pathPtr len host fresh => some (truncate d pathPtr len host fresh)
  | .utimensat dirfd pathPtr times host => utimensat d dirfd pathPtr times host

def next (d : Drive) (c : Call) : Option Drive := (run d c).map Prod.snd

-- ---------------------------------------------------------------------------
-- What the guest is told
-- ---------------------------------------------------------------------------

structure Attrs where
  perm : UInt32
  size : UInt64
  mtime : UInt64 × UInt32
  deriving DecidableEq, Repr

def attrs (m : Metadata) : Attrs :=
  { perm := m.permissions &&& 0o7777, size := m.len, mtime := timeSplit (m.modified.getD 0) }

def Stat.attrs (s : Stat) : Attrs :=
  { perm := s.mode &&& 0o7777, size := s.size.toUInt64, mtime := (s.mtime.toUInt64, s.mtimeNsec.toUInt64.toUInt32) }

def Statx.attrs (s : Statx) : Attrs :=
  { perm := s.mode.toUInt32 &&& 0o7777, size := s.size
    mtime := (s.mtimeSec.toUInt64, s.mtimeNsec.toUInt64.toUInt32) }

/-- What is done to a file or said of it. -/
inductive Event
  | made (a : Attrs)
  | chmod (mode drops : UInt32)
  | cut (size : UInt64) (mtime : UInt64 × UInt32) (drops : UInt32)
  | stamped (mtime : UInt64 × UInt32)
  | told (a : Attrs)
  | access (want : BitVec 32) (code : Int)
  deriving DecidableEq, Repr

def Attrs.take (a : Attrs) : Event → Option Attrs
  | .made a => some a
  | .chmod mode drops => some { a with perm := keptMode drops (mode &&& 0o7777) }
  | .cut size mtime drops => some { perm := keptMode drops a.perm, size, mtime }
  | .stamped mtime => some { a with mtime }
  | .told told => if told = a then some a else none
  | .access want code => if code = FileInfo.access a.perm want then some a else none

def fdNode (d : Drive) (fd : Int) (host : Host) : Option Nat :=
  if host.known then (u32Fd fd).bind fun fd => (nodeAt d.kernel fd).toOption.join else none

/-- The file that `newfstatat` and `statx` are asked about. -/
def statNode (d : Drive) (dirfd pathPtr flags : Int) (host : Host) : Option Nat :=
  match guestStr d.kernel.memory pathPtr PATH_MAX with
  | .error _ => none
  | .ok path =>
    if BitVec.ofInt 32 flags &&& AT_EMPTY_PATH ≠ 0 ∧ path.isEmpty then fdNode d dirfd host
    else (findAt d dirfd pathPtr host).toOption

def bytesAt (d : Drive) (ptr : Int) (size : Nat) : List UInt8 :=
  ((guestSlice d.kernel.memory ptr size).toOption).getD []

/-- The event, if the call returned 0 and was about this file. -/
def heardIf (code : Int) (about : Option Nat) (node : Nat) (e : Event) : List Event :=
  if code = 0 ∧ about = some node then [e] else []

def heard (node : Nat) (d : Drive) (c : Call) : List Event :=
  (run d c).elim [] fun (code, d') =>
    match c with
    | .other _ => []
    | .fstat fd statbuf host =>
      heardIf code (fdNode d fd host) node (.told (Stat.parse (bytesAt d' statbuf STAT_SIZE)).attrs)
    | .newfstatat dirfd pathPtr statbuf flags host =>
      heardIf code (statNode d dirfd pathPtr flags host) node
        (.told (Stat.parse (bytesAt d' statbuf STAT_SIZE)).attrs)
    | .statx dirfd pathPtr flags buf host =>
      heardIf code (statNode d dirfd pathPtr flags host) node
        (.told (Statx.parse (bytesAt d' buf STATX_SIZE)).attrs)
    | .faccessat dirfd pathPtr want host =>
      if (findAt d dirfd pathPtr host).toOption = some node then [.access (.ofInt 32 want) code] else []
    | .fchmod fd mode host =>
      heardIf code (nodeAt d.kernel (.ofBitVec (.ofInt 32 fd))).toOption.join node
        (.chmod (.ofBitVec (.ofInt 32 mode)) host.drops)
    | .fchmodat dirfd pathPtr mode host =>
      heardIf code (findAt d dirfd pathPtr host).toOption node (.chmod (.ofBitVec (.ofInt 32 mode)) host.drops)
    | .ftruncate fd len host =>
      heardIf code ((u32Fd fd).bind fun fd => (nodeAt d.kernel fd).toOption.join) node
        (.cut (.ofInt len) (timeSplit host.now) host.drops)
    | .truncate pathPtr len host fresh =>
      let about := if len < 0 then none else (findAt d AT_FDCWD pathPtr host).toOption
      (fresh.elim [] fun m => heardIf 0 about node (.made (attrs m))) ++
        heardIf code about node (.cut (.ofInt len) (timeSplit host.now) host.drops)
    | .utimensat dirfd pathPtr times host =>
      match timesArg d.kernel times host.now with
      | some (.ok mtime) => heardIf code (findAt d dirfd pathPtr host).toOption node (.stamped (timeSplit mtime))
      | _ => []

-- ---------------------------------------------------------------------------
-- What the structs say
-- ---------------------------------------------------------------------------

theorem timeSplit_lt (t : Int) : (timeSplit t).2.toNat < 1000000000 := by
  unfold timeSplit
  split <;> simp <;> omega

theorem mask_or {p t m : UInt32} (h : t &&& m = 0) : (p &&& m ||| t) &&& m = p &&& m := by
  apply UInt32.toBitVec_inj.mp
  have h := congrArg UInt32.toBitVec h
  ext i hi
  have hi' := congrArg (fun v => v[i]) h
  simp at hi' ⊢
  grind

theorem modeFrom_perm (ft : FileType) (perm : UInt32) : modeFrom ft perm &&& 0o7777 = perm &&& 0o7777 := by
  cases ft <;> exact mask_or (by decide)

theorem toUInt16_toUInt32 (x : UInt32) : ((x &&& 0xffff).toUInt16).toUInt32 = x &&& 0xffff := by
  have hlow := Nat.and_two_pow_sub_one_eq_mod x.toNat 16
  have hword := Nat.and_two_pow_sub_one_eq_mod (x.toNat % 65536) 16
  apply UInt32.toNat_inj.mp
  simp at hlow hword ⊢
  omega

theorem stat_attrs (m : Metadata) : (Stat.fromMetadata m).attrs = attrs m := by
  simp [Stat.attrs, Stat.fromMetadata, attrs, modeFrom_perm]

theorem clampNsec_timeSplit (t : Int) :
    clampNsec (timeSplit t).2.toUInt64.toInt64 = (timeSplit t).2.toUInt64.toInt64 := by
  have hlt := timeSplit_lt t
  generalize (timeSplit t).2 = nsec at hlt ⊢
  have hword : nsec.toUInt64.toNat = nsec.toNat := by simp
  have hfits : nsec.toUInt64.toNat < 2 ^ 63 := by omega
  have hvalue : nsec.toUInt64.toInt64.toInt = nsec.toNat := by
    rw [← UInt64.ofNat_toNat (x := nsec.toUInt64), UInt64.toInt64_ofNat', Int64.toInt_ofNat_of_lt hfits, hword]
  have hneg : ¬ nsec.toUInt64.toInt64 < 0 := by
    rw [Int64.lt_iff_toInt_lt, hvalue]
    simp
  have hlarge : ¬ 999999999 < nsec.toUInt64.toInt64 := by
    rw [Int64.lt_iff_toInt_lt, hvalue]
    simp
    omega
  rw [clampNsec, if_neg hneg, if_neg hlarge]

theorem statx_attrs (m : Metadata) : (Statx.fromStat (Stat.fromMetadata m)).attrs = attrs m := by
  have hmode (x : UInt32) : x &&& 0xffff &&& 0o7777 = x &&& 0o7777 := by
    rw [UInt32.and_assoc]
    rfl
  simp only [Statx.attrs, Statx.fromStat, toUInt16_toUInt32, hmode]
  simp [Stat.fromMetadata, attrs, modeFrom_perm, clampNsec_timeSplit]

theorem access_perm (mode : UInt32) (want : BitVec 32) : access (mode &&& 0o7777) want = access mode want := by
  have hr : mode &&& 0o7777 &&& 0o444 = mode &&& 0o444 := by
    rw [UInt32.and_assoc]
    rfl
  have hw : mode &&& 0o7777 &&& 0o222 = mode &&& 0o222 := by
    rw [UInt32.and_assoc]
    rfl
  have hx : mode &&& 0o7777 &&& 0o111 = mode &&& 0o111 := by
    rw [UInt32.and_assoc]
    rfl
  simp only [access, hr, hw, hx]

-- ---------------------------------------------------------------------------
-- One call
-- ---------------------------------------------------------------------------

section
variable {d d' : Drive} {host : Host} {node : Nat}

theorem toOption_some {x : Except ε α} (h : x.toOption = some a) : x = .ok a := by
  cases x with
  | error e => cases h
  | ok b =>
    cases h
    rfl

theorem put_bytes (h : (d.put ptr bytes).1 = 0) (hsize : bytes.length = size) :
    bytesAt (d.put ptr bytes).2 ptr size = bytes := by
  unfold Drive.put at h ⊢
  cases hcopy : guestCopy d.kernel.memory ptr bytes.length bytes with
  | error e =>
    rw [hcopy] at h
    exact absurd h (guestCopy_error_neg hcopy).ne
  | ok memory =>
    have hread := copy_read hcopy
    rw [hsize] at hread
    simp only [bytesAt, hread, Except.toOption, Option.getD_some]

@[simp] theorem put_inodes (d : Drive) (ptr : Int) (bytes : List UInt8) : (d.put ptr bytes).2.inodes = d.inodes := by
  unfold Drive.put
  split <;> rfl

theorem fstat_inodes (fd statbuf : Int) : (fstat d fd statbuf host).2.inodes = d.inodes := by
  unfold fstat
  split
  · rfl
  · split
    · rfl
    · exact put_inodes ..
    · exact put_inodes ..

theorem fstat_node (h : fdNode d fd host = some node) (statbuf : Int) :
    fstat d fd statbuf host = d.put statbuf (Stat.fromMetadata (d.inodes node)).encode := by
  unfold fdNode at h
  split at h
  · rename_i hknown
    obtain ⟨fd', hfd, h⟩ := Option.bind_eq_some_iff.mp h
    cases hnode : nodeAt d.kernel fd' with
    | error e => simp [hnode, Except.toOption] at h
    | ok found =>
      simp only [hnode, Except.toOption, Option.join_some] at h
      simp only [fstat, hfd, hnode, h, hknown, if_true]
  · cases h

theorem newfstatat_inodes (dirfd pathPtr statbuf flags : Int) :
    (newfstatat d dirfd pathPtr statbuf flags host).2.inodes = d.inodes := by
  unfold newfstatat
  split
  · rfl
  · split
    · exact fstat_inodes ..
    · split
      · rfl
      · split
        · rfl
        · split
          · rfl
          · exact put_inodes ..

theorem findAt_ok (h : findAt d dirfd pathPtr host = .ok node) : ∃ path abs,
    guestStr d.kernel.memory pathPtr PATH_MAX = .ok path ∧ path.isEmpty = false ∧
      pathArg d.kernel pathPtr = .ok path ∧ resolveAt d.kernel dirfd path = .ok abs ∧ host.find abs = .ok node := by
  unfold findAt at h
  cases hpath : pathArg d.kernel pathPtr with
  | error e => simp [hpath] at h
  | ok path =>
    simp only [hpath] at h
    cases habs : resolveAt d.kernel dirfd path with
    | error e => simp [habs] at h
    | ok abs =>
      simp only [habs] at h
      cases hfind : host.find abs with
      | error e => simp [hfind] at h
      | ok found =>
        simp only [hfind] at h
        cases h
        unfold pathArg at hpath
        split at hpath
        · cases hpath
        · rename_i text htext
          split at hpath
          · cases hpath
          · rename_i hempty
            cases hpath
            exact ⟨path, abs, htext, by simpa using hempty, rfl, habs, hfind⟩

theorem newfstatat_node (h : statNode d dirfd pathPtr flags host = some node) (statbuf : Int) :
    newfstatat d dirfd pathPtr statbuf flags host = d.put statbuf (Stat.fromMetadata (d.inodes node)).encode := by
  unfold statNode at h
  split at h
  · cases h
  · rename_i path hpath
    simp only [newfstatat, hpath]
    split at h
    · rename_i hself
      rw [if_pos hself, fstat_node h]
    · rename_i hself
      obtain ⟨path', abs, hpath', hempty, -, habs, hfind⟩ := findAt_ok (toOption_some h)
      cases hpath.symm.trans hpath'
      rw [if_neg hself, if_neg (by simp [hempty])]
      simp only [habs, hfind]

theorem statx_inodes (dirfd pathPtr flags buf : Int) :
    (statx d dirfd pathPtr flags buf host).2.inodes = d.inodes := by
  unfold statx
  split
  · rfl
  · split
    · rfl
    · split
      · rfl
      · split
        · rfl
        · exact put_inodes ..

theorem statxOf_node (h : statNode d dirfd pathPtr flags host = some node)
    (hpath : guestStr d.kernel.memory pathPtr PATH_MAX = .ok path) :
    statxOf d dirfd path (BitVec.ofInt 32 flags) host = .ok (.fromMetadata (d.inodes node)) := by
  simp only [statNode, hpath] at h
  unfold statxOf
  split at h
  · rename_i hself
    rw [if_pos hself]
    unfold fdNode at h
    split at h
    · rename_i hknown
      obtain ⟨fd, hfd, h⟩ := Option.bind_eq_some_iff.mp h
      cases hnode : nodeAt d.kernel fd with
      | error e => simp [hnode, Except.toOption] at h
      | ok found =>
        simp only [hnode, Except.toOption, Option.join_some] at h
        simp only [hfd, hnode, h, hknown, if_true]
    · cases h
  · rename_i hself
    obtain ⟨path', abs, hpath', hempty, -, habs, hfind⟩ := findAt_ok (toOption_some h)
    cases hpath.symm.trans hpath'
    rw [if_neg hself, if_neg (by simp [hempty])]
    simp only [habs, hfind]

theorem statx_node (h : statNode d dirfd pathPtr flags host = some node)
    (hcode : (statx d dirfd pathPtr flags buf host).1 = 0) :
    statx d dirfd pathPtr flags buf host =
      d.put buf (Statx.fromStat (Stat.fromMetadata (d.inodes node))).encode := by
  obtain ⟨path, hpath⟩ : ∃ path, guestStr d.kernel.memory pathPtr PATH_MAX = .ok path := by
    unfold statNode at h
    split at h
    · cases h
    · exact ⟨_, by assumption⟩
  have hof := statxOf_node h hpath
  unfold statx at hcode ⊢
  split at hcode
  · cases hcode
  · rename_i hflags
    rw [if_neg hflags]
    split at hcode
    · rename_i hslice
      exact absurd hcode (guestSlice_error_neg hslice).ne
    · rename_i hslice
      simp only [hpath, hof]

end

-- ---------------------------------------------------------------------------
-- Whole runs
-- ---------------------------------------------------------------------------

section
variable {d d' : Drive} {host : Host} {node : Nat}

theorem heardIf_taken {a a' : Attrs} {e : Event} (h : code = 0 → about = some node → a.take e = some a')
    (hsame : ¬ (code = 0 ∧ about = some node) → a' = a) :
    (heardIf code about node e).foldlM Attrs.take a = some a' := by
  unfold heardIf
  split
  · rename_i hheard
    simp [h hheard.1 hheard.2]
  · rename_i hheard
    simp [hsame hheard]

theorem setInode_attrs (n : Nat) (m : Metadata) :
    attrs ((d.setInode n m).inodes node) = if node = n then attrs m else attrs (d.inodes node) := by
  simp only [Drive.setInode, Function.update_apply]
  exact apply_ite attrs ..

theorem and_not_and (x y m : UInt32) : x &&& ~~~y &&& m = x &&& m &&& ~~~y := by
  rw [UInt32.and_assoc, UInt32.and_comm (~~~y), ← UInt32.and_assoc]

theorem setMode_attrs (n : Nat) (mode drops : UInt32) : attrs ((d.setMode n mode drops).inodes node) =
    if node = n then { attrs (d.inodes n) with perm := keptMode drops (mode &&& 0o7777) }
    else attrs (d.inodes node) := by
  have hlow (x : UInt32) : x &&& ~~~0o7777 &&& 0o7777 = 0 := by
    rw [UInt32.and_assoc, UInt32.not_and_self, UInt32.and_zero]
  have hperm (x : UInt32) : (x &&& ~~~0o7777 ||| keptMode drops (mode &&& 0o7777)) &&& 0o7777 =
      keptMode drops (mode &&& 0o7777) := by
    have hswap : keptMode drops (mode &&& 0o7777) = keptMode drops mode &&& 0o7777 := (and_not_and ..).symm
    rw [hswap, UInt32.or_comm, mask_or (hlow x)]
  rw [Drive.setMode, setInode_attrs]
  split
  · rename_i hn
    subst hn
    simp only [attrs, hperm]
  · rfl

theorem setLen_attrs (n : Nat) (len : UInt64) (now : Int) (drops : UInt32) :
    attrs ((d.setLen n len now drops).inodes node) =
      if node = n then { perm := keptMode drops (attrs (d.inodes n)).perm, size := len, mtime := timeSplit now }
      else attrs (d.inodes node) := by
  rw [Drive.setLen, setInode_attrs]
  split
  · rename_i hn
    subst hn
    simp only [attrs, keptMode, and_not_and, Option.getD_some]
  · rfl

theorem setModified_attrs (n : Nat) (t : Int) : attrs ((d.setModified n t).inodes node) =
    if node = n then { attrs (d.inodes n) with mtime := timeSplit t } else attrs (d.inodes node) := by
  rw [Drive.setModified, setInode_attrs]
  split
  · rename_i hn
    subst hn
    rfl
  · rfl

theorem ioToErrno_ne (e : ErrorKind) : -ioToErrno e ≠ 0 := by cases e <;> decide

/-- Where a call does something to one file, that is what happens to it. -/
theorem faulty_taken {done : Drive} {e : Event} (n : Nat)
    (hdone : ∀ node, attrs (done.inodes node) = if node = n then a' else attrs (d.inodes node))
    (htake : (attrs (d.inodes n)).take e = some a') :
    (heardIf (faulty host d done).1 (some n) node e).foldlM Attrs.take (attrs (d.inodes node)) =
      some (attrs ((faulty host d done).2.inodes node)) := by
  cases hfault : host.fault with
  | some e =>
    simp only [faulty, hfault]
    exact heardIf_taken (fun h => absurd h (ioToErrno_ne _)) fun _ => rfl
  | none =>
    simp only [faulty, hfault, hdone]
    refine heardIf_taken (fun _ h => ?_) fun h => ?_
    · cases h
      rw [if_pos rfl]
      exact htake
    · rw [if_neg fun hn => h ⟨rfl, congrArg some hn.symm⟩]

theorem none_taken (h : d'.inodes = d.inodes) (code : Int) (e : Event) :
    (heardIf code none node e).foldlM Attrs.take (attrs (d.inodes node)) = some (attrs (d'.inodes node)) := by
  rw [h]
  exact heardIf_taken (fun _ h => by cases h) fun _ => rfl

theorem told_taken {r : Int × Drive} {told : Attrs} (hinodes : r.2.inodes = d.inodes)
    (htold : ∀ n, about = some n → r.1 = 0 → told = attrs (d.inodes n)) :
    (heardIf r.1 about node (.told told)).foldlM Attrs.take (attrs (d.inodes node)) =
      some (attrs (r.2.inodes node)) := by
  rw [hinodes]
  refine heardIf_taken (fun hcode habout => ?_) fun _ => rfl
  simp [Attrs.take, htold node habout hcode]

theorem fstat_told (h : fdNode d fd host = some node) (hcode : (fstat d fd statbuf host).1 = 0) :
    (Stat.parse (bytesAt (fstat d fd statbuf host).2 statbuf STAT_SIZE)).attrs = attrs (d.inodes node) := by
  rw [fstat_node h] at hcode ⊢
  rw [put_bytes hcode (encode_stat_length _), parse_stat, stat_attrs]

theorem newfstatat_told (h : statNode d dirfd pathPtr flags host = some node)
    (hcode : (newfstatat d dirfd pathPtr statbuf flags host).1 = 0) :
    (Stat.parse (bytesAt (newfstatat d dirfd pathPtr statbuf flags host).2 statbuf STAT_SIZE)).attrs =
      attrs (d.inodes node) := by
  rw [newfstatat_node h] at hcode ⊢
  rw [put_bytes hcode (encode_stat_length _), parse_stat, stat_attrs]

theorem statx_told (h : statNode d dirfd pathPtr flags host = some node)
    (hcode : (statx d dirfd pathPtr flags buf host).1 = 0) :
    (Statx.parse (bytesAt (statx d dirfd pathPtr flags buf host).2 buf STATX_SIZE)).attrs =
      attrs (d.inodes node) := by
  have hput := statx_node h hcode
  rw [hput] at hcode ⊢
  rw [put_bytes hcode (encode_statx_length _), parse_statx, statx_attrs]

theorem fchmod_taken (fd mode : Int) :
    (heard node d (.fchmod fd mode host)).foldlM Attrs.take (attrs (d.inodes node)) =
      some (attrs ((fchmod d fd mode host).2.inodes node)) := by
  show (heardIf (fchmod d fd mode host).1 _ node _).foldlM Attrs.take _ = _
  cases hnode : nodeAt d.kernel (.ofBitVec (.ofInt 32 fd)) with
  | error e =>
    simp only [fchmod, hnode]
    exact none_taken rfl _ _
  | ok found =>
    cases found with
    | none =>
      simp only [fchmod, hnode]
      exact none_taken rfl _ _
    | some n =>
      simp only [fchmod, hnode]
      exact faulty_taken n (fun node => setMode_attrs n _ _) rfl

theorem fchmodat_taken (dirfd pathPtr mode : Int) :
    (heard node d (.fchmodat dirfd pathPtr mode host)).foldlM Attrs.take (attrs (d.inodes node)) =
      some (attrs ((fchmodat d dirfd pathPtr mode host).2.inodes node)) := by
  show (heardIf (fchmodat d dirfd pathPtr mode host).1 _ node _).foldlM Attrs.take _ = _
  cases hfind : findAt d dirfd pathPtr host with
  | error e =>
    simp only [fchmodat, hfind]
    exact none_taken rfl _ _
  | ok n =>
    simp only [fchmodat, hfind]
    exact faulty_taken n (fun node => setMode_attrs n _ _) rfl

theorem ftruncate_taken (fd len : Int) :
    (heard node d (.ftruncate fd len host)).foldlM Attrs.take (attrs (d.inodes node)) =
      some (attrs ((ftruncate d fd len host).2.inodes node)) := by
  show (heardIf (ftruncate d fd len host).1 _ node _).foldlM Attrs.take _ = _
  cases hfd : u32Fd fd with
  | none =>
    simp only [ftruncate, hfd]
    exact none_taken rfl _ _
  | some fd' =>
    have hebadf : -EBADF ≠ 0 := by decide
    have hinval : -EINVAL ≠ 0 := by decide
    simp only [ftruncate, hfd]
    by_cases hlen : len < 0
    · rw [if_pos hlen]
      exact heardIf_taken (fun h => absurd h hinval) fun _ => rfl
    · rw [if_neg hlen]
      cases hget : d.kernel.fds.get fd' with
      | error e =>
        exact heardIf_taken (fun h => absurd h (get_error_neg hget).ne) fun _ => rfl
      | ok r =>
        cases r with
        | file ref =>
          by_cases hwritable : (d.kernel.cells.files.read ref).inner.writable
          · simp only [hwritable, if_true, Option.bind_some, nodeAt, hget, Except.toOption, Option.join_some]
            exact faulty_taken _ (fun node => setLen_attrs _ _ _ _) rfl
          · simp only [hwritable]
            exact heardIf_taken (fun h => absurd h (ioToErrno_ne _)) fun _ => rfl
        | _ => exact heardIf_taken (fun h => absurd h hebadf) fun _ => rfl

theorem truncate_cases (pathPtr len : Int) (fresh : Option Metadata) :
    let about := if len < 0 then none else (findAt d AT_FDCWD pathPtr host).toOption
    (about = none ∧ (truncate d pathPtr len host fresh).2 = d) ∨
      ∃ n, about = some n ∧ truncate d pathPtr len host fresh =
        faulty host (fresh.elim d (d.setInode n))
          ((fresh.elim d (d.setInode n)).setLen n (.ofInt len) host.now host.drops) := by
  cases hpath : pathArg d.kernel pathPtr with
  | error e => simp [truncate, findAt, hpath, Except.toOption]
  | ok path =>
    by_cases hlen : len < 0
    · simp [truncate, hpath, hlen]
    · cases habs : resolveAt d.kernel AT_FDCWD path with
      | error e => simp [truncate, findAt, hpath, hlen, habs, Except.toOption]
      | ok abs =>
        cases hfind : host.find abs with
        | error e => simp [truncate, findAt, hpath, hlen, habs, hfind, Except.toOption]
        | ok n => simp [truncate, findAt, hpath, hlen, habs, hfind, Except.toOption]

theorem truncate_taken (pathPtr len : Int) (fresh : Option Metadata) :
    (heard node d (.truncate pathPtr len host fresh)).foldlM Attrs.take (attrs (d.inodes node)) =
      some (attrs ((truncate d pathPtr len host fresh).2.inodes node)) := by
  show ((fresh.elim [] fun m => heardIf 0 _ node _) ++
    heardIf (truncate d pathPtr len host fresh).1 _ node _).foldlM Attrs.take _ = _
  rw [List.foldlM_append]
  rcases @truncate_cases d host pathPtr len fresh with ⟨habout, hsame⟩ | ⟨n, habout, htruncate⟩
  · rw [habout, hsame]
    have hmade : ((fresh.elim [] fun m => heardIf 0 none node (.made (attrs m))).foldlM Attrs.take
        (attrs (d.inodes node))) = some (attrs (d.inodes node)) := by
      cases fresh with
      | none => rfl
      | some m => exact none_taken rfl _ _
    rw [hmade]
    exact none_taken rfl _ _
  · rw [habout, htruncate]
    have hmade : ((fresh.elim [] fun m => heardIf 0 (some n) node (.made (attrs m))).foldlM Attrs.take
        (attrs (d.inodes node))) = some (attrs ((fresh.elim d (d.setInode n)).inodes node)) := by
      cases fresh with
      | none => rfl
      | some m =>
        refine heardIf_taken (fun _ h => ?_) fun h => ?_
        · cases h
          simp [Attrs.take, setInode_attrs]
        · simp only [Option.elim_some, setInode_attrs]
          rw [if_neg fun hn => h ⟨rfl, congrArg some hn.symm⟩]
    rw [hmade]
    exact faulty_taken n (fun node => setLen_attrs n _ _ _) rfl

theorem utimensat_taken (dirfd pathPtr times : Int) (h : utimensat d dirfd pathPtr times host = some r) :
    (heard node d (.utimensat dirfd pathPtr times host)).foldlM Attrs.take (attrs (d.inodes node)) =
      some (attrs (r.2.inodes node)) := by
  have hheard : heard node d (.utimensat dirfd pathPtr times host) =
      match timesArg d.kernel times host.now with
      | some (.ok mtime) => heardIf r.1 (findAt d dirfd pathPtr host).toOption node (.stamped (timeSplit mtime))
      | _ => [] := by
    simp only [heard, run, h, Option.elim_some]
  rw [hheard]
  unfold utimensat at h
  unfold findAt
  cases hpath : pathArg d.kernel pathPtr with
  | error e =>
    simp only [hpath] at h
    cases h
    split
    · exact none_taken rfl _ _
    · rfl
  | ok path =>
    simp only [hpath] at h
    cases habs : resolveAt d.kernel dirfd path with
    | error e =>
      simp only [habs] at h
      cases h
      simp only [habs]
      split
      · exact none_taken rfl _ _
      · rfl
    | ok abs =>
      simp only [habs] at h ⊢
      cases htimes : timesArg d.kernel times host.now with
      | none => simp [htimes] at h
      | some times' =>
        cases times' with
        | error e =>
          simp only [htimes] at h
          cases h
          rfl
        | ok mtime =>
          cases hfind : host.find abs with
          | error e =>
            simp only [htimes, hfind] at h
            cases h
            exact none_taken rfl _ _
          | ok n =>
            simp only [htimes, hfind] at h
            cases h
            exact faulty_taken n (fun node => setModified_attrs n _) rfl

theorem step_taken (node : Nat) (d : Drive) (c : Call) (d' : Drive) (h : next d c = some d') :
    (heard node d c).foldlM Attrs.take (attrs (d.inodes node)) = some (attrs (d'.inodes node)) := by
  cases c with
  | other k =>
    cases h
    rfl
  | fstat fd statbuf host =>
    cases h
    exact told_taken (r := fstat d fd statbuf host) (fstat_inodes fd statbuf) fun n hn hcode => fstat_told hn hcode
  | newfstatat dirfd pathPtr statbuf flags host =>
    cases h
    exact told_taken (r := newfstatat d dirfd pathPtr statbuf flags host)
      (newfstatat_inodes dirfd pathPtr statbuf flags) fun n hn hcode => newfstatat_told hn hcode
  | statx dirfd pathPtr flags buf host =>
    cases h
    exact told_taken (r := statx d dirfd pathPtr flags buf host) (statx_inodes dirfd pathPtr flags buf)
      fun n hn hcode => statx_told hn hcode
  | faccessat dirfd pathPtr want host =>
    cases h
    simp only [heard, run, Option.elim_some]
    split
    · rename_i hfind
      have hcode : faccessat d dirfd pathPtr want host = access (d.inodes node).permissions (BitVec.ofInt 32 want) := by
        simp only [faccessat, toOption_some hfind]
      simp [Attrs.take, hcode, attrs, access_perm]
    · rfl
  | fchmod fd mode host =>
    cases h
    exact fchmod_taken fd mode
  | fchmodat dirfd pathPtr mode host =>
    cases h
    exact fchmodat_taken dirfd pathPtr mode
  | ftruncate fd len host =>
    cases h
    exact ftruncate_taken fd len
  | truncate pathPtr len host fresh =>
    cases h
    exact truncate_taken pathPtr len fresh
  | utimensat dirfd pathPtr times host =>
    obtain ⟨r, hrun, rfl⟩ := Option.map_eq_some_iff.mp h
    exact utimensat_taken dirfd pathPtr times hrun

end

def oneFile : Host := { known := true, find := fun _ => .ok 5, fault := none, drops := 0o6000, now := 1000000007 }

end EdgeLibos.Sys.FileInfo
