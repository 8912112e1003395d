import EdgeLibos.Lib.Layout
import EdgeLibos.Sys.HostPaths
import EdgeLibos.Sys.SockAddrs

/-!
# stat and statx

The two structs that tell the guest of a file, and the calls that write them or ask for access.
What the host knows of a file is its `Metadata`; which file a path leads to is an argument, as
is whether an open file still has any.
-/

namespace EdgeLibos.Sys.FileInfo

open Errno Lib
open HostTree (ErrorKind)
open Paths (DirEntry resolve ioToErrno vfsIoToErrno bytesOf AT_EMPTY_PATH STATX_FLAGS STATX_SIZE)

inductive FileType
  | dir
  | symlink
  | other
  deriving DecidableEq, Repr

structure Metadata where
  fileType : FileType
  permissions : UInt32
  ino : UInt64
  nlink : UInt64
  len : UInt64
  accessed : Option Int
  modified : Option Int
  created : Option Int
  deriving DecidableEq, Repr

def modeFrom (ft : FileType) (perm : UInt32) : UInt32 :=
  (perm &&& 0o7777) ||| match ft with
    | .dir => 0o040000
    | .symlink => 0o120000
    | .other => 0o100000

/-- Before the epoch the seconds are lost. -/
def timeSplit (t : Int) : UInt64 × UInt32 :=
  if 0 ≤ t then (UInt64.ofNat (t.toNat / 1000000000), UInt32.ofNat (t.toNat % 1000000000))
  else (0, UInt32.ofNat ((-t).toNat % 1000000000))

-- ---------------------------------------------------------------------------
-- struct stat
-- ---------------------------------------------------------------------------

structure Stat where
  dev : UInt64
  ino : UInt64
  nlink : UInt64
  mode : UInt32
  uid : UInt32
  gid : UInt32
  rdev : UInt64
  size : Int64
  blksize : Int64
  blocks : Int64
  atime : Int64
  atimeNsec : Int64
  mtime : Int64
  mtimeNsec : Int64
  ctime : Int64
  ctimeNsec : Int64
  deriving DecidableEq, Repr

def STAT_SIZE : Nat := 120

def Stat.fromMetadata (m : Metadata) : Stat :=
  let (atime, atimeNsec) := timeSplit (m.accessed.getD 0)
  let (mtime, mtimeNsec) := timeSplit (m.modified.getD 0)
  let (ctime, ctimeNsec) := timeSplit (m.created.getD (m.modified.getD 0))
  { dev := 0
    ino := m.ino
    nlink := m.nlink
    mode := modeFrom m.fileType m.permissions
    uid := 1000
    gid := 1000
    rdev := 0
    size := m.len.toInt64
    blksize := 4096
    blocks := Int64.ofNat ((m.len.toNat + 511) / 512)
    atime := atime.toInt64
    atimeNsec := atimeNsec.toUInt64.toInt64
    mtime := mtime.toInt64
    mtimeNsec := mtimeNsec.toUInt64.toInt64
    ctime := ctime.toInt64
    ctimeNsec := ctimeNsec.toUInt64.toInt64 }

def u16 (v : UInt16) : Layout.Field := { width := 2, value := v.toNat }
def u32 (v : UInt32) : Layout.Field := { width := 4, value := v.toNat }
def u64 (v : UInt64) : Layout.Field := { width := 8, value := v.toNat }
def i64 (v : Int64) : Layout.Field := u64 v.toUInt64
def pad (n : Nat) : Layout.Field := { width := n, value := 0 }

def Stat.fields (s : Stat) : List Layout.Field :=
  [u64 s.dev, u64 s.ino, u64 s.nlink, u32 s.mode, u32 s.uid, u32 s.gid, pad 4, u64 s.rdev, i64 s.size,
    i64 s.blksize, i64 s.blocks, i64 s.atime, i64 s.atimeNsec, i64 s.mtime, i64 s.mtimeNsec, i64 s.ctime,
    i64 s.ctimeNsec]

def Stat.encode (s : Stat) : List UInt8 := Layout.encode s.fields

/-- Where a pipe, a socket or a standard stream is asked for. -/
def synthChar : Stat :=
  { dev := 0, ino := 0, nlink := 1, mode := 0o020666, uid := 1000, gid := 1000, rdev := 0, size := 0,
    blksize := 4096, blocks := 0, atime := 0, atimeNsec := 0, mtime := 0, mtimeNsec := 0, ctime := 0,
    ctimeNsec := 0 }

def Stat.widths : List Nat := [8, 8, 8, 4, 4, 4, 4, 8, 8, 8, 8, 8, 8, 8, 8, 8, 8]

/-- What libc makes of the bytes. -/
def Stat.parse (bytes : List UInt8) : Stat :=
  let number (i : Nat) := (Layout.parse widths bytes).getD i 0
  { dev := .ofNat (number 0)
    ino := .ofNat (number 1)
    nlink := .ofNat (number 2)
    mode := .ofNat (number 3)
    uid := .ofNat (number 4)
    gid := .ofNat (number 5)
    rdev := .ofNat (number 7)
    size := .ofNat (number 8)
    blksize := .ofNat (number 9)
    blocks := .ofNat (number 10)
    atime := .ofNat (number 11)
    atimeNsec := .ofNat (number 12)
    mtime := .ofNat (number 13)
    mtimeNsec := .ofNat (number 14)
    ctime := .ofNat (number 15)
    ctimeNsec := .ofNat (number 16) }

-- ---------------------------------------------------------------------------
-- struct statx
-- ---------------------------------------------------------------------------

def STATX_TYPE : UInt32 := 0x1
def STATX_MODE : UInt32 := 0x2
def STATX_NLINK : UInt32 := 0x4
def STATX_UID : UInt32 := 0x8
def STATX_GID : UInt32 := 0x10
def STATX_ATIME : UInt32 := 0x20
def STATX_MTIME : UInt32 := 0x40
def STATX_CTIME : UInt32 := 0x80
def STATX_INO : UInt32 := 0x100
def STATX_BLOCKS : UInt32 := 0x400

structure Statx where
  mask : UInt32
  blksize : UInt32
  attributes : UInt64
  nlink : UInt64
  uid : UInt32
  gid : UInt32
  mode : UInt16
  ino : UInt64
  size : UInt64
  blocks : UInt64
  attributesMask : UInt64
  atimeSec : Int64
  atimeNsec : Int64
  btimeSec : Int64
  btimeNsec : Int64
  ctimeSec : Int64
  ctimeNsec : Int64
  mtimeSec : Int64
  mtimeNsec : Int64
  rdevMajor : UInt32
  rdevMinor : UInt32
  devMajor : UInt64
  devMinor : UInt64
  mntId : UInt64
  dioMemAlign : UInt32
  dioOffsetAlign : UInt32
  deriving DecidableEq, Repr

/-- The size is filled in, but the mask does not say so. -/
def Statx.filledMask : UInt32 :=
  STATX_TYPE ||| STATX_MODE ||| STATX_NLINK ||| STATX_UID ||| STATX_GID ||| STATX_ATIME ||| STATX_MTIME |||
    STATX_CTIME ||| STATX_INO ||| STATX_BLOCKS

def clampNsec (n : Int64) : Int64 := if n < 0 then 0 else if 999999999 < n then 999999999 else n

def Statx.fromStat (s : Stat) : Statx where
  mask := Statx.filledMask
  blksize := s.blksize.toUInt64.toUInt32
  attributes := 0
  nlink := s.nlink
  uid := s.uid
  gid := s.gid
  mode := (s.mode &&& 0xffff).toUInt16
  ino := s.ino
  size := s.size.toUInt64
  blocks := s.blocks.toUInt64
  attributesMask := 0
  atimeSec := s.atime
  atimeNsec := clampNsec s.atimeNsec
  btimeSec := 0
  btimeNsec := 0
  ctimeSec := s.ctime
  ctimeNsec := clampNsec s.ctimeNsec
  mtimeSec := s.mtime
  mtimeNsec := clampNsec s.mtimeNsec
  rdevMajor := 0
  rdevMinor := 0
  devMajor := 0
  devMinor := 0
  mntId := 0
  dioMemAlign := 0
  dioOffsetAlign := 0

def Statx.fields (s : Statx) : List Layout.Field :=
  [u32 s.mask, u32 s.blksize, u64 s.attributes, u64 s.nlink, u32 s.uid, u32 s.gid, u16 s.mode, pad 6,
    u64 s.ino, u64 s.size, u64 s.blocks, u64 s.attributesMask, i64 s.atimeSec, i64 s.atimeNsec, i64 s.btimeSec,
    i64 s.btimeNsec, i64 s.ctimeSec, i64 s.ctimeNsec, i64 s.mtimeSec, i64 s.mtimeNsec, u32 s.rdevMajor,
    u32 s.rdevMinor, u64 s.devMajor, u64 s.devMinor, u64 s.mntId, u32 s.dioMemAlign, u32 s.dioOffsetAlign,
    pad 80]

def Statx.encode (s : Statx) : List UInt8 := Layout.encode s.fields

def Statx.widths : List Nat :=
  [4, 4, 8, 8, 4, 4, 2, 6, 8, 8, 8, 8, 8, 8, 8, 8, 8, 8, 8, 8, 4, 4, 8, 8, 8, 4, 4, 80]

def Statx.parse (bytes : List UInt8) : Statx :=
  let number (i : Nat) := (Layout.parse widths bytes).getD i 0
  { mask := .ofNat (number 0)
    blksize := .ofNat (number 1)
    attributes := .ofNat (number 2)
    nlink := .ofNat (number 3)
    uid := .ofNat (number 4)
    gid := .ofNat (number 5)
    mode := .ofNat (number 6)
    ino := .ofNat (number 8)
    size := .ofNat (number 9)
    blocks := .ofNat (number 10)
    attributesMask := .ofNat (number 11)
    atimeSec := .ofNat (number 12)
    atimeNsec := .ofNat (number 13)
    btimeSec := .ofNat (number 14)
    btimeNsec := .ofNat (number 15)
    ctimeSec := .ofNat (number 16)
    ctimeNsec := .ofNat (number 17)
    mtimeSec := .ofNat (number 18)
    mtimeNsec := .ofNat (number 19)
    rdevMajor := .ofNat (number 20)
    rdevMinor := .ofNat (number 21)
    devMajor := .ofNat (number 22)
    devMinor := .ofNat (number 23)
    mntId := .ofNat (number 24)
    dioMemAlign := .ofNat (number 25)
    dioOffsetAlign := .ofNat (number 26) }

-- ---------------------------------------------------------------------------
-- The bytes tell the struct
-- ---------------------------------------------------------------------------

section

@[simp] theorem u16_fits (v : UInt16) : (u16 v).Fits := v.toNat_lt

@[simp] theorem u32_fits (v : UInt32) : (u32 v).Fits := v.toNat_lt

@[simp] theorem u64_fits (v : UInt64) : (u64 v).Fits := v.toNat_lt

@[simp] theorem i64_fits (v : Int64) : (i64 v).Fits := v.toUInt64.toNat_lt

@[simp] theorem pad_fits (n : Nat) : (pad n).Fits := Nat.pow_pos (by decide)

theorem ofNat_i64 (v : Int64) : Int64.ofNat (i64 v).value = v := by
  have hvalue : (i64 v).value = v.toUInt64.toNat := rfl
  rw [hvalue, ← UInt64.toInt64_ofNat', UInt64.ofNat_toNat]
  simp

theorem stat_widths (s : Stat) : s.fields.map Layout.Field.width = Stat.widths := rfl

theorem statx_widths (s : Statx) : s.fields.map Layout.Field.width = Statx.widths := rfl

theorem encode_stat_length (s : Stat) : s.encode.length = STAT_SIZE := by
  rw [Stat.encode, Layout.encode_length, stat_widths]
  decide

theorem encode_statx_length (s : Statx) : s.encode.length = STATX_SIZE := by
  rw [Statx.encode, Layout.encode_length, statx_widths]
  decide

theorem parse_fields {widths : List Nat} {fields : List Layout.Field} (hwidths : fields.map Layout.Field.width = widths)
    (hfits : ∀ f ∈ fields, f.Fits) : Layout.parse widths (Layout.encode fields) = fields.map Layout.Field.value := by
  have hparse := Layout.parse_encode fields [] hfits
  rwa [List.append_nil, hwidths] at hparse

theorem parse_stat (s : Stat) : Stat.parse s.encode = s := by
  have hparse : Layout.parse Stat.widths s.encode = s.fields.map Layout.Field.value :=
    parse_fields (stat_widths s) (by simp [Stat.fields])
  simp only [Stat.parse, hparse]
  simp [Stat.fields, ofNat_i64, u64, u32]

theorem parse_statx (s : Statx) : Statx.parse s.encode = s := by
  have hparse : Layout.parse Statx.widths s.encode = s.fields.map Layout.Field.value :=
    parse_fields (statx_widths s) (by simp [Statx.fields])
  simp only [Statx.parse, hparse]
  simp [Statx.fields, ofNat_i64, u64, u32, u16]

end

-- ---------------------------------------------------------------------------
-- The calls
-- ---------------------------------------------------------------------------

def PATH_MAX : Int := 4096

/-- The kernel and the host's files by their number. -/
structure Drive where
  kernel : Kernel
  inodes : Nat → Metadata

/-- What the host answers: whether an open file still has metadata, the file that a path
leads to, an error of what is done to it, the bits it takes from a mode that is set and from
that of a file it cuts, and the time. -/
structure Host where
  known : Bool
  find : UnixPath → Except ErrorKind Nat
  fault : Option ErrorKind
  drops : UInt32
  now : Int

/-- Only the set-id bits are the host's to take. -/
def SET_ID : UInt32 := 0o6000

def keptMode (drops mode : UInt32) : UInt32 := mode &&& ~~~(drops &&& SET_ID)

def dirs (k : Kernel) (fd : UInt32) : DirEntry :=
  match k.fds.get fd with
  | .ok (.file ref) => .file (k.cells.files.read ref).isDir ((k.cells.files.read ref).path.map bytesOf)
  | .ok _ => .other
  | .error _ => .unbound

def pathArg (k : Kernel) (ptr : Int) : Except Int PathBuf :=
  match guestStr k.memory ptr PATH_MAX with
  | .error e => .error e
  | .ok path => if path.isEmpty then .error (-ENOENT) else .ok path

def resolveAt (k : Kernel) (dirfd : Int) (path : PathBuf) : Except Int UnixPath :=
  resolve id (dirs k) { root := bytesOf k.vfs.root, cwd := bytesOf k.vfs.cwd } dirfd (bytesOf path)

def Drive.put (d : Drive) (ptr : Int) (bytes : List UInt8) : Int × Drive :=
  match guestCopy d.kernel.memory ptr bytes.length bytes with
  | .error e => (e, d)
  | .ok memory => (0, { d with kernel.memory := memory })

def nodeAt (k : Kernel) (fd : UInt32) : Except Int (Option Nat) :=
  match k.fds.get fd with
  | .ok (.file ref) => .ok (some (k.cells.files.read ref).inner.node)
  | .ok _ => .ok none
  | .error e => .error e

def fstat (d : Drive) (fd statbuf : Int) (host : Host) : Int × Drive :=
  match u32Fd fd with
  | none => (-EBADF, d)
  | some fd =>
    match nodeAt d.kernel fd with
    | .error e => (e, d)
    | .ok (some node) =>
      d.put statbuf (if host.known then Stat.fromMetadata (d.inodes node) else synthChar).encode
    | .ok none => d.put statbuf synthChar.encode

def newfstatat (d : Drive) (dirfd pathPtr statbuf flags : Int) (host : Host) : Int × Drive :=
  match guestStr d.kernel.memory pathPtr PATH_MAX with
  | .error e => (e, d)
  | .ok path =>
    if BitVec.ofInt 32 flags &&& AT_EMPTY_PATH ≠ 0 ∧ path.isEmpty then fstat d dirfd statbuf host
    else if path.isEmpty then (-ENOENT, d)
    else
      match resolveAt d.kernel dirfd path with
      | .error e => (e, d)
      | .ok abs =>
        match host.find abs with
        | .error e => (vfsIoToErrno e, d)
        | .ok node => d.put statbuf (Stat.fromMetadata (d.inodes node)).encode

/-- What `statx` is asked about; unlike `fstat` it refuses a file without metadata. -/
def statxOf (d : Drive) (dirfd : Int) (path : PathBuf) (flags : BitVec 32) (host : Host) : Except Int Stat :=
  if flags &&& AT_EMPTY_PATH ≠ 0 ∧ path.isEmpty then
    match u32Fd dirfd with
    | none => .error (-EBADF)
    | some fd =>
      match nodeAt d.kernel fd with
      | .error e => .error e
      | .ok (some node) => if host.known then .ok (.fromMetadata (d.inodes node)) else .error (-EACCES)
      | .ok none => .ok synthChar
  else if path.isEmpty then .error (-ENOENT)
  else
    match resolveAt d.kernel dirfd path with
    | .error e => .error e
    | .ok abs =>
      match host.find abs with
      | .error e => .error (vfsIoToErrno e)
      | .ok node => .ok (.fromMetadata (d.inodes node))

def statx (d : Drive) (dirfd pathPtr flags buf : Int) (host : Host) : Int × Drive :=
  if BitVec.ofInt 32 flags &&& ~~~STATX_FLAGS ≠ 0 then (-EINVAL, d)
  else
    match guestSlice d.kernel.memory buf STATX_SIZE with
    | .error e => (e, d)
    | .ok _ =>
      match guestStr d.kernel.memory pathPtr PATH_MAX with
      | .error e => (e, d)
      | .ok path =>
        match statxOf d dirfd path (BitVec.ofInt 32 flags) host with
        | .error e => (e, d)
        | .ok s => d.put buf (Statx.fromStat s).encode

def R_OK : BitVec 32 := 4
def W_OK : BitVec 32 := 2
def X_OK : BitVec 32 := 1

/-- Whoever may do it, the guest may. -/
def access (mode : UInt32) (want : BitVec 32) : Int :=
  if want &&& R_OK ≠ 0 ∧ mode &&& 0o444 = 0 then -EACCES
  else if want &&& W_OK ≠ 0 ∧ mode &&& 0o222 = 0 then -EACCES
  else if want &&& X_OK ≠ 0 ∧ mode &&& 0o111 = 0 then -EACCES
  else 0

def findAt (d : Drive) (dirfd pathPtr : Int) (host : Host) : Except Int Nat :=
  match pathArg d.kernel pathPtr with
  | .error e => .error e
  | .ok path =>
    match resolveAt d.kernel dirfd path with
    | .error e => .error e
    | .ok abs =>
      match host.find abs with
      | .error e => .error (-ioToErrno e)
      | .ok node => .ok node

def faccessat (d : Drive) (dirfd pathPtr want : Int) (host : Host) : Int :=
  match findAt d dirfd pathPtr host with
  | .error e => e
  | .ok node => access (d.inodes node).permissions (BitVec.ofInt 32 want)

end EdgeLibos.Sys.FileInfo
