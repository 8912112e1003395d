import EdgeLibos.Lib.Requests
import EdgeLibos.Lib.Words
import EdgeLibos.Sys.File
import EdgeLibos.Sys.PathCalls

/-!
# Paths handed to the host

What each call that carries a path asks of the host. The calls of the `at` family
ask about the path that resolution returned; `bind` and `connect` on a Unix address
and the `snapshot` call take the guest's bytes as they are. What a call returns to
the guest plays no part here, and the calls without a descriptor argument are those
below with `AT_FDCWD`.
-/

namespace EdgeLibos.Paths

open Errno Lib UnixPath HostTree

inductive Request
  | metadata (path : UnixPath)
  | symlinkMetadata (path : UnixPath)
  | openFile (options : OpenOptions) (path : UnixPath)
  | createDir (path : UnixPath)
  | removeDir (path : UnixPath)
  | removeFile (path : UnixPath)
  | rename (old new : UnixPath)
  | hardLink (old new : UnixPath)
  | symlink (target path : UnixPath)
  | readLink (path : UnixPath)
  | setPermissions (path : UnixPath) (mode : UInt32)
  | bindUnix (path : UnixPath)
  | connectUnix (path : UnixPath)
  | write (path : UnixPath) (bytes : List UInt8)
  deriving DecidableEq, Repr

def Request.paths : Request → List UnixPath
  | .metadata p | .symlinkMetadata p | .openFile _ p | .createDir p | .removeDir p
  | .removeFile p | .symlink _ p | .readLink p | .setPermissions p _ | .bindUnix p
  | .connectUnix p | .write p _ => [p]
  | .rename old new | .hardLink old new => [old, new]

abbrev Answer := Except ErrorKind Bool

abbrev Asks := Requests Request Answer

inductive Entry
  | unbound
  | other
  | file (isDir : Bool) (path : Option UnixPath)
  | socket (familyUnix connected : Bool)
  deriving DecidableEq, Repr

def Entry.dir : Entry → DirEntry
  | .unbound => .unbound
  | .file isDir path => .file isDir path
  | .other | .socket _ _ => .other

/-- What a call finds: the guest's memory, the descriptor table, and the encoded
snapshot of the kernel when one can be taken. -/
structure Guest where
  memory : Option MemoryKind
  fds : UInt32 → Entry
  snapshot : Option (List UInt8)

def Guest.dirs (g : Guest) (fd : UInt32) : DirEntry := (g.fds fd).dir

-- ---------------------------------------------------------------------------
-- Socket addresses
-- ---------------------------------------------------------------------------

def AF_UNIX : Nat := 1
def AF_INET : Nat := 2
def AF_INET6 : Nat := 10
def SOCKADDR_IN_SIZE : Nat := 16
def SOCKADDR_IN6_SIZE : Nat := 28
def SOCKADDR_UN_SIZE : Nat := 110

def be16At (bytes : List UInt8) (i : Nat) : UInt16 :=
  UInt16.ofNat ((bytes.getD i 0).toNat * 256 + (bytes.getD (i + 1) 0).toNat)

/-- The `sun_path` of an address, up to its NUL. -/
def sunPath (bytes : List UInt8) : Except Int SockAddr :=
  if bytes.getD 2 0 = 0 then .error (-EOPNOTSUPP)
  else
    match String.fromUTF8? ⟨((bytes.drop 2).takeWhile (· ≠ 0)).toArray⟩ with
    | some path => .ok (.unix path)
    | none => .error (-EINVAL)

/-- All 110 bytes of a Unix address are read, however long the guest says it is. -/
def parseSockaddr (memory : Option MemoryKind) (addrPtr addrLen : Int) : Except Int SockAddr := do
  if addrPtr = 0 ∨ addrLen = 0 then .error (-EDESTADDRREQ)
  else if addrLen < 0 then .error (-EINVAL)
  else
    let header ← guestSlice memory addrPtr 2
    let family := leValue header
    if family = AF_INET then
      if addrLen < SOCKADDR_IN_SIZE then .error (-EINVAL)
      else
        let bytes ← guestSlice memory addrPtr SOCKADDR_IN_SIZE
        .ok (.v4 (be16At bytes 2) (.ofFn fun i => bytes.getD (4 + i) 0))
    else if family = AF_INET6 then
      if addrLen < SOCKADDR_IN6_SIZE then .error (-EINVAL)
      else
        let bytes ← guestSlice memory addrPtr SOCKADDR_IN6_SIZE
        .ok (.v6 (be16At bytes 2) (.ofFn fun i => bytes.getD (8 + i) 0))
    else if family = AF_UNIX then
      if addrLen < 3 then .error (-EINVAL)
      else
        let bytes ← guestSlice memory addrPtr SOCKADDR_UN_SIZE
        sunPath bytes
    else .error (-EAFNOSUPPORT)

def bytesOf (s : String) : UnixPath := s.toUTF8.data.toList

-- ---------------------------------------------------------------------------
-- The calls
-- ---------------------------------------------------------------------------

def AT_EMPTY_PATH : BitVec 32 := 0x1000
def AT_NO_AUTOMOUNT : BitVec 32 := 0x800
def AT_SYMLINK_NOFOLLOW : BitVec 32 := 0x100
def STATX_SIZE : Nat := 256
def STATX_FLAGS : BitVec 32 := AT_EMPTY_PATH ||| AT_NO_AUTOMOUNT ||| AT_SYMLINK_NOFOLLOW

/-- The calls that carry a path; a path argument is the text `guest_str` read. -/
inductive PathSyscall
  | openat (dirfd : Int) (path : UnixPath) (flags : BitVec 32)
  | newfstatat (dirfd : Int) (path : UnixPath) (flags : BitVec 32)
  | statx (dirfd : Int) (path : UnixPath) (flags : BitVec 32) (buf : Int)
  | mkdirat (dirfd : Int) (path : UnixPath)
  | unlinkat (dirfd : Int) (path : UnixPath) (flags : BitVec 32)
  | renameat (olddirfd : Int) (old : UnixPath) (newdirfd : Int) (new : UnixPath) (flags : BitVec 32)
  | truncate (path : UnixPath) (len : Int)
  | readlinkat (dirfd : Int) (path : UnixPath) (bufLen : Int)
  | symlinkat (target : UnixPath) (dirfd : Int) (path : UnixPath)
  | linkat (olddirfd : Int) (old : UnixPath) (newdirfd : Int) (new : UnixPath)
  | utimensat (dirfd : Int) (path : UnixPath) (times : Int)
  | fchmodat (dirfd : Int) (path : UnixPath) (mode : UInt32)
  | faccessat (dirfd : Int) (path : UnixPath)
  | chdir (path : UnixPath)
  | chroot (path : UnixPath)
  | bind (fd addrPtr addrLen : Int)
  | connect (fd addrPtr addrLen : Int)
  | snapshot (pathPtr : Int)
  deriving DecidableEq, Repr

def unixPath (g : Guest) (addrPtr addrLen : Int) : Option UnixPath :=
  match parseSockaddr g.memory addrPtr addrLen with
  | .ok (.unix path) => some (bytesOf path)
  | _ => none

/-- The path that `bind` takes to the host: the socket must be a Unix one. -/
def bindPath (g : Guest) (fd addrPtr addrLen : Int) : Option UnixPath :=
  match Sys.u32Fd fd, unixPath g addrPtr addrLen with
  | some fd, some path =>
    match g.fds fd with
    | .socket true _ => some path
    | _ => none
  | _, _ => none

/-- The path that `connect` takes to the host: the socket must not be connected yet. -/
def connectPath (g : Guest) (fd addrPtr addrLen : Int) : Option UnixPath :=
  match Sys.u32Fd fd, unixPath g addrPtr addrLen with
  | some fd, some path =>
    match g.fds fd with
    | .socket true false => some path
    | _ => none
  | _, _ => none

/-- The path and the bytes that `snapshot` takes to the host. -/
def snapshotPath (g : Guest) (pathPtr : Int) : Option (UnixPath × List UInt8) :=
  if pathPtr = 0 then none
  else
    match guestStr g.memory pathPtr 4096, g.snapshot with
    | .ok path, some bytes => some (bytesOf path, bytes)
    | _, _ => none

/-- A socket left over at the path is removed first; anything else there is not. A
removal that finds nothing left ends the call too. -/
def bindUnix (path : UnixPath) : Asks :=
  .ask (.metadata path) fun
    | .ok true =>
      .ask (.removeFile path) fun
        | .ok _ => .last (.bindUnix path)
        | .error _ => .done
    | .ok false => .done
    | .error .notFound => .last (.bindUnix path)
    | .error _ => .done

section
variable (lossy : UnixPath → UnixPath) (v : Vfs) (g : Guest)

def withPath (dirfd : Int) (path : UnixPath) (f : UnixPath → Asks) : Asks :=
  match resolveArg lossy v g.dirs dirfd path with
  | .error _ => .done
  | .ok abs => f abs

def withPaths (olddirfd : Int) (old : UnixPath) (newdirfd : Int) (new : UnixPath)
    (f : UnixPath → UnixPath → Asks) : Asks :=
  match resolveBoth lossy v g.dirs olddirfd old newdirfd new with
  | .error _ => .done
  | .ok (old, new) => f old new

def askRename (flags : BitVec 32) (old new : UnixPath) : Asks :=
  if flags &&& ~~~(RENAME_NOREPLACE ||| RENAME_EXCHANGE ||| RENAME_WHITEOUT) ≠ 0 then .done
  else if flags &&& RENAME_WHITEOUT ≠ 0 then .done
  else if flags &&& RENAME_NOREPLACE ≠ 0 then
    .ask (.metadata new) fun
      | .ok _ => .done
      | .error _ => .last (.rename old new)
  else .last (.rename old new)

/-- After a file was opened its path is looked at once more. -/
def askOpen (flags : BitVec 32) (abs : UnixPath) : Asks :=
  match openOptions flags with
  | none => .done
  | some o =>
    .ask (.openFile o abs) fun
      | .ok _ => .last (.metadata abs)
      | .error _ => .done

def writeOptions (create : Bool) : OpenOptions :=
  { read := false, write := true, append := false, truncate := false, create, createNew := false }

def PathSyscall.asks : PathSyscall → Asks
  | .openat dirfd path flags =>
    match resolve lossy g.dirs v dirfd path with
    | .error _ => .done
    | .ok abs => askOpen flags abs
  | .newfstatat dirfd path _ => withPath lossy v g dirfd path fun abs => .last (.symlinkMetadata abs)
  | .statx dirfd path flags buf =>
    if flags &&& ~~~STATX_FLAGS ≠ 0 then .done
    else
      match guestSlice g.memory buf STATX_SIZE with
      | .error _ => .done
      | .ok _ => withPath lossy v g dirfd path fun abs => .last (.symlinkMetadata abs)
  | .mkdirat dirfd path => withPath lossy v g dirfd path fun abs => .last (.createDir abs)
  | .unlinkat dirfd path flags =>
    withPath lossy v g dirfd path fun abs =>
      .last (if flags &&& AT_REMOVEDIR ≠ 0 then .removeDir abs else .removeFile abs)
  | .renameat olddirfd old newdirfd new flags =>
    withPaths lossy v g olddirfd old newdirfd new fun old new => askRename flags old new
  | .truncate path len =>
    if len < 0 then .done
    else withPath lossy v g AT_FDCWD path fun abs => .last (.openFile (writeOptions true) abs)
  | .readlinkat dirfd path bufLen =>
    if bufLen < 0 then .done
    else withPath lossy v g dirfd path fun abs => .last (.readLink abs)
  | .symlinkat target dirfd path =>
    withPath lossy v g dirfd path fun abs => .last (.symlink target abs)
  | .linkat olddirfd old newdirfd new =>
    withPaths lossy v g olddirfd old newdirfd new fun old new => .last (.hardLink old new)
  | .utimensat dirfd path times =>
    withPath lossy v g dirfd path fun abs =>
      if times = 0 || (guestSlice g.memory times 32).isOk then
        .last (.openFile (writeOptions false) abs)
      else .done
  | .fchmodat dirfd path mode =>
    withPath lossy v g dirfd path fun abs => .last (.setPermissions abs (mode &&& 0o7777))
  | .faccessat dirfd path => withPath lossy v g dirfd path fun abs => .last (.metadata abs)
  | .chdir path =>
    withPath lossy v g AT_FDCWD path fun abs =>
      if startsWith abs v.root then .last (.metadata abs) else .done
  | .chroot path => withPath lossy v g AT_FDCWD path fun abs => .last (.metadata abs)
  | .bind fd addrPtr addrLen =>
    match bindPath g fd addrPtr addrLen with
    | none => .done
    | some path => bindUnix path
  | .connect fd addrPtr addrLen =>
    match connectPath g fd addrPtr addrLen with
    | none => .done
    | some path => .last (.connectUnix path)
  | .snapshot pathPtr =>
    match snapshotPath g pathPtr with
    | none => .done
    | some (path, bytes) => .last (.write path bytes)

end

-- ---------------------------------------------------------------------------
-- Against a tree of files
-- ---------------------------------------------------------------------------

def answer (m : Files) : Except ErrorKind Files → Answer × Files
  | .ok m => (.ok false, m)
  | .error e => (.error e, m)

def serve (ino : Nat) (m : Files) : Request → Answer × Files
  | .metadata p => (if m.found p then .ok false else .error .notFound, m)
  | .openFile o p => answer m ((m.openFile o p ino).map Prod.snd)
  | .createDir p => answer m (m.createDir p)
  | .removeDir p => answer m (m.removeDir p)
  | .removeFile p => answer m (m.removeFile p)
  | .rename old new => answer m (m.rename old new)
  | .hardLink old new => answer m (m.hardLink old new)
  | .symlink target p => answer m (m.symlink target p)
  | _ => (.error .permissionDenied, m)

def PathCall.syscall : PathCall → PathSyscall
  | .openat dirfd path flags _ => .openat dirfd path flags
  | .mkdirat dirfd path => .mkdirat dirfd path
  | .unlinkat dirfd path flags => .unlinkat dirfd path flags
  | .renameat olddirfd old newdirfd new flags => .renameat olddirfd old newdirfd new flags
  | .linkat olddirfd old newdirfd new => .linkat olddirfd old newdirfd new
  | .symlinkat target dirfd path => .symlinkat target dirfd path

def PathCall.ino : PathCall → Nat
  | .openat _ _ _ ino => ino
  | _ => 0

theorem answer_files (m : Files) (r : Except ErrorKind Files) :
    (answer m r).2 = (Result.ofHost m r).files := by
  cases r with
  | ok m' => rfl
  | error e => rfl

theorem perform_last (ino : Nat) (m : Files) (r : Request) :
    (Requests.last r : Asks).perform (serve ino) m = (serve ino m r).2 := rfl

theorem askOpen_perform (ino : Nat) (m : Files) (flags : BitVec 32) (p : UnixPath) :
    (askOpen flags p).perform (serve ino) m = (vfsOpen m p flags ino).files := by
  unfold askOpen vfsOpen
  cases openOptions flags with
  | none => rfl
  | some o =>
    simp only [Requests.perform, serve]
    cases m.openFile o p ino with
    | error e => rfl
    | ok opened => rfl

theorem askRename_perform (ino : Nat) (m : Files) (flags : BitVec 32) (old new : UnixPath) :
    (askRename flags old new).perform (serve ino) m = (hostRename m flags old new).files := by
  unfold askRename hostRename
  split
  · rfl
  · split
    · rfl
    · split
      · rename_i hflag
        rw [decide_eq_true hflag, Bool.true_and]
        simp only [Requests.perform, serve]
        cases m.found new with
        | true => rfl
        | false => exact answer_files m _
      · rename_i hflag
        rw [decide_eq_false hflag, Bool.false_and]
        exact answer_files m _

/-- Carried out on a tree of files, what a call asks for leaves the tree that the call
leaves. -/
theorem PathCall.perform_asks (lossy : UnixPath → UnixPath) (v : Vfs) (g : Guest) (m : Files)
    (c : PathCall) :
    (c.syscall.asks lossy v g).perform (serve c.ino) m = (c.run lossy v g.dirs m).files := by
  cases c with
  | openat dirfd path flags ino =>
    simp only [syscall, PathSyscall.asks, run, PathCall.ino]
    cases resolve lossy g.dirs v dirfd path with
    | error e => rfl
    | ok abs => exact askOpen_perform ino m flags abs
  | mkdirat dirfd path =>
    simp only [syscall, PathSyscall.asks, run, withPath]
    cases resolveArg lossy v g.dirs dirfd path with
    | error e => rfl
    | ok abs => exact answer_files m _
  | unlinkat dirfd path flags =>
    simp only [syscall, PathSyscall.asks, run, withPath]
    cases resolveArg lossy v g.dirs dirfd path with
    | error e => rfl
    | ok abs =>
      simp only [perform_last]
      split
      · exact answer_files m _
      · exact answer_files m _
  | renameat olddirfd old newdirfd new flags =>
    simp only [syscall, PathSyscall.asks, run, withPaths]
    cases resolveBoth lossy v g.dirs olddirfd old newdirfd new with
    | error e => rfl
    | ok both => exact askRename_perform _ m flags both.1 both.2
  | linkat olddirfd old newdirfd new =>
    simp only [syscall, PathSyscall.asks, run, withPaths]
    cases resolveBoth lossy v g.dirs olddirfd old newdirfd new with
    | error e => rfl
    | ok both => exact answer_files m _
  | symlinkat target dirfd path =>
    simp only [syscall, PathSyscall.asks, run, withPath]
    cases resolveArg lossy v g.dirs dirfd path with
    | error e => rfl
    | ok abs => exact answer_files m _

-- ---------------------------------------------------------------------------
-- Which paths are confined
-- ---------------------------------------------------------------------------

structure ResolvedUnder (lossy : UnixPath → UnixPath) (v : Vfs) (g : Guest) (p : UnixPath) : Prop where
  resolved : ∃ dirfd q, resolve lossy g.dirs v dirfd q = .ok p
  under : startsWith p v.root = true

def Request.Confined (lossy : UnixPath → UnixPath) (v : Vfs) (g : Guest) (r : Request) : Prop :=
  ∀ p ∈ r.paths, ResolvedUnder lossy v g p

/-- The path a call takes from the guest to the host without resolving it. -/
def PathSyscall.rawPath (g : Guest) : PathSyscall → Option UnixPath
  | .bind fd addrPtr addrLen => bindPath g fd addrPtr addrLen
  | .connect fd addrPtr addrLen => connectPath g fd addrPtr addrLen
  | .snapshot pathPtr => (snapshotPath g pathPtr).map Prod.fst
  | _ => none

section
variable {lossy : UnixPath → UnixPath} {v : Vfs} {g : Guest}

theorem resolvedUnder_of_resolve (hroot : Rooted v.root)
    (h : resolve lossy g.dirs v dirfd p = .ok q) : ResolvedUnder lossy v g q :=
  ⟨⟨dirfd, p, h⟩, (resolve_ok hroot h).2⟩

/-- A path is a result of resolution when resolving it changes nothing. -/
theorem resolvedUnder_iff (hroot : Rooted v.root) :
    ResolvedUnder lossy v g p ↔ v.resolvePath AT_FDCWD p = .ok p := by
  constructor
  · rintro ⟨⟨dirfd, q, h⟩, hunder⟩
    exact Vfs.resolvePath_rooted (resolve_ok hroot h).1 hunder AT_FDCWD
  · intro h
    have hresolve : resolve lossy g.dirs v AT_FDCWD p = .ok p := by
      rw [resolve, if_pos (by simp), h]
    exact resolvedUnder_of_resolve hroot hresolve

theorem confined_one (h : r.paths = [p]) :
    Request.Confined lossy v g r ↔ ResolvedUnder lossy v g p := by
  unfold Request.Confined
  rw [h]
  exact List.forall_mem_singleton

theorem confined_two (h : r.paths = [p, q]) (hp : ResolvedUnder lossy v g p)
    (hq : ResolvedUnder lossy v g q) : Request.Confined lossy v g r := by
  intro x hx
  rw [h] at hx
  rcases List.mem_cons.mp hx with rfl | hx
  · exact hp
  · rw [List.mem_singleton.mp hx]
    exact hq

theorem every_last_one (h : r.paths = [p]) :
    (Requests.last r : Asks).Every (Request.Confined lossy v g) ↔ ResolvedUnder lossy v g p :=
  Requests.every_last.trans (confined_one h)

theorem withPath_confined (hroot : Rooted v.root) {f : UnixPath → Asks}
    (h : ∀ abs, ResolvedUnder lossy v g abs → (f abs).Every (Request.Confined lossy v g)) :
    (withPath lossy v g dirfd path f).Every (Request.Confined lossy v g) := by
  unfold withPath
  split
  · exact Requests.every_done
  · rename_i abs habs
    unfold resolveArg at habs
    split at habs
    · cases habs
    · exact h abs (resolvedUnder_of_resolve hroot habs)

theorem withPaths_confined (hroot : Rooted v.root) {f : UnixPath → UnixPath → Asks}
    (h : ∀ old new, ResolvedUnder lossy v g old → ResolvedUnder lossy v g new →
      (f old new).Every (Request.Confined lossy v g)) :
    (withPaths lossy v g olddirfd old newdirfd new f).Every (Request.Confined lossy v g) := by
  unfold withPaths
  split
  · exact Requests.every_done
  · rename_i p q hboth
    unfold resolveBoth at hboth
    split at hboth
    · cases hboth
    · obtain ⟨p', hp, hboth⟩ := bind_ok hboth
      obtain ⟨q', hq, hboth⟩ := bind_ok hboth
      cases hboth
      exact h _ _ (resolvedUnder_of_resolve hroot hp) (resolvedUnder_of_resolve hroot hq)

theorem bindUnix_confined :
    (bindUnix p).Every (Request.Confined lossy v g) ↔ ResolvedUnder lossy v g p := by
  refine (Requests.every_ask_iff ?_).trans (confined_one rfl)
  intro hp answer
  have hp := (confined_one rfl).mp hp
  have hbind : (Requests.last (.bindUnix p) : Asks).Every (Request.Confined lossy v g) :=
    (every_last_one rfl).mpr hp
  split
  · refine ⟨(confined_one rfl).mpr hp, fun answer => ?_⟩
    cases answer with
    | ok _ => exact hbind
    | error _ => exact Requests.every_done
  · exact Requests.every_done
  · exact hbind
  · exact Requests.every_done

theorem askOpen_confined (hp : ResolvedUnder lossy v g p) :
    (askOpen flags p).Every (Request.Confined lossy v g) := by
  unfold askOpen
  split
  · exact Requests.every_done
  · refine ⟨(confined_one rfl).mpr hp, fun answer => ?_⟩
    cases answer with
    | ok _ => exact (every_last_one rfl).mpr hp
    | error _ => exact Requests.every_done

theorem askRename_confined (hp : ResolvedUnder lossy v g p) (hq : ResolvedUnder lossy v g q) :
    (askRename flags p q).Every (Request.Confined lossy v g) := by
  have hrename : (Requests.last (.rename p q) : Asks).Every (Request.Confined lossy v g) :=
    Requests.every_last.mpr (confined_two rfl hp hq)
  unfold askRename
  split
  · exact Requests.every_done
  · split
    · exact Requests.every_done
    · split
      · refine ⟨(confined_one rfl).mpr hq, fun answer => ?_⟩
        cases answer with
        | ok _ => exact Requests.every_done
        | error _ => exact hrename
      · exact hrename

/-- A call that takes no path of its own past resolution is confined, and any other
is when that path is one that resolution would return. -/
theorem PathSyscall.asks_confined (hroot : Rooted v.root) (c : PathSyscall) :
    (c.asks lossy v g).Every (Request.Confined lossy v g) ↔
      ∀ p ∈ c.rawPath g, ResolvedUnder lossy v g p := by
  have hnone : ∀ p ∈ (none : Option UnixPath), ResolvedUnder lossy v g p := fun _ h => nomatch h
  have hsome (q : UnixPath) : ResolvedUnder lossy v g q ↔ ∀ p ∈ some q, ResolvedUnder lossy v g p :=
    ⟨fun hq _ hp => Option.some.inj hp ▸ hq, fun h => h q rfl⟩
  have hwith {dirfd path} {f : UnixPath → Request} (hf : ∀ abs, (f abs).paths = [abs]) :
      (withPath lossy v g dirfd path fun abs => .last (f abs)).Every (Request.Confined lossy v g) :=
    withPath_confined hroot fun abs habs => (every_last_one (hf abs)).mpr habs
  cases c with
  | openat dirfd path flags =>
    refine iff_of_true ?_ hnone
    simp only [asks]
    split
    · exact Requests.every_done
    · rename_i habs
      exact askOpen_confined (resolvedUnder_of_resolve hroot habs)
  | newfstatat dirfd path flags => exact iff_of_true (hwith fun _ => rfl) hnone
  | statx dirfd path flags buf =>
    refine iff_of_true ?_ hnone
    simp only [asks]
    split
    · exact Requests.every_done
    · split
      · exact Requests.every_done
      · exact hwith fun _ => rfl
  | mkdirat dirfd path => exact iff_of_true (hwith fun _ => rfl) hnone
  | unlinkat dirfd path flags =>
    refine iff_of_true (hwith fun abs => ?_) hnone
    split
    · rfl
    · rfl
  | renameat olddirfd old newdirfd new flags =>
    exact iff_of_true (withPaths_confined hroot fun _ _ hp hq => askRename_confined hp hq) hnone
  | truncate path len =>
    refine iff_of_true ?_ hnone
    simp only [asks]
    split
    · exact Requests.every_done
    · exact hwith fun _ => rfl
  | readlinkat dirfd path bufLen =>
    refine iff_of_true ?_ hnone
    simp only [asks]
    split
    · exact Requests.every_done
    · exact hwith fun _ => rfl
  | symlinkat target dirfd path => exact iff_of_true (hwith fun _ => rfl) hnone
  | linkat olddirfd old newdirfd new =>
    refine iff_of_true (withPaths_confined hroot fun _ _ hp hq => ?_) hnone
    exact Requests.every_last.mpr (confined_two rfl hp hq)
  | utimensat dirfd path times =>
    refine iff_of_true (withPath_confined hroot fun abs habs => ?_) hnone
    split
    · exact (every_last_one rfl).mpr habs
    · exact Requests.every_done
  | fchmodat dirfd path mode => exact iff_of_true (hwith fun _ => rfl) hnone
  | faccessat dirfd path => exact iff_of_true (hwith fun _ => rfl) hnone
  | chdir path =>
    refine iff_of_true (withPath_confined hroot fun abs habs => ?_) hnone
    split
    · exact (every_last_one rfl).mpr habs
    · exact Requests.every_done
  | chroot path => exact iff_of_true (hwith fun _ => rfl) hnone
  | bind fd addrPtr addrLen =>
    simp only [asks, rawPath]
    cases bindPath g fd addrPtr addrLen with
    | none => exact iff_of_true Requests.every_done hnone
    | some path => exact bindUnix_confined.trans (hsome _)
  | connect fd addrPtr addrLen =>
    simp only [asks, rawPath]
    cases connectPath g fd addrPtr addrLen with
    | none => exact iff_of_true Requests.every_done hnone
    | some path => exact (every_last_one rfl).trans (hsome _)
  | snapshot pathPtr =>
    simp only [asks, rawPath]
    cases snapshotPath g pathPtr with
    | none => exact iff_of_true Requests.every_done hnone
    | some written => exact (every_last_one rfl).trans (hsome _)

end

/-- In every sandbox that `chdir` and `chroot` lead to, the paths a call hands to the
host are confined exactly when the path it takes there unresolved, if it takes one,
resolves to itself. -/
theorem host_paths_confined (lossy : UnixPath → UnixPath) (root : Canonical)
    (h : Reaches (nextVfs lossy) (fun _ _ => True) (.new root) v) (g : Guest) (c : PathSyscall) :
    (c.asks lossy v g).Every (Request.Confined lossy v g) ↔
      ∀ p ∈ c.rawPath g, v.resolvePath AT_FDCWD p = .ok p := by
  have hroot := (Confined.reaches h).root
  rw [c.asks_confined hroot]
  exact forall₂_congr fun p _ => resolvedUnder_iff hroot

-- ---------------------------------------------------------------------------
-- A socket outside the root
-- ---------------------------------------------------------------------------

def sunBytes (path : UnixPath) : List UInt8 := [1, 0] ++ path ++ List.replicate (108 - path.length) 0

def addressed (addr : List UInt8) (h : addr.length = 110) : Guest where
  memory := some (.owned (LinearMemory.zeroPage.write 16 addr (by
    rw [h, LinearMemory.zeroPage_size]
    decide)))
  fds fd := if fd = 3 then .socket true false else .unbound
  snapshot := none

theorem bindPath_addressed (path : String) (h : addr.length = 110) (hfamily : addr.take 2 = [1, 0])
    (hpath : sunPath addr = .ok (.unix path)) :
    bindPath (addressed addr h) 3 16 110 = some (bytesOf path) := by
  have hfits : 16 + addr.length ≤ LinearMemory.zeroPage.size := by
    rw [h, LinearMemory.zeroPage_size]
    decide
  have hload := LinearMemory.load_write hfits
  have htwo := guestSlice_of_load (k := 2) hload (by rw [h]; decide)
  have hall := guestSlice_of_load (k := 110) hload h.ge
  rw [hfamily] at htwo
  rw [List.take_of_length_le h.le] at hall
  have hparse : parseSockaddr (addressed addr h).memory 16 110 = .ok (.unix path) := by
    unfold parseSockaddr
    rw [if_neg (by decide), if_neg (by decide)]
    simp only [addressed]
    rw [show (16 : Int) = (16 : Nat) from rfl, show (2 : Int) = (2 : Nat) from rfl, htwo]
    simp only [bind, Except.bind]
    rw [if_neg (by decide), if_neg (by decide), if_pos (by decide), if_neg (by decide),
      show ((SOCKADDR_UN_SIZE : Nat) : Int) = (110 : Nat) from rfl, hall]
    exact hpath
  unfold bindPath unixPath
  rw [hparse]
  rfl

theorem sunBytes_length_inside : (sunBytes [47, 114, 47, 115]).length = 110 := by decide

theorem sunBytes_length_outside : (sunBytes [47, 115]).length = 110 := by decide

def insider : Guest := addressed _ sunBytes_length_inside

def outsider : Guest := addressed _ sunBytes_length_outside

theorem host_paths_confined_inside :
    ((PathSyscall.bind 3 16 110).asks id (.new slashR) insider).Every
      (Request.Confined id (.new slashR) insider) := by
  rw [host_paths_confined id slashR .start insider (.bind 3 16 110)]
  intro p hp
  have hraw := bindPath_addressed "/r/s" sunBytes_length_inside (by decide) rfl
  obtain rfl := Option.some.inj (hraw.symm.trans hp)
  decide

/-- In the sandbox `/r` a socket is bound outside it. -/
theorem bind_leaves_root :
    ¬ ((PathSyscall.bind 3 16 110).asks id (.new slashR) outsider).Every
      (Request.Confined id (.new slashR) outsider) := by
  have hraw := bindPath_addressed "/s" sunBytes_length_outside (by decide) rfl
  rw [PathSyscall.asks_confined slashR.rooted]
  intro h
  have hunder := (h _ hraw).under
  revert hunder
  decide

end EdgeLibos.Paths
