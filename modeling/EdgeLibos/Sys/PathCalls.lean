import EdgeLibos.Lib.HostOps
import EdgeLibos.Vfs

/-!
# Calls that name files

The calls of the `at` family that open, create, remove and link files. Each resolves
its paths in the sandbox and hands the result to the host, which follows the
symbolic links it meets; `symlinkat` hands over the target as the guest wrote it.
-/

namespace EdgeLibos.Paths

open Errno Lib UnixPath HostTree

def O_ACCMODE : BitVec 32 := 0o3
def O_RDONLY : BitVec 32 := 0o0
def O_WRONLY : BitVec 32 := 0o1
def O_RDWR : BitVec 32 := 0o2
def O_CREAT : BitVec 32 := 0o100
def O_EXCL : BitVec 32 := 0o200
def O_TRUNC : BitVec 32 := 0o1000
def O_APPEND : BitVec 32 := 0o2000
def O_DIRECTORY : BitVec 32 := 0o200000
def AT_REMOVEDIR : BitVec 32 := 0x200
def RENAME_NOREPLACE : BitVec 32 := 0x1
def RENAME_EXCHANGE : BitVec 32 := 0x2
def RENAME_WHITEOUT : BitVec 32 := 0x4

/-- The `io_to_errno` of `sys::file`. -/
def ioToErrno : ErrorKind → Int
  | .notFound => ENOENT
  | .permissionDenied => EACCES
  | .alreadyExists => EEXIST
  | .invalidInput => EINVAL
  | .notADirectory => ENOTDIR
  | .isADirectory => EISDIR
  | .directoryNotEmpty => ENOTEMPTY
  | .filesystemLoop => Errno.EIO

/-- The `io_to_errno` of `vfs`. -/
def vfsIoToErrno : ErrorKind → Int
  | .notFound => -ENOENT
  | .permissionDenied => -EACCES
  | .invalidInput => -EFAULT
  | _ => - Errno.EIO

/-- What a call returns, the tree it leaves and the file it opened. A successful
`openat` returns the descriptor the table gives it, which is left out. -/
structure Result where
  code : Int
  files : Files
  opened : Option Loc

def Result.refused (files : Files) (code : Int) : Result := { code, files, opened := none }

def Result.ofHost (files : Files) : Except ErrorKind Files → Result
  | .ok files => { code := 0, files, opened := none }
  | .error e => { code := -ioToErrno e, files, opened := none }

def openOptions (flags : BitVec 32) : Option OpenOptions :=
  let accmode := flags &&& O_ACCMODE
  if accmode = O_ACCMODE then none
  else
    some { read := accmode = O_RDONLY || accmode = O_RDWR
           write := accmode = O_WRONLY || accmode = O_RDWR
           append := flags &&& O_APPEND ≠ 0
           truncate := flags &&& O_TRUNC ≠ 0
           create := flags &&& O_CREAT ≠ 0
           createNew := flags &&& O_CREAT ≠ 0 && flags &&& O_EXCL ≠ 0 }

/-- `Vfs::open`; the check for a directory comes after the file was opened. -/
def vfsOpen (m : Files) (abs : UnixPath) (flags : BitVec 32) (ino : Nat) : Result :=
  match openOptions flags with
  | none => .refused m (-EINVAL)
  | some o =>
    match m.openFile o abs ino with
    | .error e => .refused m (vfsIoToErrno e)
    | .ok (f, m) =>
      let code := if flags &&& O_DIRECTORY ≠ 0 && !f.isDir then -ENOTDIR else 0
      { code, files := m, opened := some f.loc }

inductive PathCall
  | openat (dirfd : Int) (path : UnixPath) (flags : BitVec 32) (ino : Nat)
  | mkdirat (dirfd : Int) (path : UnixPath)
  | unlinkat (dirfd : Int) (path : UnixPath) (flags : BitVec 32)
  | renameat (olddirfd : Int) (old : UnixPath) (newdirfd : Int) (new : UnixPath) (flags : BitVec 32)
  | linkat (olddirfd : Int) (old : UnixPath) (newdirfd : Int) (new : UnixPath)
  | symlinkat (target : UnixPath) (dirfd : Int) (path : UnixPath)
  deriving DecidableEq, Repr

section
variable (lossy : UnixPath → UnixPath) (v : Vfs) (dirs : UInt32 → DirEntry)

/-- All calls but `openat` refuse an empty path. -/
def resolveArg (dirfd : Int) (path : UnixPath) : Except Int UnixPath :=
  if path.isEmpty then .error (-ENOENT) else resolve lossy dirs v dirfd path

def resolveBoth (olddirfd : Int) (old : UnixPath) (newdirfd : Int) (new : UnixPath) :
    Except Int (UnixPath × UnixPath) :=
  if old.isEmpty || new.isEmpty then .error (-ENOENT)
  else do
    let old ← resolve lossy dirs v olddirfd old
    let new ← resolve lossy dirs v newdirfd new
    return (old, new)

def hostRename (m : Files) (flags : BitVec 32) (old new : UnixPath) : Result :=
  if flags &&& ~~~(RENAME_NOREPLACE ||| RENAME_EXCHANGE ||| RENAME_WHITEOUT) ≠ 0 then
    .refused m (-EINVAL)
  else if flags &&& RENAME_WHITEOUT ≠ 0 then .refused m (-EINVAL)
  else if flags &&& RENAME_NOREPLACE ≠ 0 && m.found new then .refused m (-EEXIST)
  else .ofHost m (m.rename old new)

def PathCall.run (m : Files) : PathCall → Result
  | .openat dirfd path flags ino =>
    match resolve lossy dirs v dirfd path with
    | .error e => .refused m e
    | .ok abs => vfsOpen m abs flags ino
  | .mkdirat dirfd path =>
    match resolveArg lossy v dirs dirfd path with
    | .error e => .refused m e
    | .ok abs => .ofHost m (m.createDir abs)
  | .unlinkat dirfd path flags =>
    match resolveArg lossy v dirs dirfd path with
    | .error e => .refused m e
    | .ok abs =>
      .ofHost m (if flags &&& AT_REMOVEDIR ≠ 0 then m.removeDir abs else m.removeFile abs)
  | .renameat olddirfd old newdirfd new flags =>
    match resolveBoth lossy v dirs olddirfd old newdirfd new with
    | .error e => .refused m e
    | .ok (old, new) => hostRename m flags old new
  | .linkat olddirfd old newdirfd new =>
    match resolveBoth lossy v dirs olddirfd old newdirfd new with
    | .error e => .refused m e
    | .ok (old, new) => .ofHost m (m.hardLink old new)
  | .symlinkat target dirfd path =>
    match resolveArg lossy v dirs dirfd path with
    | .error e => .refused m e
    | .ok abs => .ofHost m (m.symlink target abs)

end

/-- A call, with the descriptor table it finds. -/
structure GuestCall where
  dirs : UInt32 → DirEntry
  call : PathCall

def GuestCall.result (lossy : UnixPath → UnixPath) (v : Vfs) (m : Files) (c : GuestCall) : Result :=
  c.call.run lossy v c.dirs m

def nextFiles (lossy : UnixPath → UnixPath) (v : Vfs) (m : Files) (c : GuestCall) : Option Files :=
  some (c.result lossy v m).files

-- ---------------------------------------------------------------------------
-- The sandbox on the host
-- ---------------------------------------------------------------------------

def nameOf : Component → Option Name
  | .normal n => some n
  | _ => none

def locOf (p : UnixPath) : Loc := (components p).filterMap nameOf

theorem components_of_rooted (h : Rooted p) :
    components p = .rootDir :: (locOf p).map .normal := by
  obtain ⟨names, hp⟩ := h.components
  have hn : names.filterMap (nameOf ∘ .normal) = names := by
    rw [show nameOf ∘ .normal = some from rfl, List.filterMap_some]
  rw [locOf, hp, List.filterMap_cons, show nameOf .rootDir = none from rfl]
  simp only
  rw [List.filterMap_map, hn]

theorem locOf_prefix (h : startsWith p base = true) : locOf base <+: locOf p :=
  (List.isPrefixOf_iff_prefix.mp h).filterMap nameOf

/-- No link under the root leads out of it, and nothing on the way to it is a link. -/
structure Sandboxed (base : Loc) (m : Files) : Prop where
  links : LinksInside m.tree base
  ancestors : AncestorsReal m.tree base

/-- A path that resolution may return. -/
def Named (base : Loc) (p : UnixPath) : Prop :=
  ∃ names : Loc, components p = .rootDir :: names.map .normal ∧ base <+: names

theorem named_of_resolve {v : Vfs} (hroot : Rooted v.root)
    (h : resolve lossy dirs v dirfd p = .ok q) : Named (locOf v.root) q := by
  obtain ⟨hq, hunder⟩ := resolve_ok hroot h
  exact ⟨locOf q, components_of_rooted hq, locOf_prefix hunder⟩

theorem named_of_resolveArg {v : Vfs} (hroot : Rooted v.root)
    (h : resolveArg lossy v dirs dirfd p = .ok q) : Named (locOf v.root) q := by
  unfold resolveArg at h
  split at h
  · cases h
  · exact named_of_resolve hroot h

theorem named_of_resolveBoth {v : Vfs} (hroot : Rooted v.root)
    (h : resolveBoth lossy v dirs olddirfd old newdirfd new = .ok (p, q)) :
    Named (locOf v.root) p ∧ Named (locOf v.root) q := by
  unfold resolveBoth at h
  split at h
  · cases h
  · cases hp : resolve lossy dirs v olddirfd old with
    | error e =>
      rw [hp] at h
      cases h
    | ok p' =>
      cases hq : resolve lossy dirs v newdirfd new with
      | error e =>
        rw [hp, hq] at h
        cases h
      | ok q' =>
        rw [hp, hq] at h
        cases h
        exact ⟨named_of_resolve hroot hp, named_of_resolve hroot hq⟩

theorem Sandboxed.locate (hs : Sandboxed base m) (hp : Named base p)
    (h : HostTree.locate m.tree p = .ok x) : Under base x := by
  obtain ⟨names, hc, hpre⟩ := hp
  exact hs.links.locate hs.ancestors hc hpre h

theorem Sandboxed.walk (hs : Sandboxed base m) (hp : Named base p)
    (h : HostTree.walk m.tree MAX_LINKS [] (components p) = .ok x) : Under base x := by
  obtain ⟨names, hc, hpre⟩ := hp
  rw [hc] at h
  exact hs.links.walk_root hs.ancestors hpre h

theorem Sandboxed.of_changes (hs : Sandboxed base m) (hc : ChangesUnder base m m')
    (hl : LinksInside m'.tree base) : Sandboxed base m' :=
  ⟨hl, hs.ancestors.change hc⟩

theorem Sandboxed.insert_file (hs : Sandboxed base m) (hx : Under base x) :
    Sandboxed base (m.insert x (.file ino)) := by
  refine hs.of_changes (changesUnder_insert hx) (hs.links.change (fun l hl => ?_) (.inr ⟨ino, ?_⟩) hx)
  · exact (HashMap.get?_insert ..).trans (if_neg hl)
  · exact (HashMap.get?_insert ..).trans (if_pos rfl)

theorem Sandboxed.erase (hs : Sandboxed base m) (hx : Under base x) :
    Sandboxed base (m.erase x) := by
  refine hs.of_changes (changesUnder_erase hx) (hs.links.change (fun l hl => ?_) (.inl ?_) hx)
  · exact (HashMap.get?_erase ..).trans (if_neg hl)
  · exact (HashMap.get?_erase ..).trans (if_pos rfl)

theorem openFile_ok (hs : Sandboxed base m) (hp : Named base p)
    (h : Files.openFile m o p ino = .ok (f, m')) : Under base f.loc ∧ Sandboxed base m' := by
  unfold Files.openFile at h
  split at h
  · cases h
  · split at h
    · obtain ⟨x, hx, h⟩ := bind_ok h
      have hu := hs.locate hp hx
      split at h
      · cases h
      · cases h
        exact ⟨hu, hs.insert_file hu⟩
    · obtain ⟨x, hx, h⟩ := bind_ok h
      have hu := hs.walk hp hx
      split at h
      · split at h
        · cases h
          exact ⟨hu, hs.insert_file hu⟩
        · cases h
      · cases h
        exact ⟨hu, hs⟩
      · split at h
        · cases h
        · cases h
          exact ⟨hu, hs⟩
      · cases h

theorem removeFile_ok (hs : Sandboxed base m) (hp : Named base p)
    (h : Files.removeFile m p = .ok m') : Sandboxed base m' := by
  unfold Files.removeFile at h
  obtain ⟨x, hx, h⟩ := bind_ok h
  split at h
  · cases h
  · cases h
  · cases h
    exact hs.erase (hs.locate hp hx)

theorem removeDir_ok (hs : Sandboxed base m) (hp : Named base p)
    (h : Files.removeDir m p = .ok m') : Sandboxed base m' := by
  unfold Files.removeDir at h
  obtain ⟨x, hx, h⟩ := bind_ok h
  split at h
  · cases h
  · split at h
    · cases h
      exact hs.erase (hs.locate hp hx)
    · cases h
  · cases h

theorem createDir_ok (hs : Sandboxed base m) (hp : Named base p)
    (h : Files.createDir m p = .ok m') : ChangesUnder base m m' := by
  unfold Files.createDir at h
  obtain ⟨x, hx, h⟩ := bind_ok h
  split at h
  · cases h
  · cases h
    exact changesUnder_insert (hs.locate hp hx)

theorem symlink_ok (hs : Sandboxed base m) (hp : Named base p)
    (h : Files.symlink m target p = .ok m') : ChangesUnder base m m' := by
  unfold Files.symlink at h
  split at h
  · cases h
  · obtain ⟨x, hx, h⟩ := bind_ok h
    split at h
    · cases h
    · cases h
      exact changesUnder_insert (hs.locate hp hx)

theorem hardLink_ok (hs : Sandboxed base m) (hq : Named base q)
    (h : Files.hardLink m p q = .ok m') : ChangesUnder base m m' := by
  unfold Files.hardLink at h
  obtain ⟨a, -, h⟩ := bind_ok h
  split at h
  · cases h
  · cases h
  · obtain ⟨b, hb, h⟩ := bind_ok h
    split at h
    · cases h
    · cases h
      exact changesUnder_insert (hs.locate hq hb)

theorem rename_ok (hs : Sandboxed base m) (hp : Named base p) (hq : Named base q)
    (h : Files.rename m p q = .ok m') : ChangesUnder base m m' := by
  unfold Files.rename at h
  obtain ⟨a, ha, h⟩ := bind_ok h
  obtain ⟨b, hb, h⟩ := bind_ok h
  have hmove : ChangesUnder base m (m.move a b) :=
    changesUnder_move (hs.locate hp ha) (hs.locate hq hb)
  split at h
  · cases h
  · split at h
    · cases h
      exact .refl base m
    · split at h
      · cases h
      · split at h
        · split at h
          · cases h
            exact hmove
          · cases h
        · cases h
        · cases h
        · split at h
          · cases h
            exact .refl base m
          · cases h
            exact hmove
        · cases h
          exact hmove

/-- The call leaves no link under the root that leads out of it. Opening, creating
and removing a file cannot bring one about. -/
def KeepsLinksInside (lossy : UnixPath → UnixPath) (v : Vfs) (m : Files) (c : GuestCall) : Prop :=
  match c.call with
  | .openat .. | .unlinkat .. => True
  | _ => LinksInside (c.result lossy v m).files.tree (locOf v.root)

theorem ofHost_changes (h : ∀ m', r = .ok m' → ChangesUnder base m m') :
    ChangesUnder base m (Result.ofHost m r).files := by
  cases r with
  | ok m' => exact h m' rfl
  | error e => exact .refl base m

theorem ofHost_sandboxed (hs : Sandboxed base m) (h : ∀ m', r = .ok m' → Sandboxed base m') :
    Sandboxed base (Result.ofHost m r).files := by
  cases r with
  | ok m' => exact h m' rfl
  | error e => exact hs

theorem openat_result {v : Vfs} (hroot : Rooted v.root) (hs : Sandboxed (locOf v.root) m) :
    Sandboxed (locOf v.root) ((PathCall.openat dirfd path flags ino).run lossy v dirs m).files ∧
      ∀ x ∈ ((PathCall.openat dirfd path flags ino).run lossy v dirs m).opened,
        Under (locOf v.root) x := by
  simp only [PathCall.run]
  split
  · exact ⟨hs, fun x hx => by cases hx⟩
  · rename_i abs habs
    unfold vfsOpen
    split
    · exact ⟨hs, fun x hx => by cases hx⟩
    · split
      · exact ⟨hs, fun x hx => by cases hx⟩
      · rename_i hopen
        obtain ⟨hu, hs'⟩ := openFile_ok hs (named_of_resolve hroot habs) hopen
        refine ⟨hs', fun x hx => ?_⟩
        cases hx
        exact hu

theorem hostRename_changes (hs : Sandboxed base m) (hp : Named base p) (hq : Named base q) :
    ChangesUnder base m (hostRename m flags p q).files := by
  unfold hostRename
  split
  · exact .refl base m
  · split
    · exact .refl base m
    · split
      · exact .refl base m
      · exact ofHost_changes fun m' h => rename_ok hs hp hq h

theorem PathCall.run_ok {v : Vfs} (hroot : Rooted v.root) (hs : Sandboxed (locOf v.root) m)
    (c : PathCall) (hk : KeepsLinksInside lossy v m ⟨dirs, c⟩) :
    Sandboxed (locOf v.root) (c.run lossy v dirs m).files := by
  cases c with
  | openat dirfd path flags ino => exact (openat_result hroot hs).1
  | mkdirat dirfd path =>
    refine hs.of_changes ?_ hk
    simp only [run]
    split
    · exact .refl _ m
    · rename_i abs habs
      exact ofHost_changes fun m' h => createDir_ok hs (named_of_resolveArg hroot habs) h
  | unlinkat dirfd path flags =>
    simp only [run]
    split
    · exact hs
    · rename_i abs habs
      have hp := named_of_resolveArg hroot habs
      refine ofHost_sandboxed hs fun m' h => ?_
      split at h
      · exact removeDir_ok hs hp h
      · exact removeFile_ok hs hp h
  | renameat olddirfd old newdirfd new flags =>
    refine hs.of_changes ?_ hk
    simp only [run]
    split
    · exact .refl _ m
    · rename_i hboth
      obtain ⟨hp, hq⟩ := named_of_resolveBoth hroot hboth
      exact hostRename_changes hs hp hq
  | linkat olddirfd old newdirfd new =>
    refine hs.of_changes ?_ hk
    simp only [run]
    split
    · exact .refl _ m
    · rename_i hboth
      exact ofHost_changes fun m' h => hardLink_ok hs (named_of_resolveBoth hroot hboth).2 h
  | symlinkat target dirfd path =>
    refine hs.of_changes ?_ hk
    simp only [run]
    split
    · exact .refl _ m
    · rename_i abs habs
      exact ofHost_changes fun m' h => symlink_ok hs (named_of_resolveArg hroot habs) h

theorem PathCall.opened_under {v : Vfs} (hroot : Rooted v.root) (hs : Sandboxed (locOf v.root) m)
    (c : PathCall) (h : (c.run lossy v dirs m).opened = some x) : Under (locOf v.root) x := by
  have hhost (r : Except ErrorKind Files) : (Result.ofHost m r).opened = none := by
    cases r with
    | ok m' => rfl
    | error e => rfl
  cases c with
  | openat dirfd path flags ino => exact (openat_result hroot hs).2 x h
  | mkdirat dirfd path =>
    simp only [run] at h
    split at h
    · cases h
    · rw [hhost] at h
      cases h
  | unlinkat dirfd path flags =>
    simp only [run] at h
    split at h
    · cases h
    · rw [hhost] at h
      cases h
  | renameat olddirfd old newdirfd new flags =>
    simp only [run] at h
    split at h
    · cases h
    · simp only [hostRename] at h
      split at h
      · cases h
      · split at h
        · cases h
        · split at h
          · cases h
          · rw [hhost] at h
            cases h
  | linkat olddirfd old newdirfd new =>
    simp only [run] at h
    split at h
    · cases h
    · rw [hhost] at h
      cases h
  | symlinkat target dirfd path =>
    simp only [run] at h
    split at h
    · cases h
    · rw [hhost] at h
      cases h

/-- While no call leaves a link under the root that leads out of it, every file
opened, created or cut is really under the root. -/
theorem openat_stays_under_root (lossy : UnixPath → UnixPath) (v : Vfs) (hroot : Rooted v.root)
    (h₀ : Sandboxed (locOf v.root) m₀)
    (h : Reaches (nextFiles lossy v) (KeepsLinksInside lossy v) m₀ m) (c : GuestCall)
    (ho : (c.result lossy v m).opened = some x) : Under (locOf v.root) x := by
  have hs : Sandboxed (locOf v.root) m := by
    refine h.invariant h₀ ?_
    intro s a s' hs hk hn
    obtain rfl := Option.some.inj hn
    exact a.call.run_ok hroot hs hk
  exact c.call.opened_under hroot hs ho

-- ---------------------------------------------------------------------------
-- A directory and a file beside it
-- ---------------------------------------------------------------------------

def twoFiles : Files :=
  .ofList [([], .dir), ([[114]], .dir), ([[114], [102]], .file 1), ([[115]], .file 2)]

theorem twoFiles_sandboxed : Sandboxed (locOf (Vfs.new slashR).root) twoFiles := by
  refine ⟨by decide, ?_⟩
  intro p hp hne
  have hbase : locOf (Vfs.new slashR).root = [] ++ [[114]] := by decide
  have hnil : p = [] := by
    rw [hbase] at hp hne
    rcases List.prefix_concat_iff.mp hp with rfl | hp
    · exact absurd rfl hne
    · exact List.prefix_nil.mp hp
  rw [hnil]
  decide

/-- `symlinkat(target, AT_FDCWD, "l")`. -/
def linkTo (target : UnixPath) : GuestCall where
  dirs _ := .unbound
  call := .symlinkat target AT_FDCWD [108]

/-- `openat(AT_FDCWD, "l", O_RDONLY)`. -/
def openL : GuestCall where
  dirs _ := .unbound
  call := .openat AT_FDCWD [108] O_RDONLY 0

theorem openat_stays_under_root_link :
    ∃ m, Reaches (nextFiles id (.new slashR)) (KeepsLinksInside id (.new slashR)) twoFiles m ∧
      (openL.result id (.new slashR) m).opened = some [[114], [102]] ∧
      Under (locOf (Vfs.new slashR).root) [[114], [102]] := by
  have hk : KeepsLinksInside id (.new slashR) twoFiles (linkTo [102]) := by
    show LinksInside ((linkTo [102]).result id (.new slashR) twoFiles).files.tree _
    decide
  have hreach : Reaches (nextFiles id (.new slashR)) (KeepsLinksInside id (.new slashR)) twoFiles _ :=
    .step .start hk (rfl : nextFiles id (.new slashR) twoFiles (linkTo [102]) = some _)
  have hopen : (openL.result id (.new slashR) ((linkTo [102]).result id (.new slashR) twoFiles).files
      ).opened = some [[114], [102]] := by decide
  exact ⟨_, hreach, hopen, openat_stays_under_root id _ slashR.rooted twoFiles_sandboxed hreach
    openL hopen⟩

/-- A link to `/s`, then an `openat` through it. -/
theorem symlink_escapes :
    ∃ m, Sandboxed (locOf (Vfs.new slashR).root) twoFiles ∧
      Reaches (nextFiles id (.new slashR)) (fun _ _ => True) twoFiles m ∧
      (openL.result id (.new slashR) m).opened = some [[115]] ∧
      ¬ Under (locOf (Vfs.new slashR).root) [[115]] := by
  refine ⟨_, twoFiles_sandboxed, .step .start trivial
    (rfl : nextFiles id (.new slashR) twoFiles (linkTo [47, 115]) = some _), ?_, ?_⟩
  · decide
  · decide

end EdgeLibos.Paths
