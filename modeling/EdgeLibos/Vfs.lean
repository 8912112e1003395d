import EdgeLibos.Errno
import EdgeLibos.Lib.Runs
import EdgeLibos.Lib.UnixPath

/-!
# Path resolution

The sandbox is lexical: every path is brought to a text without `.` and `..`, and
refused when that text does not start with the root. Paths are bytes here, so that
a root whose name is not UTF-8 is covered too; `lossy` is the conversion to text
that the route through a directory descriptor makes on its way.
-/

namespace EdgeLibos.Paths

open Errno Lib UnixPath

structure Vfs where
  root : UnixPath
  cwd : UnixPath
  deriving DecidableEq, Repr

def AT_FDCWD : Int := -100

def Rooted (p : UnixPath) : Prop := ∃ s : Stack, s.absolute = true ∧ s.Plain ∧ p = s.toPath

/-- What `fs::canonicalize` returns. -/
structure Canonical where
  path : UnixPath
  rooted : Rooted path

namespace Vfs

def new (root : Canonical) : Vfs := { root := root.path, cwd := root.path }

def normalizeStep (s : Stack) : Component → Option Stack
  | .parentDir => s.pop
  | .curDir => some s
  | .rootDir => some .root
  | .normal n => some (s.push n)

def normalize (v : Vfs) (joined : UnixPath) : Except Int UnixPath :=
  match (components joined).foldlM normalizeStep .empty with
  | none => .error (-EACCES)
  | some s => if startsWith s.toPath v.root then .ok s.toPath else .error (-EACCES)

def joinTrimmed (base path : UnixPath) : UnixPath :=
  let trimmed := path.dropWhile (· = slash)
  if trimmed.isEmpty then base else join base trimmed

def resolvePath (v : Vfs) (dirfd : Int) (path : UnixPath) : Except Int UnixPath :=
  if isAbsolute path && startsWith path v.root then v.normalize path
  else if isAbsolute path then v.normalize (joinTrimmed v.root path)
  else if dirfd = AT_FDCWD then v.normalize (joinTrimmed v.cwd path)
  else .error (-ENOSYS)

/-- What `fs::metadata` says of a path: an error, or whether it is a directory. -/
abbrev Metadata := UnixPath → Except Int Bool

def chdir (v : Vfs) (metadata : Metadata) (path : UnixPath) : Except Int Vfs :=
  if !startsWith path v.root then .error (-EACCES)
  else
    match metadata path with
    | .error e => .error e
    | .ok isDir => if isDir then .ok { v with cwd := path } else .error (-ENOTDIR)

def chroot (_ : Vfs) (metadata : Metadata) (path : UnixPath) : Except Int Vfs :=
  match metadata path with
  | .error e => .error e
  | .ok isDir => if isDir then .ok { root := path, cwd := path } else .error (-ENOTDIR)

end Vfs

inductive DirEntry
  | unbound
  | other
  | file (isDir : Bool) (path : Option UnixPath)
  deriving DecidableEq, Repr

section
variable (lossy : UnixPath → UnixPath) (dirs : UInt32 → DirEntry)

def resolveViaDirfd (v : Vfs) (dirfd : UInt32) (path : UnixPath) : Except Int UnixPath :=
  match dirs dirfd with
  | .unbound => .error (-EBADF)
  | .other => .error (-ENOTDIR)
  | .file isDir dirPath =>
    if !isDir then .error (-ENOTDIR)
    else
      match dirPath with
      | none => .error (-EACCES)
      | some dirPath =>
        let joined := if path.isEmpty then dirPath else join dirPath path
        v.resolvePath AT_FDCWD (lossy joined)

/-- `sys::path::resolve`; the descriptor is cut to 32 bits. -/
def resolve (v : Vfs) (dirfd : Int) (path : UnixPath) : Except Int UnixPath :=
  if isAbsolute path || dirfd = AT_FDCWD then v.resolvePath dirfd path
  else if dirfd ≥ 0 then resolveViaDirfd lossy dirs v (UInt32.ofNat dirfd.toNat) path
  else .error (-ENOSYS)

end

-- ---------------------------------------------------------------------------
-- The two calls that move the sandbox
-- ---------------------------------------------------------------------------

/-- `chdir` or `chroot` with a path, and what the call finds when it is made: the
descriptor table and the host's directories. -/
structure DirCall where
  chroot : Bool
  path : UnixPath
  dirs : UInt32 → DirEntry
  metadata : Vfs.Metadata

/-- Both calls refuse an empty path and resolve any other before they look at it. -/
def DirCall.run (lossy : UnixPath → UnixPath) (v : Vfs) (c : DirCall) : Except Int Vfs :=
  if c.path.isEmpty then .error (-ENOENT)
  else
    match resolve lossy c.dirs v AT_FDCWD c.path with
    | .error e => .error e
    | .ok path => if c.chroot then v.chroot c.metadata path else v.chdir c.metadata path

/-- A call that fails leaves the sandbox as it is. -/
def nextVfs (lossy : UnixPath → UnixPath) (v : Vfs) (c : DirCall) : Option Vfs :=
  some ((c.run lossy v).toOption.getD v)

-- ---------------------------------------------------------------------------
-- What normalisation returns
-- ---------------------------------------------------------------------------

theorem Rooted.components (h : Rooted p) : ∃ names : List Name,
    UnixPath.components p = .rootDir :: names.map .normal := by
  obtain ⟨s, ha, hp, rfl⟩ := h
  exact ⟨s.names, Stack.components_toPath ha hp⟩

theorem Rooted.isAbsolute (h : Rooted p) : UnixPath.isAbsolute p = true := by
  obtain ⟨s, ha, -, rfl⟩ := h
  rw [Stack.toPath, ha, if_pos rfl, List.singleton_append]
  exact isAbsolute_cons

namespace Vfs

theorem normalizeStep_plain (hs : s.Plain) (hc : ∀ n, c = .normal n → PlainName n)
    (h : normalizeStep s c = some s') : s'.Plain := by
  cases c with
  | parentDir =>
    simp only [normalizeStep, Stack.pop] at h
    split at h
    · cases h
    · cases h
      exact fun n hn => hs n (List.dropLast_subset _ hn)
  | curDir =>
    cases h
    exact hs
  | rootDir =>
    cases h
    exact fun n hn => absurd hn List.not_mem_nil
  | normal n =>
    cases h
    intro m hm
    rcases List.mem_append.mp hm with hm | hm
    · exact hs m hm
    · rw [List.mem_singleton.mp hm]
      exact hc n rfl

theorem foldlM_plain {cs : List Component} {s s' : Stack} (hs : s.Plain)
    (hcs : ∀ n, .normal n ∈ cs → PlainName n) (h : cs.foldlM normalizeStep s = some s') :
    s'.Plain := by
  induction cs generalizing s with
  | nil =>
    cases h
    exact hs
  | cons c rest ih =>
    obtain ⟨s₁, h₁, h⟩ := Option.bind_eq_some_iff.mp h
    refine ih (normalizeStep_plain hs ?_ h₁) (fun n hn => hcs n (List.mem_cons_of_mem _ hn)) h
    rintro n rfl
    exact hcs n List.mem_cons_self

theorem foldlM_normal (s : Stack) (names : List Name) :
    (names.map Component.normal).foldlM normalizeStep s =
      some { s with names := s.names ++ names } := by
  induction names generalizing s with
  | nil => simp
  | cons n rest ih =>
    rw [List.map_cons, List.foldlM_cons]
    simp only [normalizeStep, bind, Option.bind]
    rw [ih]
    simp [Stack.push]

theorem absolute_of_startsWith (hroot : Rooted base) (h : startsWith p base = true) :
    UnixPath.isAbsolute p = true := by
  obtain ⟨names, hnames⟩ := hroot.components
  have hpre := List.isPrefixOf_iff_prefix.mp h
  rw [hnames] at hpre
  obtain ⟨rest, hrest⟩ := hpre
  refine isAbsolute_of_rootDir_mem ?_
  rw [← hrest]
  exact List.mem_cons_self

theorem normalize_ok {v : Vfs} (hroot : Rooted v.root) (h : v.normalize p = .ok q) :
    Rooted q ∧ startsWith q v.root = true := by
  unfold normalize at h
  split at h
  · cases h
  · rename_i s hs
    split at h
    · rename_i hstarts
      cases h
      have hplain : s.Plain := foldlM_plain (fun n hn => absurd hn List.not_mem_nil)
        (fun n hn => plainName_of_mem_components hn) hs
      have habs : s.absolute = true :=
        Stack.absolute_of_isAbsolute hplain (absolute_of_startsWith hroot hstarts)
      exact ⟨⟨s, habs, hplain, rfl⟩, hstarts⟩
    · cases h

theorem normalize_rooted {v : Vfs} (hq : Rooted q) (h : startsWith q v.root = true) :
    v.normalize q = .ok q := by
  obtain ⟨s, ha, hp, rfl⟩ := hq
  have hfold : (UnixPath.components s.toPath).foldlM normalizeStep .empty = some s := by
    rw [Stack.components_toPath ha hp, List.foldlM_cons]
    simp only [normalizeStep, bind, Option.bind]
    rw [foldlM_normal]
    obtain ⟨absolute, names⟩ := s
    cases ha
    rfl
  unfold normalize
  rw [hfold]
  simp only [h, if_true]

theorem resolvePath_ok {v : Vfs} (hroot : Rooted v.root) (h : v.resolvePath dirfd p = .ok q) :
    Rooted q ∧ startsWith q v.root = true := by
  unfold resolvePath at h
  split at h
  · exact normalize_ok hroot h
  · split at h
    · exact normalize_ok hroot h
    · split at h
      · exact normalize_ok hroot h
      · cases h

theorem resolvePath_rooted {v : Vfs} (hq : Rooted q) (h : startsWith q v.root = true)
    (dirfd : Int) : v.resolvePath dirfd q = .ok q := by
  rw [resolvePath, hq.isAbsolute, h, Bool.and_self, if_pos rfl]
  exact normalize_rooted hq h

end Vfs

theorem resolve_ok {v : Vfs} (hroot : Rooted v.root)
    (h : resolve lossy dirs v dirfd p = .ok q) : Rooted q ∧ startsWith q v.root = true := by
  unfold resolve at h
  split at h
  · exact Vfs.resolvePath_ok hroot h
  · split at h
    · unfold resolveViaDirfd at h
      split at h
      · cases h
      · cases h
      · split at h
        · cases h
        · split at h
          · cases h
          · exact Vfs.resolvePath_ok hroot h
    · cases h

theorem resolve_rooted {v : Vfs} (hq : Rooted q) (h : startsWith q v.root = true)
    (lossy : UnixPath → UnixPath) (dirs : UInt32 → DirEntry) (dirfd : Int) :
    resolve lossy dirs v dirfd q = .ok q := by
  rw [resolve, hq.isAbsolute, Bool.true_or, if_pos rfl]
  exact Vfs.resolvePath_rooted hq h dirfd

-- ---------------------------------------------------------------------------
-- Runs
-- ---------------------------------------------------------------------------

/-- Root and working directory are canonical, one under the other. -/
structure Confined (v : Vfs) : Prop where
  root : Rooted v.root
  cwd : startsWith v.cwd v.root = true

theorem startsWith_self (p : UnixPath) : startsWith p p = true :=
  List.isPrefixOf_iff_prefix.mpr (List.prefix_refl _)

theorem Confined.new (root : Canonical) : Confined (.new root) := ⟨root.rooted, startsWith_self _⟩

theorem DirCall.run_ok (hv : Confined v) (h : DirCall.run lossy v c = .ok v') :
    Confined v' ∧ startsWith v'.root v.root = true := by
  unfold DirCall.run at h
  split at h
  · cases h
  · split at h
    · cases h
    · rename_i path hpath
      obtain ⟨hrooted, hunder⟩ := resolve_ok hv.root hpath
      split at h
      · unfold Vfs.chroot at h
        split at h
        · cases h
        · split at h
          · cases h
            exact ⟨⟨hrooted, startsWith_self _⟩, hunder⟩
          · cases h
      · unfold Vfs.chdir at h
        split at h
        · cases h
        · split at h
          · cases h
          · split at h
            · cases h
              exact ⟨⟨hv.root, hunder⟩, startsWith_self _⟩
            · cases h

theorem nextVfs_ok (hv : Confined v) (h : nextVfs lossy v c = some v') :
    Confined v' ∧ startsWith v'.root v.root = true := by
  obtain rfl := Option.some.inj h
  cases hrun : c.run lossy v with
  | error e => exact ⟨hv, startsWith_self _⟩
  | ok u => exact DirCall.run_ok hv hrun

theorem Rooted.pieces (h : Rooted q) (hm : piece ∈ q.splitOn slash) :
    piece ≠ [dot] ∧ piece ≠ [dot, dot] := by
  obtain ⟨s, -, hp, rfl⟩ := h
  rcases Stack.mem_splitOn_toPath hp hm with rfl | hm
  · exact ⟨by decide, by decide⟩
  · exact ⟨(hp piece hm).2.1, (hp piece hm).2.2.1⟩

/-- What a resolution returns in the sandbox `v`. -/
structure Contained (v : Vfs) (q : UnixPath) : Prop where
  absolute : isAbsolute q = true
  under : startsWith q v.root = true
  plain : ∀ piece ∈ q.splitOn slash, piece ≠ [dot] ∧ piece ≠ [dot, dot]
  /-- Resolving the result again changes nothing, from whichever directory. -/
  again : ∀ cwd lossy dirs dirfd, resolve lossy dirs { v with cwd } dirfd q = .ok q
  againPath : ∀ cwd dirfd, Vfs.resolvePath { v with cwd } dirfd q = .ok q

theorem Contained.of_rooted (hq : Rooted q) (h : startsWith q v.root = true) : Contained v q where
  absolute := hq.isAbsolute
  under := h
  plain _ hm := hq.pieces hm
  again cwd lossy dirs dirfd := resolve_rooted (v := { v with cwd }) hq h lossy dirs dirfd
  againPath cwd dirfd := Vfs.resolvePath_rooted (v := { v with cwd }) hq h dirfd

theorem Confined.reaches {start : Canonical}
    (h : Reaches (nextVfs lossy) (fun _ _ => True) (.new start) v) : Confined v :=
  h.invariant (.new start) fun _ _ _ hv _ hn => (nextVfs_ok hv hn).1

/-- In every run of `chdir` and `chroot` the working directory stays under the root
and the root under the one before it, and every path resolved is under the root. -/
theorem resolution_contained (lossy : UnixPath → UnixPath) (root : Canonical)
    (h : Reaches (nextVfs lossy) (fun _ _ => True) (.new root) v) :
    startsWith v.cwd v.root = true ∧
      (∀ c v', nextVfs lossy v c = some v' → startsWith v'.root v.root = true) ∧
      (∀ dirs dirfd p q, resolve lossy dirs v dirfd p = .ok q → Contained v q) ∧
      ∀ dirfd p q, v.resolvePath dirfd p = .ok q → Contained v q := by
  have hv := Confined.reaches h
  refine ⟨hv.cwd, fun c v' hn => (nextVfs_ok hv hn).2, ?_, ?_⟩
  · intro dirs dirfd p q hq
    obtain ⟨hrooted, hunder⟩ := resolve_ok hv.root hq
    exact .of_rooted hrooted hunder
  · intro dirfd p q hq
    obtain ⟨hrooted, hunder⟩ := Vfs.resolvePath_ok hv.root hq
    exact .of_rooted hrooted hunder

def slashR : Canonical where
  path := [47, 114]
  rooted := by
    refine ⟨{ absolute := true, names := [[114]] }, rfl, ?_, rfl⟩
    intro n hn
    rw [List.mem_singleton.mp hn]
    exact ⟨by decide, by decide, by decide, by decide⟩

/-- `chroot("./s//")`. -/
def chrootS : DirCall where
  chroot := true
  path := [46, 47, 115, 47, 47]
  dirs _ := .unbound
  metadata _ := .ok true

theorem resolution_contained_chroot :
    ∃ v, Reaches (nextVfs id) (fun _ _ => True) (.new slashR) v ∧ v.root = [47, 114, 47, 115] ∧
      startsWith v.cwd v.root = true ∧
      (∀ c v', nextVfs id v c = some v' → startsWith v'.root v.root = true) ∧
      (∀ dirs dirfd p q, resolve id dirs v dirfd p = .ok q → Contained v q) ∧
      ∀ dirfd p q, v.resolvePath dirfd p = .ok q → Contained v q := by
  have hreach : Reaches (nextVfs id) (fun _ _ => True) (.new slashR)
      { root := [47, 114, 47, 115], cwd := [47, 114, 47, 115] } :=
    .step (a := chrootS) .start trivial (by decide)
  exact ⟨_, hreach, rfl, resolution_contained id slashR hreach⟩

end EdgeLibos.Paths
