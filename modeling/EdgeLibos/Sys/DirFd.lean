import EdgeLibos.Lib.Utf8
import EdgeLibos.Vfs

/-!
# Paths from a directory descriptor

The route through a directory descriptor joins the path to the one recorded for the
descriptor, takes the text of the result and resolves that as an absolute path. The
text of a path under the root is under the root, so this is what resolving from that
directory as the working directory gives.
-/

namespace EdgeLibos.Paths

open Errno Lib UnixPath

-- ---------------------------------------------------------------------------
-- Joining
-- ---------------------------------------------------------------------------

theorem utf8_slash : Utf8 [slash] := ⟨['/'], rfl⟩

theorem utf8_join (hbase : Utf8 base) (hp : Utf8 p) : Utf8 (join base p) := by
  unfold join
  split
  · exact hp
  · split
    · exact hbase.append hp
    · rw [← List.singleton_append]
      exact hbase.append (utf8_slash.append hp)

theorem startsWith_join (habs : isAbsolute base = true) (hp : isAbsolute p = false)
    (h : startsWith base root = true) : startsWith (join base p) root = true :=
  List.isPrefixOf_iff_prefix.mpr
    ((List.isPrefixOf_iff_prefix.mp h).trans (components_prefix_join habs hp))

theorem dropWhile_slash (hp : isAbsolute p = false) : p.dropWhile (· = slash) = p := by
  cases p with
  | nil => rfl
  | cons b rest =>
    have hb : b ≠ slash := by simpa [isAbsolute] using hp
    rw [List.dropWhile_cons_of_neg (by simpa using hb)]

theorem joinTrimmed_relative (hp : isAbsolute p = false) (base : UnixPath) :
    Vfs.joinTrimmed base p = if p.isEmpty then base else join base p := by
  simp only [Vfs.joinTrimmed, dropWhile_slash hp]

-- ---------------------------------------------------------------------------
-- The two routes
-- ---------------------------------------------------------------------------

/-- The descriptor is a directory whose recorded path is normalised text under the root. -/
structure DirAt (v : Vfs) (dirs : UInt32 → DirEntry) (dirfd : Int) (d : UnixPath) : Prop where
  nonneg : 0 ≤ dirfd
  entry : dirs (UInt32.ofNat dirfd.toNat) = .file true (some d)
  rooted : Rooted d
  text : Utf8 d
  under : startsWith d v.root = true

variable {v v' : Vfs} {dirs dirs' : UInt32 → DirEntry}

theorem resolvePath_relative (hp : isAbsolute p = false) :
    v.resolvePath AT_FDCWD p = v.normalize (if p.isEmpty then v.cwd else join v.cwd p) := by
  rw [Vfs.resolvePath, hp, Bool.false_and, if_neg Bool.false_ne_true, if_neg Bool.false_ne_true,
    if_pos rfl, joinTrimmed_relative hp]

theorem resolvePath_inside (habs : isAbsolute p = true) (hunder : startsWith p v.root = true)
    (dirfd : Int) : v.resolvePath dirfd p = v.normalize p := by
  rw [Vfs.resolvePath, habs, hunder, Bool.and_self, if_pos rfl]

theorem DirAt.resolve_eq (h : DirAt v dirs dirfd d) (hp : isAbsolute p = false) (htext : Utf8 p) :
    resolve fromUtf8Lossy dirs v dirfd p = v.normalize (if p.isEmpty then d else join d p) := by
  have hcwd : dirfd ≠ AT_FDCWD := by
    have hneg : AT_FDCWD < 0 := by decide
    have hpos := h.nonneg
    omega
  have hjoined : Utf8 (if p.isEmpty then d else join d p) ∧
      isAbsolute (if p.isEmpty then d else join d p) = true ∧
      startsWith (if p.isEmpty then d else join d p) v.root = true := by
    split
    · exact ⟨h.text, h.rooted.isAbsolute, h.under⟩
    · exact ⟨utf8_join h.text htext, isAbsolute_join h.rooted.isAbsolute p,
        startsWith_join h.rooted.isAbsolute hp h.under⟩
  rw [resolve, hp, Bool.false_or, if_neg (by simpa using hcwd), if_pos h.nonneg, resolveViaDirfd,
    h.entry]
  simp only [Bool.not_true, Bool.false_eq_true, if_false]
  rw [fromUtf8Lossy_of_utf8 hjoined.1]
  exact resolvePath_inside hjoined.2.1 hjoined.2.2 AT_FDCWD

theorem chdir_run (hd : Rooted d) (hunder : startsWith d v.root = true) (hc : c.chroot = false)
    (hpath : c.path = d) (hrun : DirCall.run lossy v c = .ok v') : v' = { v with cwd := d } := by
  have hne : d.isEmpty = false := by
    have habs := hd.isAbsolute
    cases d with
    | nil => cases habs
    | cons b rest => rfl
  rw [DirCall.run, hpath, hne, if_neg Bool.false_ne_true, resolve_rooted hd hunder] at hrun
  simp only [hc, Bool.false_eq_true, if_false] at hrun
  unfold Vfs.chdir at hrun
  split at hrun
  · cases hrun
  · split at hrun
    · cases hrun
    · split at hrun
      · cases hrun
        rfl
      · cases hrun

/-- A relative path names the same thing from a directory descriptor and from its
directory as the working directory, errors included; so after a `chdir` there it is what
the path names by itself. -/
theorem resolve_dirfd_eq_cwd (h : DirAt v dirs dirfd d) (hp : isAbsolute p = false)
    (htext : Utf8 p) :
    resolve fromUtf8Lossy dirs v dirfd p = Vfs.resolvePath { v with cwd := d } AT_FDCWD p ∧
      ∀ c v', c.path = d → c.chroot = false → DirCall.run fromUtf8Lossy v c = .ok v' →
        ∀ dirs', resolve fromUtf8Lossy dirs' v' AT_FDCWD p = resolve fromUtf8Lossy dirs v dirfd p := by
  have hroutes : resolve fromUtf8Lossy dirs v dirfd p =
      Vfs.resolvePath { v with cwd := d } AT_FDCWD p := by
    -- Normalisation looks at the root only.
    rw [h.resolve_eq hp htext, resolvePath_relative hp]
    rfl
  refine ⟨hroutes, fun c v' hpath hc hrun dirs' => ?_⟩
  obtain rfl := chdir_run h.rooted h.under hc hpath hrun
  rw [hroutes, resolve, if_pos (by simp)]

def dirAtThree (fd : UInt32) : DirEntry :=
  if fd = 3 then .file true (some [47, 114, 47, 100]) else .unbound

theorem resolve_dirfd_eq_cwd_climbing :
    resolve fromUtf8Lossy dirAtThree (.new slashR) 3 [46, 46, 47, 120] = .ok [47, 114, 47, 120] ∧
      resolve fromUtf8Lossy dirAtThree (.new slashR) 3 [46, 46, 47, 120] =
        Vfs.resolvePath { Vfs.new slashR with cwd := [47, 114, 47, 100] } AT_FDCWD
          [46, 46, 47, 120] := by
  have hdir : DirAt (.new slashR) dirAtThree 3 [47, 114, 47, 100] := by
    refine ⟨by decide, by decide, ?_, ⟨['/', 'r', '/', 'd'], by decide⟩, by decide⟩
    refine ⟨{ absolute := true, names := [[114], [100]] }, rfl, ?_, rfl⟩
    intro n hn
    rcases List.mem_pair.mp hn with rfl | rfl
    · exact ⟨by decide, by decide, by decide, by decide⟩
    · exact ⟨by decide, by decide, by decide, by decide⟩
  have hroutes := (resolve_dirfd_eq_cwd (p := [46, 46, 47, 120]) hdir (by decide)
    ⟨['.', '.', '/', 'x'], by decide⟩).1
  exact ⟨hroutes.trans (by decide), hroutes⟩

end EdgeLibos.Paths
