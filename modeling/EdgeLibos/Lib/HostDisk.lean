import EdgeLibos.Lib.HostOps

/-!
# Whole files on a host

A host's disk: its tree of names and what each file holds. Files are numbered, so two
names can be one file. `read` and `write` are for whole files: a write makes the file when
there is none, cuts it first, and may fail after some of the bytes.
-/

namespace EdgeLibos.Lib.HostTree

open UnixPath

structure Disk where
  files : Files
  contents : Nat → List UInt8
  cwd : Loc
  nextIno : Nat
  numbered : ∀ l ino, files.get? l = some (.file ino) → ino < nextIno

/-- A path that ends in a slash, `.` or `..` names a directory. -/
def namesDir (p : UnixPath) : Bool :=
  match (p.splitOn slash).getLast? with
  | some piece => piece = [] ∨ piece = [dot] ∨ piece = [dot, dot]
  | none => true

/-- How a write of a whole file goes wrong: the error `e` after `n` bytes. -/
structure Fault (ε : Type u) where
  n : Nat
  e : ε

namespace Disk

variable {ε : Type u}

/-- Where a path leads; its last name need not exist. -/
def lookup (d : Disk) (p : UnixPath) : Except ErrorKind Loc :=
  if 0 ∈ p then .error .invalidInput
  else if p = [] then .error .notFound
  else
    match walk d.files.tree MAX_LINKS d.cwd (components p) with
    | .error e => .error e
    | .ok x =>
      if namesDir p ∧ d.files.get? x ≠ some .dir then .error .notADirectory
      else .ok x

def found (d : Disk) (p : UnixPath) : Bool :=
  match d.lookup p with
  | .ok x => d.files.containsKey x
  | .error _ => false

def fileAt (d : Disk) (p : UnixPath) : Except ErrorKind Nat :=
  match d.lookup p with
  | .error e => .error e
  | .ok x =>
    match d.files.get? x with
    | none => .error .notFound
    | some (.file ino) => .ok ino
    | some .dir => .error .isADirectory
    | some (.symlink _) => .error .filesystemLoop

def read (d : Disk) (p : UnixPath) : Except ErrorKind (List UInt8) := (d.fileAt p).map d.contents

def put (d : Disk) (ino : Nat) (bytes : List UInt8) : Disk :=
  { d with contents := Function.update d.contents ino bytes }

theorem numbered_insert (d : Disk) (x : Loc) : ∀ l ino,
    (d.files.insert x (.file d.nextIno)).get? l = some (.file ino) → ino < d.nextIno + 1 := by
  intro l ino h
  rw [HashMap.get?_insert] at h
  split at h
  · cases h
    exact Nat.lt_succ_self _
  · exact (d.numbered l ino h).trans (Nat.lt_succ_self _)

def create (d : Disk) (x : Loc) : Disk where
  files := d.files.insert x (.file d.nextIno)
  contents := d.contents
  cwd := d.cwd
  nextIno := d.nextIno + 1
  numbered := d.numbered_insert x

def openWrite (d : Disk) (p : UnixPath) : Except ErrorKind (Nat × Disk) :=
  match d.lookup p with
  | .error e => .error e
  | .ok x =>
    match d.files.get? x with
    | none => .ok (d.nextIno, d.create x)
    | some (.file ino) => .ok (ino, d)
    | some .dir => .error .isADirectory
    | some (.symlink _) => .error .filesystemLoop

def write (d : Disk) (p : UnixPath) (bytes : List UInt8) (fault : Option (Fault ε)) :
    Except (ErrorKind ⊕ ε) Unit × Disk :=
  match d.openWrite p with
  | .error e => (.error (.inl e), d)
  | .ok (ino, d) =>
    match fault with
    | none => (.ok (), d.put ino bytes)
    | some fault => (.error (.inr fault.e), d.put ino (bytes.take fault.n))

/-- Where the last name of a path stands; a link there is not followed. -/
def entry (d : Disk) (p : UnixPath) : Option Loc :=
  match (components p).getLast? with
  | some (.normal n) =>
    match walk d.files.tree MAX_LINKS d.cwd (components p).dropLast with
    | .ok dir => if d.files.get? dir = some .dir then some (dir ++ [n]) else none
    | .error _ => none
  | _ => none

theorem numbered_erase (d : Disk) (x : Loc) : ∀ l ino,
    (d.files.erase x).get? l = some (.file ino) → ino < d.nextIno := by
  intro l ino h
  rw [HashMap.get?_erase] at h
  split at h
  · cases h
  · exact d.numbered l ino h

def erase (d : Disk) (x : Loc) : Disk where
  files := d.files.erase x
  contents := d.contents
  cwd := d.cwd
  nextIno := d.nextIno
  numbered := d.numbered_erase x

/-- `remove_file` where the host does not fail. A directory stays. -/
def remove (d : Disk) (p : UnixPath) : Disk :=
  if 0 ∈ p ∨ namesDir p then d
  else
    match d.entry p with
    | none => d
    | some x => if d.files.get? x = some .dir then d else d.erase x

/-- `remove_file`, whatever it says. -/
def discard (d : Disk) (p : UnixPath) : Option ε → Disk
  | some _ => d
  | none => d.remove p

end Disk

-- ---------------------------------------------------------------------------
-- A new name
-- ---------------------------------------------------------------------------

section
variable {t t' : Tree} {x : Loc}

theorem walkWith_new (hsame : ∀ l, l ≠ x → t' l = t l) (hx : t x = none) (hx' : t' x = some (.file ino))
    (hf : ∀ cur cs y, f cur cs = .ok y → g cur cs = .ok y) (h : walkWith t f cur cs = .ok y) :
    walkWith t' g cur cs = .ok y := by
  induction cs generalizing cur with
  | nil => exact h
  | cons c rest ih =>
    have hdir := dir_of_walkWith h
    have hcur : cur ≠ x := by
      rintro rfl
      simp [hx] at hdir
    rw [walkWith_cons hdir] at h
    rw [walkWith_cons ((hsame cur hcur).trans hdir)]
    cases c with
    | rootDir => exact ih h
    | curDir => exact ih h
    | parentDir => exact ih h
    | normal n =>
      by_cases hloc : cur ++ [n] = x
      · simp only [hloc, hx] at h
        simp only [hloc, hx']
        split at h
        · rename_i hrest
          rw [if_pos hrest]
          exact h
        · cases h
      · simp only [hsame _ hloc] at h ⊢
        split at h
        · exact h
        · exact h
        · exact ih h
        · exact hf _ _ _ h

theorem walk_new (hsame : ∀ l, l ≠ x → t' l = t l) (hx : t x = none) (hx' : t' x = some (.file ino))
    (h : walk t k cur cs = .ok y) : walk t' k cur cs = .ok y := by
  induction k generalizing cur cs y with
  | zero =>
    rw [walk_eq] at h ⊢
    exact walkWith_new hsame hx hx' (fun _ _ _ hl => by cases hl) h
  | succ k ih =>
    rw [walk_eq] at h ⊢
    exact walkWith_new hsame hx hx' (fun _ _ _ hl => ih hl) h

end

-- ---------------------------------------------------------------------------
-- What a write changes
-- ---------------------------------------------------------------------------

namespace Disk

variable {d d' : Disk} {p q : UnixPath} {ε : Type u}

theorem lookup_ok (h : d.lookup p = .ok x) : 0 ∉ p ∧ p ≠ [] ∧
    walk d.files.tree MAX_LINKS d.cwd (components p) = .ok x ∧ (namesDir p = true → d.files.get? x = some .dir) := by
  unfold lookup at h
  split at h
  · cases h
  · split at h
    · cases h
    · rename_i hnul hne
      split at h
      · cases h
      · rename_i y hwalk
        split at h
        · cases h
        · rename_i hdir
          cases h
          exact ⟨hnul, hne, hwalk, by simpa using hdir⟩

theorem lookup_create (hx : d.files.get? x = none) (h : d.lookup q = .ok y) : (d.create x).lookup q = .ok y := by
  obtain ⟨hnul, hne, hwalk, hdir⟩ := lookup_ok h
  have hsame (l : Loc) (hl : l ≠ x) : (d.create x).files.get? l = d.files.get? l := by
    simp [create, HashMap.get?_insert, hl]
  have hnew : (d.create x).files.get? x = some (.file d.nextIno) := by simp [create, HashMap.get?_insert]
  have hwalk' : walk (d.create x).files.tree MAX_LINKS d.cwd (components q) = .ok y :=
    walk_new hsame hx hnew hwalk
  have hdir' : namesDir q = true → (d.create x).files.get? y = some .dir := by
    intro hq
    have hy := hdir hq
    rw [hsame y (by rintro rfl; simp [hx] at hy), hy]
  have hcwd : (d.create x).cwd = d.cwd := rfl
  simp only [lookup, hnul, hne, hcwd, hwalk', if_false]
  rw [if_neg]
  rintro ⟨hq, hno⟩
  exact hno (hdir' hq)

theorem fileAt_create (hx : d.files.get? x = none) (h : d.fileAt q = .ok ino) : (d.create x).fileAt q = .ok ino := by
  unfold fileAt at h
  split at h
  · cases h
  · rename_i y hlook
    split at h
    · cases h
    · rename_i i hi
      cases h
      have hne : y ≠ x := by
        rintro rfl
        simp [hx] at hi
      have hfile : (d.create x).files.get? y = some (.file ino) := by
        simpa [create, HashMap.get?_insert, hne] using hi
      simp only [fileAt, lookup_create hx hlook, hfile]
    · cases h
    · cases h

/-- What opening gives is the file that the path leads to from then on, and what other
paths led to they still lead to. -/
theorem openWrite_ok (h : d.openWrite p = .ok (ino, d')) :
    d'.fileAt p = .ok ino ∧ d'.contents = d.contents ∧ ∀ q i, d.fileAt q = .ok i → d'.fileAt q = .ok i := by
  unfold openWrite at h
  split at h
  · cases h
  · rename_i x hlook
    split at h
    · rename_i hx
      cases h
      refine ⟨?_, rfl, fun q i => fileAt_create hx⟩
      have hfile : (d.create x).files.get? x = some (.file d.nextIno) := by simp [create, HashMap.get?_insert]
      simp only [fileAt, lookup_create hx hlook, hfile]
    · rename_i hx
      cases h
      refine ⟨?_, rfl, fun q i hq => hq⟩
      simp only [fileAt, hlook, hx]
    · cases h
    · cases h

theorem fileAt_found (h : d.fileAt p = .ok ino) : d.found p = true := by
  unfold fileAt at h
  split at h
  · cases h
  · rename_i x hlook
    split at h
    · cases h
    · rename_i hx
      simp [found, hlook, HashMap.containsKey, hx]
    · cases h
    · cases h

theorem fileAt_put (d : Disk) (ino : Nat) (bytes : List UInt8) (q : UnixPath) :
    (d.put ino bytes).fileAt q = d.fileAt q := rfl

theorem read_of_fileAt (h : d.fileAt q = .ok ino) : d.read q = .ok (d.contents ino) := by
  rw [read, h]
  rfl

theorem write_ok {fault : Option (Fault ε)} (h : d.write p bytes fault = (.ok (), d')) :
    d'.found p = true ∧ d'.read p = .ok bytes ∧
      ∀ q i, d.fileAt q = .ok i → d'.fileAt p ≠ .ok i → d'.read q = d.read q := by
  unfold write at h
  split at h
  · cases h
  · rename_i ino opened hopen
    obtain ⟨hfile, hcontents, hothers⟩ := openWrite_ok hopen
    split at h
    · cases h
      refine ⟨fileAt_found hfile, ?_, fun q i hq hne => ?_⟩
      · rw [read_of_fileAt (fileAt_put opened ino bytes p ▸ hfile)]
        simp [put]
      · have hi : i ≠ ino := by
          rintro rfl
          exact hne hfile
        rw [read_of_fileAt (fileAt_put opened ino bytes q ▸ hothers q i hq), read_of_fileAt hq]
        simp [put, hi, hcontents]
    · cases h

-- ---------------------------------------------------------------------------
-- What is removed
-- ---------------------------------------------------------------------------

theorem fileAt_ok (h : d.fileAt p = .ok ino) : ∃ x, d.lookup p = .ok x ∧ d.files.get? x = some (.file ino) := by
  unfold fileAt at h
  split at h
  · cases h
  · rename_i x hlook
    split at h
    · cases h
    · rename_i hx
      cases h
      exact ⟨x, hlook, hx⟩
    · cases h
    · cases h

theorem last_of_namesDir (h : namesDir p = false) : ∃ n, (components p).getLast? = some (.normal n) := by
  unfold namesDir at h
  split at h
  · rename_i piece hlast
    have hplain : component? piece = some (.normal piece) := by
      simp only [decide_eq_false_iff_not, not_or] at h
      simp [component?, h]
    obtain ⟨init, hsplit⟩ := List.getLast?_eq_some_iff.mp hlast
    exact ⟨piece, by simp [components, hsplit, hplain]⟩
  · cases h

theorem components_concat (h : (components p).getLast? = some (.normal n)) :
    components p = (components p).dropLast ++ [.normal n] := (List.dropLast_append_getLast? _ h).symm

theorem entry_eq (hlast : (components p).getLast? = some (.normal n))
    (hwalk : walk d.files.tree MAX_LINKS d.cwd (components p).dropLast = .ok dir) (hdir : d.files.get? dir = some .dir) :
    d.entry p = some (dir ++ [n]) := by
  simp only [entry, hlast, hwalk, hdir, if_true]

theorem remove_cases (hnul : 0 ∉ p) (hname : namesDir p = false) :
    (d.remove p = d ∧ ∀ x, d.entry p = some x → d.files.get? x = some .dir) ∨
      ∃ x, d.entry p = some x ∧ d.remove p = d.erase x := by
  have hgo : ¬ (0 ∈ p ∨ namesDir p = true) := by simp [hnul, hname]
  simp only [remove, hgo, if_false]
  cases d.entry p with
  | none => simp
  | some x =>
    by_cases hx : d.files.get? x = some .dir
    · simp [hx]
    · simp [hx]

theorem walk_name {t : Tree} (hdir : t dir = some .dir) (hn : ∀ target, t (dir ++ [n]) ≠ some (.symlink target))
    (h : walk t k dir [.normal n] = .ok y) : y = dir ++ [n] := by
  have hone := walk_concat hdir hn (walk_nil t k dir)
  rw [List.nil_append, h] at hone
  exact Except.ok.inj hone

theorem fileAt_remove (d : Disk) (p : UnixPath) (ino : Nat) : (d.remove p).fileAt p ≠ .ok ino := by
  intro h
  obtain ⟨y, hlook, hy⟩ := fileAt_ok h
  obtain ⟨hnul, -, hwalk, hdir⟩ := lookup_ok hlook
  have hname : namesDir p = false := by
    by_contra hne
    have hd := hdir (Bool.not_eq_false _ ▸ hne)
    simp [hy] at hd
  obtain ⟨n, hlast⟩ := last_of_namesDir hname
  rw [components_concat hlast] at hwalk
  obtain ⟨dir, l, -, hinit, hstep⟩ := walk_append hwalk
  have hd : (d.remove p).files.get? dir = some .dir := by
    rw [walk_eq] at hstep
    exact dir_of_walkWith hstep
  rcases remove_cases hnul hname with ⟨hsame, hentry⟩ | ⟨x, hentry, herase⟩
  · rw [hsame] at hinit hstep hd hy
    have hx := hentry _ (entry_eq hlast hinit hd)
    obtain rfl := walk_name hd (by simp [hx]) hstep
    simp [hx] at hy
  · rw [herase] at hinit hstep hd hy
    have hgone : (d.erase x).files.get? x = none := by simp [erase, HashMap.get?_erase]
    have hkept (z : Loc) (hz : z ≠ x) : (d.erase x).files.get? z = d.files.get? z := by
      simp [erase, HashMap.get?_erase, hz]
    have hne : dir ≠ x := by
      rintro rfl
      simp [hgone] at hd
    have hold : walk d.files.tree MAX_LINKS d.cwd (components p).dropLast = .ok dir := by
      rcases walk_change hkept (.inl hgone) hinit with hold | heq
      · exact hold
      · exact absurd heq hne
    rw [entry_eq hlast hold (hkept dir hne ▸ hd)] at hentry
    cases hentry
    obtain rfl := walk_name hd (by simp [hgone]) hstep
    simp [hgone] at hy

end Disk

end EdgeLibos.Lib.HostTree
