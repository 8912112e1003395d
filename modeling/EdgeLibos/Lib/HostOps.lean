import EdgeLibos.Lib.HashMap
import EdgeLibos.Lib.HostTree

/-!
# Operations of the host file system

The calls that change a tree of files, each with the errors the host answers with.
All but `openFile` leave a symbolic link at the end of a path alone; a hard link
shares the file, and renaming a directory moves what is in it.
-/

namespace EdgeLibos.Lib.HostTree

open UnixPath

abbrev Files := HashMap Loc Node

namespace Files

def tree (m : Files) : Tree := m.get?

def isEmptyDir (m : Files) (x : Loc) : Bool := m.entries.all fun e => !(Under x e.1 && e.1 ≠ x)

def createDir (m : Files) (p : UnixPath) : Except ErrorKind Files := do
  let x ← locate m.tree p
  if m.containsKey x then .error .alreadyExists else .ok (m.insert x .dir)

def removeFile (m : Files) (p : UnixPath) : Except ErrorKind Files := do
  let x ← locate m.tree p
  match m.get? x with
  | none => .error .notFound
  | some .dir => .error .isADirectory
  | some _ => .ok (m.erase x)

def removeDir (m : Files) (p : UnixPath) : Except ErrorKind Files := do
  let x ← locate m.tree p
  match m.get? x with
  | none => .error .notFound
  | some .dir => if m.isEmptyDir x then .ok (m.erase x) else .error .directoryNotEmpty
  | some _ => .error .notADirectory

def below (m : Files) (x : Loc) : List (Loc × Node) := m.entries.filter fun e => Under x e.1

def move (m : Files) (a b : Loc) : Files :=
  let cleared := (m.below a ++ m.below b).foldl (fun m e => m.erase e.1) m
  (m.below a).foldl (fun m e => m.insert (b ++ e.1.drop a.length) e.2) cleared

def rename (m : Files) (old new : UnixPath) : Except ErrorKind Files := do
  let a ← locate m.tree old
  let b ← locate m.tree new
  match m.get? a with
  | none => .error .notFound
  | some node =>
    if a = b then .ok m
    else if Under a b then .error .invalidInput
    else
      match node, m.get? b with
      | .dir, some .dir => if m.isEmptyDir b then .ok (m.move a b) else .error .directoryNotEmpty
      | .dir, some _ => .error .notADirectory
      | _, some .dir => .error .isADirectory
      | .file i, some (.file j) => if i = j then .ok m else .ok (m.move a b)
      | _, _ => .ok (m.move a b)

def hardLink (m : Files) (old new : UnixPath) : Except ErrorKind Files := do
  let a ← locate m.tree old
  match m.get? a with
  | none => .error .notFound
  | some .dir => .error .permissionDenied
  | some node =>
    let b ← locate m.tree new
    if m.containsKey b then .error .alreadyExists else .ok (m.insert b node)

def symlink (m : Files) (target p : UnixPath) : Except ErrorKind Files := do
  if target.isEmpty then .error .notFound
  else
    let x ← locate m.tree p
    if m.containsKey x then .error .alreadyExists else .ok (m.insert x (.symlink target))

/-- `metadata(p).is_ok()`. -/
def found (m : Files) (p : UnixPath) : Bool :=
  match walk m.tree MAX_LINKS [] (components p) with
  | .ok x => m.containsKey x
  | .error _ => false

end Files

structure OpenOptions where
  read : Bool
  write : Bool
  append : Bool
  truncate : Bool
  create : Bool
  createNew : Bool
  deriving DecidableEq, Repr

/-- A file is created or cut only by one who may write to it, and cutting one
that is appended to is refused. -/
def OpenOptions.valid (o : OpenOptions) : Bool :=
  if o.append then !o.truncate || o.createNew
  else o.write || !(o.truncate || o.create || o.createNew)

structure Opened where
  loc : Loc
  isDir : Bool
  deriving DecidableEq, Repr

/-- The file opened, and the tree after it; a file that did not exist gets the
number `ino`. -/
def Files.openFile (m : Files) (o : OpenOptions) (p : UnixPath) (ino : Nat) :
    Except ErrorKind (Opened × Files) :=
  if !o.valid then .error .invalidInput
  else if o.createNew then do
    let x ← locate m.tree p
    if m.containsKey x then .error .alreadyExists
    else .ok ({ loc := x, isDir := false }, m.insert x (.file ino))
  else do
    let x ← walk m.tree MAX_LINKS [] (components p)
    match m.get? x with
    | none =>
      if o.create then .ok ({ loc := x, isDir := false }, m.insert x (.file ino))
      else .error .notFound
    | some (.file _) => .ok ({ loc := x, isDir := false }, m)
    | some .dir =>
      if o.write || o.append || o.create then .error .isADirectory
      else .ok ({ loc := x, isDir := true }, m)
    | some (.symlink _) => .error .filesystemLoop

-- ---------------------------------------------------------------------------
-- Where an operation changes the tree
-- ---------------------------------------------------------------------------

/-- Only entries under `base` differ. -/
def ChangesUnder (base : Loc) (m m' : Files) : Prop := ∀ l, ¬ Under base l → m'.get? l = m.get? l

theorem ChangesUnder.refl (base : Loc) (m : Files) : ChangesUnder base m m := fun _ _ => rfl

theorem changesUnder_insert (h : Under base x) : ChangesUnder base m (m.insert x node) := by
  intro l hl
  have hne : l ≠ x := fun he => hl (he ▸ h)
  rw [HashMap.get?_insert, if_neg hne]

theorem changesUnder_erase (h : Under base x) : ChangesUnder base m (m.erase x) := by
  intro l hl
  have hne : l ≠ x := fun he => hl (he ▸ h)
  rw [HashMap.get?_erase, if_neg hne]

theorem get?_foldl_erase {m : Files} {es : List (Loc × Node)} (h : ∀ e ∈ es, e.1 ≠ l) :
    (es.foldl (fun m e => m.erase e.1) m).get? l = m.get? l := by
  induction es generalizing m with
  | nil => rfl
  | cons e rest ih =>
    rw [List.foldl_cons, ih fun e he => h e (List.mem_cons_of_mem _ he), HashMap.get?_erase,
      if_neg (h e List.mem_cons_self).symm]

theorem get?_foldl_insert {m : Files} {es : List (Loc × Node)} (key : Loc × Node → Loc)
    (h : ∀ e ∈ es, key e ≠ l) :
    (es.foldl (fun m e => m.insert (key e) e.2) m).get? l = m.get? l := by
  induction es generalizing m with
  | nil => rfl
  | cons e rest ih =>
    rw [List.foldl_cons, ih fun e he => h e (List.mem_cons_of_mem _ he), HashMap.get?_insert,
      if_neg (h e List.mem_cons_self).symm]

theorem Files.mem_below {m : Files} (h : e ∈ m.below x) : Under x e.1 :=
  of_decide_eq_true (List.mem_filter.mp h).2

theorem changesUnder_move (ha : Under base a) (hb : Under base b) :
    ChangesUnder base m (m.move a b) := by
  intro l hl
  unfold Files.move
  rw [get?_foldl_insert fun e => b ++ e.1.drop a.length, get?_foldl_erase]
  · intro e he hel
    rw [← hel] at hl
    rcases List.mem_append.mp he with he | he
    · exact hl (ha.trans (Files.mem_below he))
    · exact hl (hb.trans (Files.mem_below he))
  · intro e _ hel
    rw [← hel] at hl
    exact hl (hb.append _)

-- ---------------------------------------------------------------------------
-- Looking at every link
-- ---------------------------------------------------------------------------

/-- An entry under `base` that is a link leads, if anywhere, under `base`. -/
def Files.entryInside (m : Files) (base : Loc) (e : Loc × Node) : Bool :=
  match e.2 with
  | .symlink target =>
    !decide (Under base e.1) ||
      match walk m.tree MAX_LINKS e.1.dropLast (components target) with
      | .ok x => decide (Under base x)
      | .error _ => true
  | _ => true

theorem Files.entryInside_iff {m : Files} :
    m.entryInside base (l, node) = true ↔ ∀ target x, node = .symlink target → Under base l →
      walk m.tree MAX_LINKS l.dropLast (components target) = .ok x → Under base x := by
  cases node with
  | file ino => simp [entryInside]
  | dir => simp [entryInside]
  | symlink target =>
    simp only [entryInside, Node.symlink.injEq]
    cases hw : walk m.tree MAX_LINKS l.dropLast (components target) with
    | error e =>
      rw [Bool.or_true]
      refine iff_of_true rfl ?_
      rintro _ x rfl _ hx
      rw [hw] at hx
      cases hx
    | ok y =>
      rw [Bool.or_eq_true, Bool.not_eq_true', decide_eq_false_iff_not, decide_eq_true_eq]
      refine ⟨?_, fun h => or_iff_not_imp_left.mpr fun hl => h target y rfl (not_not.mp hl) hw⟩
      rintro h _ x rfl hl hx
      rw [hw] at hx
      cases hx
      exact h.resolve_left (not_not.mpr hl)

theorem Files.linksInside_iff {m : Files} :
    LinksInside m.tree base ↔ ∀ e ∈ m.entries, m.entryInside base e = true := by
  constructor
  · rintro h ⟨l, node⟩ he
    refine entryInside_iff.mpr ?_
    rintro target x rfl hl hx
    exact h l x hl ⟨target, HashMap.get?_eq_some_iff.mpr he, hx⟩
  · rintro h l x hl ⟨target, hlink, hx⟩
    exact entryInside_iff.mp (h _ (HashMap.get?_eq_some_iff.mp hlink)) target x rfl hl hx

instance Files.decidableLinksInside (m : Files) (base : Loc) : Decidable (LinksInside m.tree base) :=
  decidable_of_iff _ linksInside_iff.symm

end EdgeLibos.Lib.HostTree
