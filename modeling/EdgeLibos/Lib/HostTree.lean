import EdgeLibos.Lib.UnixPath
import Mathlib.Logic.Function.Basic

/-!
# A host file system with symbolic links

A tree of files, directories and symbolic links, as a map from locations: the names
on the way from the host's root directory. A path is walked one component after the
other from a directory, and a symbolic link met on the way is replaced by the
components of its target, at most forty times. `..` goes to the parent of the
directory that was really reached.

`LinksInside t base` says that no symbolic link under `base` leads out of it. The
walk of plain names then stays under `base`.
-/

namespace EdgeLibos.Lib

open UnixPath

namespace HostTree

abbrev Loc := List Name

inductive Node
  | file (ino : Nat)
  | dir
  | symlink (target : UnixPath)
  deriving DecidableEq, Repr

abbrev Tree := Loc → Option Node

inductive ErrorKind
  | notFound
  | alreadyExists
  | invalidInput
  | notADirectory
  | isADirectory
  | directoryNotEmpty
  | permissionDenied
  | filesystemLoop
  deriving DecidableEq, Repr

def MAX_LINKS : Nat := 40

/-- A walk in which a symbolic link is handed to `onLink`. The last component need
not exist. -/
def walkWith (t : Tree) (onLink : Loc → List Component → Except ErrorKind Loc) :
    Loc → List Component → Except ErrorKind Loc
  | cur, [] => .ok cur
  | cur, c :: rest =>
    if t cur ≠ some .dir then .error .notADirectory
    else
      match c with
      | .rootDir => walkWith t onLink [] rest
      | .curDir => walkWith t onLink cur rest
      | .parentDir => walkWith t onLink cur.dropLast rest
      | .normal n =>
        match t (cur ++ [n]) with
        | none => if rest = [] then .ok (cur ++ [n]) else .error .notFound
        | some (.file _) => if rest = [] then .ok (cur ++ [n]) else .error .notADirectory
        | some .dir => walkWith t onLink (cur ++ [n]) rest
        | some (.symlink target) => onLink cur (components target ++ rest)

def walk (t : Tree) : Nat → Loc → List Component → Except ErrorKind Loc
  | 0 => walkWith t fun _ _ => .error .filesystemLoop
  | links + 1 => walkWith t (walk t links)

/-- What a walk hands a symbolic link to. -/
def onLink (t : Tree) : Nat → Loc → List Component → Except ErrorKind Loc
  | 0 => fun _ _ => .error .filesystemLoop
  | links + 1 => walk t links

theorem walk_eq (t : Tree) (links : Nat) : walk t links = walkWith t (onLink t links) := by
  cases links with
  | zero => rfl
  | succ links => rfl

-- ---------------------------------------------------------------------------
-- Walks in two parts
-- ---------------------------------------------------------------------------

variable {t : Tree}

theorem dir_of_walkWith (h : walkWith t f cur (c :: rest) = .ok x) : t cur = some .dir := by
  by_contra hdir
  cases c <;> simp only [walkWith, if_pos hdir] at h <;> cases h

theorem walkWith_cons (hdir : t cur = some .dir) :
    walkWith t f cur (c :: rest) =
      match c with
      | .rootDir => walkWith t f [] rest
      | .curDir => walkWith t f cur rest
      | .parentDir => walkWith t f cur.dropLast rest
      | .normal n =>
        match t (cur ++ [n]) with
        | none => if rest = [] then .ok (cur ++ [n]) else .error .notFound
        | some (.file _) => if rest = [] then .ok (cur ++ [n]) else .error .notADirectory
        | some .dir => walkWith t f (cur ++ [n]) rest
        | some (.symlink target) => f cur (components target ++ rest) := by
  cases c <;> simp only [walkWith, if_neg (not_not.mpr hdir)]

theorem walkWith_mono (h : walkWith t f cur cs = .ok x)
    (hf : ∀ cur cs x, f cur cs = .ok x → g cur cs = .ok x) : walkWith t g cur cs = .ok x := by
  induction cs generalizing cur with
  | nil => exact h
  | cons c rest ih =>
    have hdir := dir_of_walkWith h
    rw [walkWith_cons hdir] at h ⊢
    cases c with
    | rootDir => exact ih h
    | curDir => exact ih h
    | parentDir => exact ih h
    | normal n =>
      simp only at h ⊢
      split at h
      · exact h
      · exact h
      · exact ih h
      · exact hf _ _ _ h

theorem walk_mono (hle : k ≤ l) (h : walk t k cur cs = .ok x) : walk t l cur cs = .ok x := by
  induction l generalizing k cur cs x with
  | zero =>
    obtain rfl := Nat.le_zero.mp hle
    exact h
  | succ l ih =>
    rw [walk_eq] at h ⊢
    refine walkWith_mono h ?_
    cases k with
    | zero =>
      intro cur cs x hx
      cases hx
    | succ k => exact fun cur cs x hx => ih (Nat.le_of_succ_le_succ hle) hx

theorem walk_nil (t : Tree) (k : Nat) (cur : Loc) : walk t k cur [] = .ok cur := by
  rw [walk_eq, walkWith]

theorem walkWith_append
    (hf : ∀ cur cs, f cur (cs ++ ds) = .ok x →
      ∃ y l, l ≤ k ∧ f cur cs = .ok y ∧ walk t l y ds = .ok x)
    (hk : walk t k = walkWith t f) (h : walkWith t f cur (cs ++ ds) = .ok x) :
    ∃ y l, l ≤ k ∧ walkWith t f cur cs = .ok y ∧ walk t l y ds = .ok x := by
  induction cs generalizing cur with
  | nil => exact ⟨cur, k, le_refl k, rfl, hk ▸ h⟩
  | cons c rest ih =>
    rw [List.cons_append] at h
    have hdir := dir_of_walkWith h
    rw [walkWith_cons hdir] at h ⊢
    cases c with
    | rootDir => exact ih h
    | curDir => exact ih h
    | parentDir => exact ih h
    | normal n =>
      -- A missing or plain file ends the walk, so nothing is left to walk after it.
      have hlast {e : ErrorKind}
          (hend : (if rest ++ ds = [] then Except.ok (cur ++ [n]) else .error e) = .ok x) :
          rest = [] ∧ walk t k (cur ++ [n]) ds = .ok x := by
        split at hend
        · rename_i hnil
          obtain ⟨hrest, rfl⟩ := List.append_eq_nil_iff.mp hnil
          cases hend
          exact ⟨hrest, walk_nil ..⟩
        · cases hend
      simp only at h ⊢
      split at h
      · obtain ⟨rfl, hw⟩ := hlast h
        exact ⟨_, k, le_refl k, if_pos rfl, hw⟩
      · obtain ⟨rfl, hw⟩ := hlast h
        exact ⟨_, k, le_refl k, if_pos rfl, hw⟩
      · exact ih h
      · rw [← List.append_assoc] at h
        exact hf _ _ h

/-- A walk of two lists of components walks the first and goes on from where that
leads, with at most as many links left. -/
theorem walk_append (h : walk t k cur (cs ++ ds) = .ok x) :
    ∃ y l, l ≤ k ∧ walk t k cur cs = .ok y ∧ walk t l y ds = .ok x := by
  induction k generalizing cur cs with
  | zero =>
    rw [walk_eq] at h ⊢
    refine walkWith_append (fun cur cs hx => ?_) (walk_eq t 0) h
    cases hx
  | succ k ih =>
    rw [walk_eq] at h ⊢
    refine walkWith_append (fun cur cs hx => ?_) (walk_eq t (k + 1)) h
    obtain ⟨y, l, hl, hy, hx⟩ := ih hx
    exact ⟨y, l, hl.trans (Nat.le_succ k), hy, hx⟩

theorem walkWith_concat (hdir : t dir = some .dir) (hn : ∀ target, t (dir ++ [n]) ≠ some (.symlink target))
    (hf : ∀ cur cs, f cur cs = .ok dir → f cur (cs ++ [.normal n]) = .ok (dir ++ [n]))
    (h : walkWith t f cur cs = .ok dir) : walkWith t f cur (cs ++ [.normal n]) = .ok (dir ++ [n]) := by
  induction cs generalizing cur with
  | nil =>
    cases h
    rw [List.nil_append, walkWith_cons hdir]
    simp only [if_true]
    cases hnode : t (dir ++ [n]) with
    | none => rfl
    | some node =>
      cases node with
      | file ino => rfl
      | dir => rfl
      | symlink target => exact absurd hnode (hn target)
  | cons c rest ih =>
    have hcur := dir_of_walkWith h
    rw [List.cons_append, walkWith_cons hcur]
    rw [walkWith_cons hcur] at h
    cases c with
    | rootDir => exact ih h
    | curDir => exact ih h
    | parentDir => exact ih h
    | normal k =>
      simp only at h ⊢
      cases hnode : t (cur ++ [k]) with
      | none =>
        simp only [hnode] at h
        split at h
        · cases h
          cases hdir.symm.trans hnode
        · cases h
      | some node =>
        simp only [hnode] at h ⊢
        cases node with
        | file ino =>
          simp only at h
          split at h
          · cases h
            cases hdir.symm.trans hnode
          · cases h
        | dir => exact ih h
        | symlink target =>
          simp only at h ⊢
          rw [← List.append_assoc]
          exact hf _ _ h

/-- A walk to a directory goes on to what is in it, when that is no link. -/
theorem walk_concat (hdir : t dir = some .dir) (hn : ∀ target, t (dir ++ [n]) ≠ some (.symlink target))
    (h : walk t k cur cs = .ok dir) : walk t k cur (cs ++ [.normal n]) = .ok (dir ++ [n]) := by
  induction k generalizing cur cs with
  | zero =>
    rw [walk_eq] at h ⊢
    refine walkWith_concat hdir hn (fun _ _ hl => ?_) h
    cases hl
  | succ k ih =>
    rw [walk_eq] at h ⊢
    exact walkWith_concat hdir hn (fun _ _ hl => ih hl) h

-- ---------------------------------------------------------------------------
-- Links that lead out of a directory
-- ---------------------------------------------------------------------------

def Under (base x : Loc) : Prop := base <+: x

instance : DecidableRel Under := fun base x => inferInstanceAs (Decidable (base <+: x))

theorem Under.append (h : Under base x) (y : Loc) : Under base (x ++ y) := h.trans (List.prefix_append ..)

def Leads (t : Tree) (l x : Loc) : Prop :=
  ∃ target, t l = some (.symlink target) ∧ walk t MAX_LINKS l.dropLast (components target) = .ok x

def LinksInside (t : Tree) (base : Loc) : Prop :=
  ∀ l x, Under base l → Leads t l x → Under base x

theorem LinksInside.walk_name (hs : LinksInside t base) (hk : k ≤ MAX_LINKS)
    (hn : Under base (cur ++ [n])) (h : walk t k cur [.normal n] = .ok x) : Under base x := by
  rw [walk_eq] at h
  have hdir := dir_of_walkWith h
  rw [walkWith_cons hdir] at h
  simp only [if_true, List.append_nil, walkWith] at h
  split at h
  · cases h
    exact hn
  · cases h
    exact hn
  · cases h
    exact hn
  · rename_i target hlink
    cases k with
    | zero => cases h
    | succ k =>
      refine hs _ _ hn ⟨target, hlink, ?_⟩
      rw [List.dropLast_concat]
      exact walk_mono (by omega) h

/-- The walk of plain names from a directory, the first of which is under `base`. -/
theorem LinksInside.walk_names (hs : LinksInside t base) (hk : k ≤ MAX_LINKS)
    (hn : Under base (cur ++ [n]))
    (h : walk t k cur ((n :: names).map .normal) = .ok x) : Under base x := by
  induction k using Nat.strong_induction_on generalizing cur n names with
  | _ k ihk =>
    induction names generalizing cur n with
    | nil => exact hs.walk_name hk hn h
    | cons m names ih =>
      rw [walk_eq] at h
      have hdir := dir_of_walkWith h
      rw [List.map_cons, walkWith_cons hdir] at h
      simp only [List.map_cons, reduceCtorEq, if_false] at h
      split at h
      · cases h
      · cases h
      · exact ih (hn.append [m]) (by rwa [walk_eq])
      · rename_i target hlink
        cases k with
        | zero => cases h
        | succ k =>
          -- The link leads to some `y`, and the other names are walked from there.
          obtain ⟨y, l, hl, hy, hx⟩ := walk_append h
          have hlead : Leads t (cur ++ [n]) y :=
            ⟨target, hlink, by rw [List.dropLast_concat]; exact walk_mono (by omega) hy⟩
          exact ihk l (by omega) (by omega) ((hs _ _ hn hlead).append [m]) hx

-- ---------------------------------------------------------------------------
-- Walks from the host's root directory
-- ---------------------------------------------------------------------------

/-- Nothing on the way to `base` is a link. -/
def AncestorsReal (t : Tree) (base : Loc) : Prop := ∀ p, p <+: base → p ≠ base → t p = some .dir

theorem walk_down (hd : ∀ r, r <+: q → t (p ++ r) = some .dir) :
    walk t k p ((q ++ names).map .normal) = walk t k (p ++ q) (names.map .normal) := by
  induction q generalizing p with
  | nil => rw [List.append_nil, List.nil_append]
  | cons n q ih =>
    have hp : t p = some .dir := by simpa using hd [] List.nil_prefix
    have hn : t (p ++ [n]) = some .dir := hd [n] (by simp)
    rw [walk_eq, List.cons_append, List.map_cons, walkWith_cons hp]
    simp only [hn]
    rw [← walk_eq, ih fun r hr => ?_, List.append_assoc, List.singleton_append]
    rw [List.append_assoc]
    exact hd (n :: r) (List.cons_prefix_cons.mpr ⟨rfl, hr⟩)

theorem AncestorsReal.walk_down (ha : AncestorsReal t (a ++ [r])) :
    walk t k [] ((a ++ names).map .normal) = walk t k a (names.map .normal) := by
  refine HostTree.walk_down fun q hq => ha q (hq.trans (List.prefix_append ..)) ?_
  rintro rfl
  exact absurd hq.length_le (by simp)

theorem LinksInside.walk_root (hs : LinksInside t base) (ha : AncestorsReal t base)
    (hpre : base <+: names) (h : walk t MAX_LINKS [] (.rootDir :: names.map .normal) = .ok x) :
    Under base x := by
  rw [walk_eq] at h
  rw [walkWith_cons (dir_of_walkWith h)] at h
  simp only [← walk_eq] at h
  obtain rfl | ⟨a, r, rfl⟩ := List.eq_nil_or_concat' base
  · exact List.nil_prefix
  · obtain ⟨rest, rfl⟩ := hpre
    rw [List.append_assoc, ha.walk_down] at h
    exact hs.walk_names (le_refl _) (List.prefix_refl _) h

def locate (t : Tree) (p : UnixPath) : Except ErrorKind Loc :=
  match (components p).getLast? with
  | some (.normal n) => do
    let dir ← walk t MAX_LINKS [] (components p).dropLast
    if t dir = some .dir then .ok (dir ++ [n]) else .error .notADirectory
  | _ => .error .invalidInput

theorem locate_ok (h : locate t p = .ok x) :
    ∃ dir n, x = dir ++ [n] ∧ t dir = some .dir ∧
      ((∀ target, t x ≠ some (.symlink target)) → walk t MAX_LINKS [] (components p) = .ok x) := by
  unfold locate at h
  cases hlast : (components p).getLast? with
  | none =>
    rw [hlast] at h
    cases h
  | some c =>
    rw [hlast] at h
    cases c with
    | normal n =>
      simp only at h
      cases hw : walk t MAX_LINKS [] (components p).dropLast with
      | error e =>
        rw [hw] at h
        cases h
      | ok dir =>
        rw [hw] at h
        simp only [bind, Except.bind] at h
        split at h
        · rename_i hdir
          cases h
          refine ⟨dir, n, rfl, hdir, fun hn => ?_⟩
          have hcs : components p = (components p).dropLast ++ [.normal n] :=
            (List.dropLast_append_getLast? _ hlast).symm
          rw [hcs]
          exact walk_concat hdir hn hw
        · cases h
    | rootDir => cases h
    | curDir => cases h
    | parentDir => cases h

theorem LinksInside.locate (hs : LinksInside t base) (ha : AncestorsReal t base)
    (hp : components p = .rootDir :: names.map .normal) (hpre : base <+: names)
    (h : locate t p = .ok x) : Under base x := by
  unfold HostTree.locate at h
  rw [hp] at h
  obtain rfl | ⟨ms, n, rfl⟩ := List.eq_nil_or_concat' names
  · cases h
  · rw [List.map_append, List.map_cons, List.map_nil, ← List.cons_append, List.getLast?_concat,
      List.dropLast_concat] at h
    simp only at h
    cases hw : walk t MAX_LINKS [] (.rootDir :: ms.map .normal) with
    | error e =>
      rw [hw] at h
      cases h
    | ok dir =>
      rw [hw] at h
      simp only [bind, Except.bind] at h
      split at h
      · cases h
        rcases List.prefix_concat_iff.mp hpre with rfl | hpre
        · -- The path is that of `base` itself, and its parent is walked without links.
          rw [walk_eq] at hw
          rw [walkWith_cons (dir_of_walkWith hw)] at hw
          simp only [← walk_eq] at hw
          have hms : walk t MAX_LINKS [] ((ms ++ []).map .normal) = walk t MAX_LINKS ms [] :=
            ha.walk_down
          rw [List.append_nil, walk_nil] at hms
          rw [hms] at hw
          cases hw
          exact List.prefix_refl _
        · exact (hs.walk_root ha hpre hw).append [n]
      · cases h

-- ---------------------------------------------------------------------------
-- Changes of one entry
-- ---------------------------------------------------------------------------

variable {t' : Tree}

theorem walkWith_change (hsame : ∀ l, l ≠ x → t' l = t l)
    (hx : t' x = none ∨ ∃ ino, t' x = some (.file ino))
    (hf : ∀ cur cs y, f cur cs = .ok y → g cur cs = .ok y ∨ y = x)
    (h : walkWith t' f cur cs = .ok y) : walkWith t g cur cs = .ok y ∨ y = x := by
  induction cs generalizing cur with
  | nil => exact .inl h
  | cons c rest ih =>
    have hdir := dir_of_walkWith h
    have hcur : cur ≠ x := by
      rintro rfl
      rcases hx with hx | ⟨ino, hx⟩
      · rw [hx] at hdir
        cases hdir
      · rw [hx] at hdir
        cases hdir
    rw [walkWith_cons hdir] at h
    rw [walkWith_cons (hsame cur hcur ▸ hdir)]
    cases c with
    | rootDir => exact ih h
    | curDir => exact ih h
    | parentDir => exact ih h
    | normal n =>
      simp only at h ⊢
      by_cases hloc : cur ++ [n] = x
      · right
        rw [hloc] at h
        rcases hx with hx | ⟨ino, hx⟩
        · simp only [hx] at h
          split at h
          · cases h
            rfl
          · cases h
        · simp only [hx] at h
          split at h
          · cases h
            rfl
          · cases h
      · rw [hsame _ hloc] at h
        split at h
        · exact .inl h
        · exact .inl h
        · exact ih h
        · exact hf _ _ _ h

theorem walk_change (hsame : ∀ l, l ≠ x → t' l = t l)
    (hx : t' x = none ∨ ∃ ino, t' x = some (.file ino)) (h : walk t' k cur cs = .ok y) :
    walk t k cur cs = .ok y ∨ y = x := by
  induction k generalizing cur cs y with
  | zero =>
    rw [walk_eq] at h ⊢
    refine walkWith_change hsame hx (fun _ _ _ hl => ?_) h
    cases hl
  | succ k ih =>
    rw [walk_eq] at h ⊢
    exact walkWith_change hsame hx (fun _ _ _ hl => ih hl) h

/-- A new file, or the loss of an entry, opens no way out for a link. -/
theorem LinksInside.change (hs : LinksInside t base) (hsame : ∀ l, l ≠ x → t' l = t l)
    (hx : t' x = none ∨ ∃ ino, t' x = some (.file ino)) (hu : Under base x) :
    LinksInside t' base := by
  rintro l y hl ⟨target, hlink, hw⟩
  have hne : l ≠ x := by
    rintro rfl
    rcases hx with hx | ⟨ino, hx⟩
    · rw [hx] at hlink
      cases hlink
    · rw [hx] at hlink
      cases hlink
  rcases walk_change hsame hx hw with hw | rfl
  · exact hs l y hl ⟨target, hsame l hne ▸ hlink, hw⟩
  · exact hu

/-- Entries under `base` may change: no ancestor of it is one of them. -/
theorem AncestorsReal.change (ha : AncestorsReal t base)
    (hsame : ∀ l, ¬ Under base l → t' l = t l) : AncestorsReal t' base := by
  intro p hp hne
  rw [hsame p fun hu => hne (hp.eq_of_length_le hu.length_le)]
  exact ha p hp hne

end HostTree

end EdgeLibos.Lib
