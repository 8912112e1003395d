import EdgeLibos.Lib.HostRename
import EdgeLibos.Sys.PathCalls

/-!
# Renaming files

`rename`, `renameat` and `renameat2` end in one plain rename on the host. The check for
`RENAME_NOREPLACE` asks `metadata`, which follows a link at the new path, and for
`RENAME_EXCHANGE` nothing is done at all: what was at the new path is gone.
-/

namespace EdgeLibos.Paths

open Errno Lib UnixPath HostTree

structure FileSystem where
  files : Files
  closed : files.Closed

def renameat2 (olddirfd : Int) (old : UnixPath) (newdirfd : Int) (new : UnixPath)
    (flags : BitVec 32) : PathCall :=
  .renameat olddirfd old newdirfd new flags

def rename (old new : UnixPath) : PathCall := .renameat AT_FDCWD old AT_FDCWD new 0

-- ---------------------------------------------------------------------------
-- What is promised
-- ---------------------------------------------------------------------------

/-- What a successful call has kept, from `a` to `b`. -/
structure Promise (flags : BitVec 32) (a b : Loc) (m m' : Files) : Prop where
  noreplace : flags &&& RENAME_NOREPLACE ≠ 0 → m.get? b = none
  exchange : flags &&& RENAME_EXCHANGE ≠ 0 → Files.Swapped m a b m'
  plain : flags = 0 → (m.SameEntry a b ∧ m' = m) ∨ Files.Replaces m a b m'

/-- A call with the resolved paths `p` and `q` keeps what it promised: its success says
what became of the two entries, and its failure that nothing changed. -/
structure LosesNothing (flags : BitVec 32) (p q : UnixPath) (m : Files) (r : Result) : Prop where
  success : r.code = 0 →
    ∃ a b, locate m.tree p = .ok a ∧ locate m.tree q = .ok b ∧ Promise flags a b m r.files
  failure : r.code ≠ 0 → r.files = m

/-- The call comes to the host's rename, and the host does it. -/
structure Renames (flags : BitVec 32) (p q : UnixPath) (m : Files) (a b : Loc) : Prop where
  known : flags &&& ~~~(RENAME_NOREPLACE ||| RENAME_EXCHANGE ||| RENAME_WHITEOUT) = 0
  whiteout : flags &&& RENAME_WHITEOUT = 0
  old : locate m.tree p = .ok a
  new : locate m.tree q = .ok b
  unseen : flags &&& RENAME_NOREPLACE ≠ 0 → m.found q = false
  allowed : m.Allows a b

/-- Where the host renames, no link is taken for nothing and there was nothing to exchange. -/
def Harmless (flags : BitVec 32) (p q : UnixPath) (m : Files) : Prop :=
  ∀ a b, Renames flags p q m a b →
    (flags &&& RENAME_NOREPLACE ≠ 0 → ∀ target, m.get? b ≠ some (.symlink target)) ∧
      (flags &&& RENAME_EXCHANGE ≠ 0 → m.SameEntry a b)

-- ---------------------------------------------------------------------------
-- What the call does
-- ---------------------------------------------------------------------------

variable {m : Files} {flags : BitVec 32} {p q : UnixPath} {a b : Loc}

theorem ioToErrno_ne_zero (e : ErrorKind) : -ioToErrno e ≠ 0 := by
  cases e <;> decide

theorem refused_losesNothing (h : code ≠ 0) : LosesNothing flags p q m (.refused m code) :=
  ⟨fun h₀ => absurd h₀ h, fun _ => rfl⟩

theorem hostRename_of_renames (h : Renames flags p q m a b) :
    hostRename m flags p q = .ofHost m (m.renameAt a b) := by
  have hseen : ¬ (decide (flags &&& RENAME_NOREPLACE ≠ 0) && m.found q) = true := by
    rw [Bool.and_eq_true, decide_eq_true_eq]
    rintro ⟨hno, hfound⟩
    cases (h.unseen hno).symm.trans hfound
  rw [hostRename, if_neg (not_not.mpr h.known), if_neg (not_not.mpr h.whiteout), if_neg hseen,
    Files.rename_located h.old h.new]

theorem hostRename_refused (h : ¬ ∃ a b, Renames flags p q m a b) :
    ∃ code, code ≠ 0 ∧ hostRename m flags p q = .refused m code := by
  unfold hostRename
  split
  · exact ⟨_, by decide, rfl⟩
  · rename_i hknown
    split
    · exact ⟨_, by decide, rfl⟩
    · rename_i hwhiteout
      split
      · exact ⟨_, by decide, rfl⟩
      · rename_i hseen
        cases hr : m.rename p q with
        | error e => exact ⟨_, ioToErrno_ne_zero e, rfl⟩
        | ok m' =>
          obtain ⟨a, b, ha, hb⟩ := Files.rename_ok hr
          refine absurd ⟨a, b, not_not.mp hknown, not_not.mp hwhiteout, ha, hb, fun hno => ?_, ?_⟩ h
          · rw [decide_eq_true hno, Bool.true_and] at hseen
            exact Bool.eq_false_of_not_eq_true hseen
          · by_contra hallowed
            obtain ⟨e, he⟩ := Files.renameAt_of_not_allows hallowed
            rw [Files.rename_located ha hb, he] at hr
            cases hr

theorem losesNothing_of_promise (ha : locate m.tree p = .ok a) (hb : locate m.tree q = .ok b) :
    LosesNothing flags p q m (.ofHost m (.ok m')) ↔ Promise flags a b m m' := by
  constructor
  · intro h
    obtain ⟨a', b', ha', hb', hpromise⟩ := h.success rfl
    cases ha.symm.trans ha'
    cases hb.symm.trans hb'
    exact hpromise
  · exact fun h => ⟨fun _ => ⟨a, b, ha, hb, h⟩, fun hne => absurd rfl hne⟩

/-- With `RENAME_NOREPLACE` the check came out as it should exactly when no link was followed. -/
theorem Renames.noreplace_iff (h : Renames flags p q m a b) (hno : flags &&& RENAME_NOREPLACE ≠ 0) :
    m.get? b = none ↔ ∀ target, m.get? b ≠ some (.symlink target) := by
  constructor
  · intro hnone target
    rw [hnone]
    exact Option.some_ne_none _ ∘ Eq.symm
  · intro hlink
    have hseen := h.unseen hno
    rw [Files.found_of_locate h.new hlink] at hseen
    exact Option.not_isSome_iff_eq_none.mp (Bool.eq_false_iff.mp hseen)

theorem Renames.promise_iff (h : Renames flags p q m a b) (hm : m.Closed) :
    LosesNothing flags p q m (hostRename m flags p q) ↔
      (flags &&& RENAME_NOREPLACE ≠ 0 → ∀ target, m.get? b ≠ some (.symlink target)) ∧
        (flags &&& RENAME_EXCHANGE ≠ 0 → m.SameEntry a b) := by
  rw [hostRename_of_renames h]
  obtain ⟨node, hget, hallowed⟩ := id h.allowed
  have hsome : (m.get? a).isSome := by rw [hget]; rfl
  by_cases hsame : m.SameEntry a b
  · rw [Files.renameAt_of_same h.allowed hsame, losesNothing_of_promise h.old h.new]
    constructor
    · exact fun hp => ⟨fun hno => (h.noreplace_iff hno).mp (hp.noreplace hno), fun _ => hsame⟩
    · rintro ⟨hlink, -⟩
      exact ⟨fun hno => (h.noreplace_iff hno).mpr (hlink hno), fun _ => hsame.swapped hm hsome,
        fun _ => .inl ⟨hsame, rfl⟩⟩
  · have hne : a ≠ b := fun he => hsame (.inl he)
    obtain ⟨hunder, hr⟩ := hallowed.resolve_left hne
    have hmoved := Files.replaces_move hm hget hne hunder hr
    rw [Files.renameAt_of_allows h.allowed hsame, losesNothing_of_promise h.old h.new]
    constructor
    · exact fun hp => ⟨fun hno => (h.noreplace_iff hno).mp (hp.noreplace hno),
        fun hex => absurd (hp.exchange hex) hmoved.not_swapped⟩
    · rintro ⟨hlink, hex⟩
      exact ⟨fun hno => (h.noreplace_iff hno).mpr (hlink hno), fun he => absurd (hex he) hsame,
        fun _ => .inr hmoved⟩

theorem Renames.unique (h : Renames flags p q m a b) (h' : Renames flags p q m c d) : a = c ∧ b = d := by
  cases h.old.symm.trans h'.old
  cases h.new.symm.trans h'.new
  exact ⟨rfl, rfl⟩

theorem hostRename_keeps_iff (hm : m.Closed) :
    LosesNothing flags p q m (hostRename m flags p q) ↔ Harmless flags p q m := by
  by_cases h : ∃ a b, Renames flags p q m a b
  · obtain ⟨a, b, h⟩ := h
    rw [h.promise_iff hm]
    constructor
    · intro hp c d h'
      obtain ⟨rfl, rfl⟩ := h.unique h'
      exact hp
    · exact fun hh => hh a b h
  · obtain ⟨code, hcode, hrefused⟩ := hostRename_refused h
    rw [hrefused]
    exact iff_of_true (refused_losesNothing hcode) fun a b hab => absurd ⟨a, b, hab⟩ h

theorem hostRename_closed (hm : m.Closed) : (hostRename m flags p q).files.Closed := by
  by_cases h : ∃ a b, Renames flags p q m a b
  · obtain ⟨a, b, h⟩ := h
    rw [hostRename_of_renames h]
    by_cases hsame : m.SameEntry a b
    · rw [Files.renameAt_of_same h.allowed hsame]
      exact hm
    · obtain ⟨node, hget, hallowed⟩ := id h.allowed
      have hne : a ≠ b := fun he => hsame (.inl he)
      obtain ⟨hunder, hr⟩ := hallowed.resolve_left hne
      obtain ⟨dir, n, rfl, hdir, -⟩ := locate_ok h.new
      rw [Files.renameAt_of_allows h.allowed hsame]
      exact (Files.replaces_move hm hget hne hunder hr).closed hm hdir hunder
  · obtain ⟨code, -, hrefused⟩ := hostRename_refused h
    rw [hrefused]
    exact hm

/-- `renameat2` loses nothing exactly when it is harmless. -/
theorem renameat2_keeps_iff (fs : FileSystem)
    (h : resolveBoth lossy v dirs olddirfd old newdirfd new = .ok (p, q)) :
    LosesNothing flags p q fs.files
        ((renameat2 olddirfd old newdirfd new flags).run lossy v dirs fs.files) ↔
      Harmless flags p q fs.files := by
  simp only [renameat2, PathCall.run, h]
  exact hostRename_keeps_iff fs.closed

theorem rename_losesNothing (fs : FileSystem)
    (h : resolveBoth lossy v dirs AT_FDCWD old AT_FDCWD new = .ok (p, q)) :
    LosesNothing 0 p q fs.files ((rename old new).run lossy v dirs fs.files) := by
  simp only [rename, PathCall.run, h]
  exact (hostRename_keeps_iff fs.closed).mpr fun _ _ _ =>
    ⟨fun hno => absurd (by decide) hno, fun hex => absurd (by decide) hex⟩

-- ---------------------------------------------------------------------------
-- Two files and a dangling link
-- ---------------------------------------------------------------------------

def linkedFiles : Files :=
  .ofList [([], .dir), ([[114]], .dir), ([[114], [102]], .file 1), ([[114], [103]], .file 2),
    ([[114], [108]], .symlink [120])]

theorem linkedFiles_closed : linkedFiles.Closed := by decide

def linked : FileSystem := ⟨linkedFiles, linkedFiles_closed⟩

/-- `renameat2(AT_FDCWD, "f", AT_FDCWD, new, flags)` in `/r`. -/
def renameF (new : UnixPath) (flags : BitVec 32) : Result :=
  (renameat2 AT_FDCWD [102] AT_FDCWD new flags).run id (.new slashR) (fun _ => .unbound) linkedFiles

/-- To a new name, without replacing: the name was free. -/
theorem renameat2_keeps_free :
    (renameF [104] RENAME_NOREPLACE).code = 0 ∧
      LosesNothing RENAME_NOREPLACE [47, 114, 47, 102] [47, 114, 47, 104] linkedFiles
        (renameF [104] RENAME_NOREPLACE) := by
  refine ⟨by decide, (renameat2_keeps_iff linked (by decide)).mpr ?_⟩
  intro a b h
  have hb : locate linkedFiles.tree [47, 114, 47, 104] = .ok [[114], [104]] := by decide
  cases h.new.symm.trans hb
  refine ⟨fun _ target => ?_, fun hex => absurd (by decide) hex⟩
  have hfree : linkedFiles.get? [[114], [104]] = none := by decide
  show linkedFiles.get? [[114], [104]] ≠ some (.symlink target)
  rw [hfree]
  exact Option.some_ne_none _ ∘ Eq.symm

/-- An exchange of `f` and `g` leaves nothing of `g`, and a rename to `l` that was not to
replace anything leaves nothing of the link. -/
theorem renameat2_loses :
    ((renameF [103] RENAME_EXCHANGE).code = 0 ∧
        (renameF [103] RENAME_EXCHANGE).files.get? [[114], [103]] = some (.file 1) ∧
        (renameF [103] RENAME_EXCHANGE).files.get? [[114], [102]] = none ∧
        ¬ LosesNothing RENAME_EXCHANGE [47, 114, 47, 102] [47, 114, 47, 103] linkedFiles
          (renameF [103] RENAME_EXCHANGE)) ∧
      (renameF [108] RENAME_NOREPLACE).code = 0 ∧
        linkedFiles.get? [[114], [108]] = some (.symlink [120]) ∧
        (renameF [108] RENAME_NOREPLACE).files.get? [[114], [108]] = some (.file 1) ∧
        ¬ LosesNothing RENAME_NOREPLACE [47, 114, 47, 102] [47, 114, 47, 108] linkedFiles
          (renameF [108] RENAME_NOREPLACE) := by
  have ha : locate linkedFiles.tree [47, 114, 47, 102] = .ok [[114], [102]] := by decide
  have hg : locate linkedFiles.tree [47, 114, 47, 103] = .ok [[114], [103]] := by decide
  have hl : locate linkedFiles.tree [47, 114, 47, 108] = .ok [[114], [108]] := by decide
  refine ⟨⟨by decide, by decide, by decide, fun h => ?_⟩, by decide, by decide, by decide, fun h => ?_⟩
  · obtain ⟨a, b, ha', hb', hp⟩ := h.success (by decide)
    cases ha.symm.trans ha'
    cases hg.symm.trans hb'
    have hback := (hp.exchange (by decide)).back []
    exact absurd hback (by decide)
  · obtain ⟨a, b, ha', hb', hp⟩ := h.success (by decide)
    cases hl.symm.trans hb'
    exact absurd (hp.noreplace (by decide)) (by decide)

end EdgeLibos.Paths
