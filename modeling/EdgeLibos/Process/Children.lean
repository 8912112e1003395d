import EdgeLibos.Kernel
import EdgeLibos.Lib.Words

/-!
# The table of children

What `wait4`, `fork` and the paths on which a child ends do to `children` under its
lock. A child's `Notify` is a number; `CHILD_EVENT` is the kernel-wide one.
-/

namespace EdgeLibos.Process

open Errno Lib

structure ChildExitStatus where
  exitCode : Int32
  exited : Bool
  notify : Nat
  deriving DecidableEq, Repr

def ChildExitStatus.new (exitCode : Int32) (notify : Nat) : ChildExitStatus :=
  { exitCode, exited := false, notify }

def ChildExitStatus.reaped (exitCode : Int32) (notify : Nat) : ChildExitStatus :=
  { exitCode, exited := true, notify }

abbrev Children := HashMap Int32 ChildExitStatus

def CHILD_EVENT : Nat := 0

def WNOHANG : BitVec 32 := 0x40

def WAIT4_SUPPORTED_V1 : BitVec 32 := WNOHANG

def target (pid : Int) : Option Int32 := if 0 < pid then some (Int32.ofInt pid) else none

def hasExited (children : Children) (p : Int32) : Bool := (children.get? p).any ChildExitStatus.exited

/-- The child that `try_reap` picks. Which of several the map's iterator finds first is
not known: it is `first` when that one has exited. -/
def pick (children : Children) (pid : Int) (first : Int32) : Option Int32 :=
  match target pid with
  | some p => if hasExited children p then some p else none
  | none =>
    if hasExited children first then some first
    else (children.entries.find? fun e => e.2.exited).map Prod.fst

def tryReap (children : Children) (pid : Int) (first : Int32) :
    Option (Int32 × Int32) × Children :=
  match pick children pid first with
  | none => (none, children)
  | some picked =>
    match children.get? picked with
    | none => (none, children)
    | some status => (some (picked, status.exitCode), children.erase picked)

def writeWstatusAndReturn (memory : Option MemoryKind) (picked exitCode : Int32) (wstatus : Int) :
    Int × Option MemoryKind :=
  if wstatus ≠ 0 then
    match ownedOf memory with
    | .error e => (e, memory)
    | .ok _ =>
      match guestCopy memory wstatus 4 (le32 ((exitCode &&& 0xff) <<< 8).toUInt32) with
      | .error e => (e, memory)
      | .ok memory => (picked.toInt, memory)
  else (picked.toInt, memory)

def markExited (children : Children) (p exitCode : Int32) (status : ChildExitStatus) : Children :=
  children.insert p { status with exited := true, exitCode }

def markAllExited (children : Children) : Children :=
  children.mapValues fun status => { status with exited := true }

-- ---------------------------------------------------------------------------
-- Children that match
-- ---------------------------------------------------------------------------

def Matches (pid : Int) (p : Int32) : Prop := ∀ t ∈ target pid, p = t

/-- `try_reap` would find a child. -/
def CanReap (children : Children) (pid : Int) : Prop :=
  ∃ p, Matches pid p ∧ hasExited children p = true

def HasChild (children : Children) (pid : Int) : Prop :=
  ∃ p, Matches pid p ∧ children.containsKey p = true

def notifyFor (children : Children) (pid : Int) : Option Nat :=
  match target pid with
  | some p => (children.get? p).map ChildExitStatus.notify
  | none => some CHILD_EVENT

variable {children : Children}

theorem hasExited_iff : hasExited children p = true ↔
    ∃ status, children.get? p = some status ∧ status.exited = true := by
  simp only [hasExited, Option.any_eq_true_iff_get, Option.isSome_iff_exists]
  constructor
  · rintro ⟨⟨status, hget⟩, hexited⟩
    refine ⟨status, hget, ?_⟩
    simpa [hget] using hexited
  · rintro ⟨status, hget, hexited⟩
    exact ⟨⟨status, hget⟩, by simpa [hget] using hexited⟩

theorem matches_of_target (h : target pid = some t) : Matches pid p ↔ p = t := by
  simp [Matches, h]

theorem matches_any (h : target pid = none) : Matches pid p := by
  simp [Matches, h]

theorem pick_some (h : pick children pid first = some p) :
    Matches pid p ∧ hasExited children p = true := by
  unfold pick at h
  split at h
  · rename_i t ht
    split at h
    · rename_i hexited
      cases h
      exact ⟨(matches_of_target ht).mpr rfl, hexited⟩
    · cases h
  · rename_i ht
    refine ⟨matches_any ht, ?_⟩
    split at h
    · rename_i hexited
      cases h
      exact hexited
    · obtain ⟨⟨k, status⟩, hfind, rfl⟩ := Option.map_eq_some_iff.mp h
      have hmem := HashMap.get?_eq_some_iff.mpr (List.mem_of_find?_eq_some hfind)
      exact hasExited_iff.mpr ⟨status, hmem, by simpa using List.find?_some hfind⟩

theorem pick_none (h : pick children pid first = none) : ¬ CanReap children pid := by
  rintro ⟨p, hmatch, hexited⟩
  unfold pick at h
  split at h
  · rename_i t ht
    obtain rfl := (matches_of_target ht).mp hmatch
    rw [if_pos hexited] at h
    cases h
  · split at h
    · cases h
    · obtain ⟨status, hget, hs⟩ := hasExited_iff.mp hexited
      have hnone := List.find?_eq_none.mp (Option.map_eq_none_iff.mp h)
      exact hnone (p, status) (HashMap.get?_eq_some_iff.mp hget) hs

/-- `try_reap` finds nothing, or takes an exited child that matches off the table. -/
theorem tryReap_cases (children : Children) (pid : Int) (first : Int32) :
    (tryReap children pid first = (none, children) ∧ ¬ CanReap children pid) ∨
      ∃ p code, pick children pid first = some p ∧
        tryReap children pid first = (some (p, code), children.erase p) := by
  unfold tryReap
  split
  · rename_i hpick
    exact .inl ⟨rfl, pick_none hpick⟩
  · rename_i p hpick
    obtain ⟨status, hget, -⟩ := hasExited_iff.mp (pick_some hpick).2
    rw [hget]
    exact .inr ⟨p, status.exitCode, hpick, rfl⟩

-- ---------------------------------------------------------------------------
-- How the table changes
-- ---------------------------------------------------------------------------

theorem hasExited_erase (h : hasExited (children.erase p) q = true) : hasExited children q = true := by
  obtain ⟨status, hget, hs⟩ := hasExited_iff.mp h
  rw [HashMap.get?_erase] at hget
  split at hget
  · cases hget
  · exact hasExited_iff.mpr ⟨status, hget, hs⟩

theorem CanReap.of_erase (h : CanReap (children.erase p) pid) : CanReap children pid := by
  obtain ⟨q, hmatch, hexited⟩ := h
  exact ⟨q, hmatch, hasExited_erase hexited⟩

theorem CanReap.of_insert_new (h : CanReap (children.insert p (.new code n)) pid) :
    CanReap children pid := by
  obtain ⟨q, hmatch, hexited⟩ := h
  refine ⟨q, hmatch, ?_⟩
  obtain ⟨status, hget, hs⟩ := hasExited_iff.mp hexited
  rw [HashMap.get?_insert] at hget
  split at hget
  · cases hget
    cases hs
  · exact hasExited_iff.mpr ⟨status, hget, hs⟩

theorem CanReap.of_insert_ne (h : CanReap (children.insert p status) pid) (ht : target pid = some t)
    (hne : t ≠ p) : CanReap children pid := by
  obtain ⟨q, hmatch, hexited⟩ := h
  obtain rfl := (matches_of_target ht).mp hmatch
  refine ⟨q, hmatch, ?_⟩
  rw [hasExited, HashMap.get?_insert, if_neg hne] at hexited
  exact hexited

theorem HasChild.insert (h : HasChild children pid) (p : Int32) (status : ChildExitStatus) :
    HasChild (children.insert p status) pid := by
  obtain ⟨q, hmatch, hkey⟩ := h
  refine ⟨q, hmatch, ?_⟩
  rw [HashMap.containsKey, HashMap.get?_insert]
  split
  · rfl
  · exact hkey

theorem HasChild.markAllExited (h : HasChild children pid) : HasChild (markAllExited children) pid := by
  obtain ⟨q, hmatch, hkey⟩ := h
  refine ⟨q, hmatch, ?_⟩
  rwa [HashMap.containsKey, Process.markAllExited, HashMap.get?_mapValues, Option.isSome_map]

theorem hasChild_of_target (ht : target pid = some t) :
    HasChild children pid ↔ children.containsKey t = true := by
  constructor
  · rintro ⟨p, hmatch, hkey⟩
    obtain rfl := (matches_of_target ht).mp hmatch
    exact hkey
  · intro hkey
    exact ⟨t, (matches_of_target ht).mpr rfl, hkey⟩

theorem hasChild_any (ht : target pid = none) : HasChild children pid ↔ children.entries ≠ [] := by
  constructor
  · rintro ⟨p, -, hkey⟩ hnil
    have hmem := HashMap.containsKey_iff.mp hkey
    rw [HashMap.keys, hnil] at hmem
    cases hmem
  · intro hne
    obtain ⟨e, he⟩ := List.exists_mem_of_ne_nil _ hne
    exact ⟨e.1, matches_any ht, HashMap.containsKey_iff.mpr (List.mem_map_of_mem he)⟩

theorem CanReap.hasChild (h : CanReap children pid) : HasChild children pid := by
  obtain ⟨p, hmatch, hexited⟩ := h
  obtain ⟨status, hget, -⟩ := hasExited_iff.mp hexited
  exact ⟨p, hmatch, by rw [HashMap.containsKey, hget]; rfl⟩

theorem notifyFor_of_target (ht : target pid = some t) :
    notifyFor children pid = (children.get? t).map ChildExitStatus.notify := by
  rw [notifyFor, ht]

theorem notifyFor_any (ht : target pid = none) : notifyFor children pid = some CHILD_EVENT := by
  rw [notifyFor, ht]

theorem notifyFor_insert_ne (ht : target pid = some t) (hne : t ≠ p) :
    notifyFor (children.insert p status) pid = notifyFor children pid := by
  rw [notifyFor_of_target ht, notifyFor_of_target ht, HashMap.get?_insert, if_neg hne]

theorem notifyFor_markAllExited (pid : Int) :
    notifyFor (markAllExited children) pid = notifyFor children pid := by
  cases ht : target pid with
  | none => rw [notifyFor_any ht, notifyFor_any ht]
  | some t =>
    rw [notifyFor_of_target ht, notifyFor_of_target ht, markAllExited, HashMap.get?_mapValues,
      Option.map_map]
    rfl

end EdgeLibos.Process
