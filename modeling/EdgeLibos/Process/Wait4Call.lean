import EdgeLibos.Process.Wait4
import EdgeLibos.Sys.FdSets

/-!
# One call of wait4

`wait4` on a table that no one else changes, up to its return or to the place where it
parks, and what the value it returns says about the children. The table is looked at in
three places; a `pid` is cut to 32 bits in two of them, and a call with `WNOHANG` returns
before the last.
-/

namespace EdgeLibos.Process

open Errno Lib
open Sys (guestSlice_ok)
open Sys.FdSets (Fits copy_slice guestCopy_fits)

inductive Waited
  | returns (value : Int) (children : Children) (memory : Option MemoryKind)
  | parks

/-- `wait4_syscall` from its arguments on; `first` is what the map's iterator finds. -/
def wait4 (children : Children) (memory : Option MemoryKind) (pid wstatus options : Int)
    (first : Int32) : Waited :=
  let flags := BitVec.ofInt 32 options
  if flags &&& ~~~WAIT4_SUPPORTED_V1 ≠ 0 then .returns (-EINVAL) children memory
  else if pid < -1 then .returns (-EINVAL) children memory
  else if children.entries.isEmpty then .returns (-ECHILD) children memory
  else
    match tryReap children pid first with
    | (some (picked, exitCode), children) =>
      .returns (writeWstatusAndReturn memory picked exitCode wstatus).1 children
        (writeWstatusAndReturn memory picked exitCode wstatus).2
    | (none, children) =>
      if flags &&& WNOHANG ≠ 0 then .returns 0 children memory
      else if (target pid).all children.containsKey then .parks
      else .returns (-ECHILD) children memory

-- ---------------------------------------------------------------------------
-- The steps of a call
-- ---------------------------------------------------------------------------

variable {s : State} {w : Wait} {children children' : Children} {memory memory' : Option MemoryKind}

theorem advance_alone (hw : s.waits[i]? = some w)
    (hstep : s.waitStep w first = some (phase, children, memory)) :
    runFrom State.next s (.advance i first :: rest) =
      runFrom State.next { s with children, memory, waits := s.waits.set i { w with phase } } rest :=
  runFrom_cons (State.next_advance hw hstep)

theorem State.waitStep_called (hcalled : w.phase = .called)
    (hflags : ¬ w.flags &&& ~~~WAIT4_SUPPORTED_V1 ≠ 0) (hpid : ¬ w.pid < -1)
    (hempty : ¬ s.children.entries.isEmpty = true) :
    s.waitStep w first = some (.trying, s.children, s.memory) := by
  simp only [State.waitStep, hcalled, if_neg hflags, if_neg hpid, if_neg hempty]

def State.moved (s : State) (i : Nat) (w : Wait) (phase : Phase) (children : Children)
    (memory : Option MemoryKind) : State :=
  { s with children, memory, waits := s.waits.set i { w with phase } }

theorem State.moved_run (hw : s.waits[i]? = some w)
    (hstep : (s.moved i w phase children memory).waitStep { w with phase } first =
      some (phase', children', memory')) :
    runFrom State.next (s.moved i w phase children memory) (.advance i first :: rest) =
      runFrom State.next (s.moved i w phase' children' memory') rest := by
  have hset : (s.waits.set i { w with phase }).set i { w with phase := phase' } =
      s.waits.set i { w with phase := phase' } := List.set_set ..
  refine (advance_alone (State.getElem?_advanced hw _) hstep).trans ?_
  simp only [moved, hset]

theorem wait4_steps (hw : s.waits[i]? = some w) (hcalled : w.phase = .called)
    (h : wait4 s.children s.memory w.pid w.wstatus w.options first = .returns value children memory) :
    ∃ n, runFrom State.next s (List.replicate n (.advance i first)) =
      some (s.moved i w (.returned value) children memory) := by
  unfold wait4 at h
  dsimp only at h
  by_cases hflags : BitVec.ofInt 32 w.options &&& ~~~WAIT4_SUPPORTED_V1 ≠ 0
  · rw [if_pos hflags] at h
    cases h
    have hstep : s.waitStep w first = some (.returned (-EINVAL), s.children, s.memory) := by
      simp only [State.waitStep, hcalled, Wait.flags]
      exact if_pos hflags
    exact ⟨1, advance_alone hw hstep⟩
  rw [if_neg hflags] at h
  by_cases hpid : w.pid < -1
  · rw [if_pos hpid] at h
    cases h
    have hstep : s.waitStep w first = some (.returned (-EINVAL), s.children, s.memory) := by
      simp only [State.waitStep, hcalled, Wait.flags, if_neg hflags, if_pos hpid]
    exact ⟨1, advance_alone hw hstep⟩
  rw [if_neg hpid] at h
  by_cases hempty : s.children.entries.isEmpty = true
  · rw [if_pos hempty] at h
    cases h
    have hstep : s.waitStep w first = some (.returned (-ECHILD), s.children, s.memory) := by
      simp only [State.waitStep, hcalled, Wait.flags, if_neg hflags, if_neg hpid, if_pos hempty]
    exact ⟨1, advance_alone hw hstep⟩
  rw [if_neg hempty] at h
  have hstep : s.waitStep w first = some (.trying, s.children, s.memory) :=
    State.waitStep_called hcalled hflags hpid hempty
  have hfirst : ∀ rest, runFrom State.next s (.advance i first :: rest) =
      runFrom State.next (s.moved i w .trying s.children s.memory) rest := fun _ => advance_alone hw hstep
  cases hreap : tryReap s.children w.pid first with
  | mk found left =>
    rw [hreap] at h
    cases found with
    | some picked =>
      cases h
      refine ⟨2, (hfirst _).trans (State.moved_run hw ?_)⟩
      simp only [State.waitStep, State.reap, State.moved, hreap]
    | none =>
      dsimp only at h
      by_cases hnohang : BitVec.ofInt 32 w.options &&& WNOHANG ≠ 0
      · rw [if_pos hnohang] at h
        cases h
        refine ⟨2, (hfirst _).trans (State.moved_run hw ?_)⟩
        simp only [State.waitStep, State.reap, State.moved, hreap]
        exact congrArg (fun phase => some (phase, _, s.memory)) (if_pos hnohang)
      · rw [if_neg hnohang] at h
        split at h
        · cases h
        · rename_i hgone
          cases h
          have hnothing : (s.moved i w .trying s.children s.memory).waitStep { w with phase := .trying } first =
              some (.checking, children, s.memory) := by
            simp only [State.waitStep, State.reap, State.moved, hreap]
            exact congrArg (fun phase => some (phase, _, s.memory)) (if_neg hnohang)
          refine ⟨3, (hfirst _).trans ((State.moved_run hw hnothing).trans (State.moved_run hw ?_))⟩
          simp only [State.waitStep, State.moved]
          exact if_neg hgone

-- ---------------------------------------------------------------------------
-- What the value tells
-- ---------------------------------------------------------------------------

/-- `pid` asks for the child `c`: for that one, as an `i64`, or for any. -/
def AsksFor (pid : Int) (c : Int32) : Prop := if 0 < pid then c.toInt = pid else pid = 0 ∨ pid = -1

/-- What a return of `wait4` says about the children, and what it leaves. -/
structure Tells (children : Children) (memory : Option MemoryKind) (pid wstatus options value : Int)
    (children' : Children) (memory' : Option MemoryKind) : Prop where
  echild : value = -ECHILD ↔ ∀ c, children.containsKey c = true → ¬ AsksFor pid c
  zero : value = 0 ↔ options = WNOHANG.toInt ∧ (∃ c, children.containsKey c = true ∧ AsksFor pid c) ∧
    ∀ c, AsksFor pid c → hasExited children c = false
  child : (value = -ECHILD ∨ value = 0) ∧ children' = children ∧ memory' = memory ∨
    ∃ c status, value = c.toInt ∧ 0 < c.toInt ∧ AsksFor pid c ∧ children.get? c = some status ∧
      status.exited = true ∧ children' = children.erase c ∧
      if wstatus = 0 then memory' = memory
      else guestSlice memory' wstatus 4 = .ok (le32 ((status.exitCode &&& 0xff) <<< 8).toUInt32)

/-- Whichever child the map's iterator finds. -/
def Truthful (children : Children) (memory : Option MemoryKind) (pid wstatus options : Int) : Prop :=
  ∀ first value children' memory',
    wait4 children memory pid wstatus options first = .returns value children' memory' →
      Tells children memory pid wstatus options value children' memory'

/-- The calls whose value can be trusted. -/
def Trusted (children : Children) (pid options : Int) : Prop :=
  -1 ≤ pid ∧
    (children.entries = [] ∨
      (pid ≤ 0 ∧ ∀ c, hasExited children c = true → 0 < c.toInt) ∨
      (0 < pid ∧ pid < 2 ^ 31 ∧
        (options = WNOHANG.toInt → children.containsKey (Int32.ofInt pid) = true)) ∨
      (2 ^ 31 ≤ pid ∧ options ≠ WNOHANG.toInt ∧ hasExited children (Int32.ofInt pid) = false))

theorem toInt_ofInt_pid (h : 0 < pid) (hlt : pid < 2 ^ 31) : (Int32.ofInt pid).toInt = pid := by
  rw [Int32.toInt_ofInt, Int.bmod_eq_of_le] <;> simp [Int32.size] <;> omega

theorem asksFor_iff (h : -1 ≤ pid) (hlt : pid < 2 ^ 31) : AsksFor pid c ↔ Matches pid c := by
  by_cases hpid : 0 < pid
  · have ht : target pid = some (Int32.ofInt pid) := if_pos hpid
    rw [matches_of_target ht, AsksFor, if_pos hpid, ← Int32.toInt_inj, toInt_ofInt_pid hpid hlt]
  · have ht : target pid = none := if_neg hpid
    rw [AsksFor, if_neg hpid]
    exact ⟨fun _ => matches_any ht, fun _ => by omega⟩

theorem not_asksFor (h : 2 ^ 31 ≤ pid) : ¬ AsksFor pid c := by
  rw [AsksFor, if_pos (by omega)]
  have hlt := c.toInt_lt
  omega

theorem containsKey_of_exited (h : hasExited children c = true) : children.containsKey c = true := by
  obtain ⟨status, hget, -⟩ := hasExited_iff.mp h
  simp [HashMap.containsKey, hget]

theorem hasChild_iff (hne : children.entries ≠ []) :
    (target pid).all children.containsKey = true ↔ HasChild children pid := by
  cases ht : target pid with
  | none => simp [hasChild_any ht, hne]
  | some t => simp [hasChild_of_target ht]

theorem nohang_iff (h : options = 0 ∨ options = WNOHANG.toInt) :
    BitVec.ofInt 32 options &&& WNOHANG ≠ 0 ↔ options = WNOHANG.toInt := by
  rcases h with rfl | rfl <;> decide

theorem supported (h : options = 0 ∨ options = WNOHANG.toInt) :
    ¬ BitVec.ofInt 32 options &&& ~~~WAIT4_SUPPORTED_V1 ≠ 0 := by
  rcases h with rfl | rfl <;> decide

theorem writeWstatus_ok (h : wstatus = 0 ∨ Fits memory wstatus 4) (picked code : Int32) :
    ∃ memory', writeWstatusAndReturn memory picked code wstatus = (picked.toInt, memory') ∧
      if wstatus = 0 then memory' = memory
      else guestSlice memory' wstatus 4 = .ok (le32 ((code &&& 0xff) <<< 8).toUInt32) := by
  by_cases hnull : wstatus = 0
  · simp [writeWstatusAndReturn, hnull]
  · have hfits := h.resolve_left hnull
    obtain ⟨memory', hcopy⟩ := guestCopy_fits (le32 ((code &&& 0xff) <<< 8).toUInt32) hfits rfl
    obtain ⟨bytes, hbytes⟩ := hfits.slice
    obtain ⟨m, rfl, -⟩ := guestSlice_ok hbytes
    refine ⟨memory', ?_, ?_⟩
    · simp [writeWstatusAndReturn, hnull, ownedOf, hcopy]
    · rw [if_neg hnull]
      exact copy_slice hcopy rfl

variable {pid wstatus options : Int}

theorem wait4_cases (hoptions : options = 0 ∨ options = WNOHANG.toInt)
    (hwstatus : wstatus = 0 ∨ Fits memory wstatus 4) (hpid : -1 ≤ pid) (hne : children.entries ≠ [])
    (first : Int32) :
    (∃ c status memory', pick children pid first = some c ∧ children.get? c = some status ∧
        wait4 children memory pid wstatus options first = .returns c.toInt (children.erase c) memory' ∧
        if wstatus = 0 then memory' = memory
        else guestSlice memory' wstatus 4 = .ok (le32 ((status.exitCode &&& 0xff) <<< 8).toUInt32)) ∨
      (¬ CanReap children pid ∧ wait4 children memory pid wstatus options first =
        if options = WNOHANG.toInt then .returns 0 children memory
        else if (target pid).all children.containsKey then .parks
        else .returns (-ECHILD) children memory) := by
  unfold wait4
  dsimp only
  rw [if_neg (supported hoptions), if_neg (Int.not_lt.mpr hpid), if_neg (by simpa using hne)]
  rcases tryReap_cases children pid first with ⟨hreap, hnone⟩ | ⟨c, code, hpick, hreap⟩
  · right
    refine ⟨hnone, ?_⟩
    simp only [hreap, nohang_iff hoptions]
  · left
    obtain ⟨status, hget, -⟩ := hasExited_iff.mp (pick_some hpick).2
    have hcode : status.exitCode = code := by
      simp only [tryReap, hpick, hget] at hreap
      cases hreap
      rfl
    obtain ⟨memory', hwrite, hstatus⟩ := writeWstatus_ok hwstatus c status.exitCode
    refine ⟨c, status, memory', hpick, hget, ?_, hstatus⟩
    simp only [hreap, ← hcode, hwrite]

theorem tells_child (hask : AsksFor pid c) (hget : children.get? c = some status)
    (hexited : hasExited children c = true) (hpos : 0 < c.toInt)
    (hstatus : if wstatus = 0 then memory' = memory
      else guestSlice memory' wstatus 4 = .ok (le32 ((status.exitCode &&& 0xff) <<< 8).toUInt32)) :
    Tells children memory pid wstatus options c.toInt (children.erase c) memory' := by
  have hneg : ¬ c.toInt = -ECHILD := by
    have : (0 : Int) < ECHILD := by decide
    omega
  refine ⟨?_, ?_, .inr ⟨c, status, rfl, hpos, hask, hget, ?_, rfl, hstatus⟩⟩
  · exact ⟨fun h => absurd h hneg, fun h => absurd hask (h c (containsKey_of_exited hexited))⟩
  · refine ⟨fun h => by omega, ?_⟩
    rintro ⟨-, -, hlive⟩
    rw [hlive c hask] at hexited
    cases hexited
  · obtain ⟨status', hget', hs⟩ := hasExited_iff.mp hexited
    cases hget.symm.trans hget'
    exact hs

theorem tells_zero (hnohang : options = WNOHANG.toInt) (hask : ∀ c, AsksFor pid c ↔ Matches pid c)
    (hnone : ¬ CanReap children pid) :
    Tells children memory pid wstatus options 0 children memory ↔ HasChild children pid := by
  have hlive : ∀ c, AsksFor pid c → hasExited children c = false := by
    intro c hc
    rw [Bool.eq_false_iff]
    exact fun hexited => hnone ⟨c, (hask c).mp hc, hexited⟩
  constructor
  · intro h
    obtain ⟨-, ⟨c, hkey, hc⟩, -⟩ := h.zero.mp rfl
    exact ⟨c, (hask c).mp hc, hkey⟩
  · rintro ⟨c, hc, hkey⟩
    have hthere : ∃ c, children.containsKey c = true ∧ AsksFor pid c := ⟨c, hkey, (hask c).mpr hc⟩
    refine ⟨⟨fun h => absurd h (by decide), fun h => ?_⟩, ⟨fun _ => ⟨hnohang, hthere, hlive⟩, fun _ => rfl⟩,
      .inl ⟨.inr rfl, rfl, rfl⟩⟩
    exact absurd ((hask c).mpr hc) (h c hkey)

theorem tells_echild (hgone : ∀ c, children.containsKey c = true → ¬ AsksFor pid c) :
    Tells children memory pid wstatus options (-ECHILD) children memory := by
  refine ⟨⟨fun _ => hgone, fun _ => rfl⟩, ⟨fun h => absurd h (by decide), ?_⟩, .inl ⟨.inl rfl, rfl, rfl⟩⟩
  rintro ⟨-, ⟨c, hkey, hc⟩, -⟩
  exact absurd hc (hgone c hkey)

theorem not_tells_neg (hneg : value < 0) (hne : value ≠ -ECHILD) :
    ¬ Tells children memory pid wstatus options value children' memory' := by
  intro h
  rcases h.child with ⟨rfl | rfl, -, -⟩ | ⟨c, status, rfl, hpos, -⟩
  · exact hne rfl
  · cases hneg
  · omega

/-- On a table without children there is but one answer. -/
theorem truthful_empty (hoptions : options = 0 ∨ options = WNOHANG.toInt) (hpid : -1 ≤ pid)
    (hempty : children.entries = []) : Truthful children memory pid wstatus options := by
  intro first value children' memory' h
  unfold wait4 at h
  dsimp only at h
  rw [if_neg (supported hoptions), if_neg (Int.not_lt.mpr hpid), if_pos (by rw [hempty]; rfl)] at h
  cases h
  refine tells_echild fun c hkey => ?_
  have hmem := HashMap.containsKey_iff.mp hkey
  rw [HashMap.keys, hempty] at hmem
  cases hmem

theorem not_truthful_group (hoptions : options = 0 ∨ options = WNOHANG.toInt) (hpid : pid < -1) :
    ¬ Truthful children memory pid wstatus options := by
  intro h
  refine not_tells_neg ?_ ?_ (h 0 (-EINVAL) children memory ?_)
  · decide
  · decide
  · unfold wait4
    dsimp only
    rw [if_neg (supported hoptions), if_pos hpid]

/-- Where the cast to 32 bits does no harm. -/
theorem truthful_iff_of_fits (hoptions : options = 0 ∨ options = WNOHANG.toInt)
    (hwstatus : wstatus = 0 ∨ Fits memory wstatus 4) (hpid : -1 ≤ pid) (hlt : pid < 2 ^ 31)
    (hne : children.entries ≠ []) :
    Truthful children memory pid wstatus options ↔
      (∀ c, Matches pid c → hasExited children c = true → 0 < c.toInt) ∧
        (options = WNOHANG.toInt → HasChild children pid) := by
  have hask : ∀ c, AsksFor pid c ↔ Matches pid c := fun c => asksFor_iff hpid hlt
  constructor
  · intro h
    constructor
    · intro c hmatch hexited
      have hpick : pick children pid c = some c := by
        unfold pick
        split
        · rename_i t ht
          obtain rfl := (matches_of_target ht).mp hmatch
          exact if_pos hexited
        · exact if_pos hexited
      rcases wait4_cases hoptions hwstatus hpid hne c with
        ⟨c', status, m, hpick', hget, hwait, -⟩ | ⟨hnone, -⟩
      · cases hpick.symm.trans hpick'
        rcases (h _ _ _ _ hwait).child with ⟨-, hsame, -⟩ | ⟨c', -, heq, hpos, -⟩
        · have hgone : (children.erase c).get? c = none := by simp [HashMap.get?_erase]
          rw [hsame, hget] at hgone
          cases hgone
        · omega
      · exact absurd ⟨c, hmatch, hexited⟩ hnone
    · intro hnohang
      rcases wait4_cases hoptions hwstatus hpid hne 0 with ⟨c, -, -, hpick, -⟩ | ⟨hnone, hwait⟩
      · exact CanReap.hasChild ⟨c, pick_some hpick⟩
      · rw [if_pos hnohang] at hwait
        exact (tells_zero hnohang hask hnone).mp (h _ _ _ _ hwait)
  · rintro ⟨hpos, hthere⟩ first value children' memory' h
    rcases wait4_cases hoptions hwstatus hpid hne first with
      ⟨c, status, m, hpick, hget, hwait, hstatus⟩ | ⟨hnone, hwait⟩
    · obtain ⟨hmatch, hexited⟩ := pick_some hpick
      cases h.symm.trans hwait
      exact tells_child ((hask c).mpr hmatch) hget hexited (hpos c hmatch hexited) hstatus
    · rw [hwait] at h
      split at h
      · rename_i hnohang
        cases h
        exact (tells_zero hnohang hask hnone).mpr (hthere hnohang)
      · split at h
        · cases h
        · rename_i hgone
          cases h
          refine tells_echild fun c hkey hc => hgone ((hasChild_iff hne).mpr ?_)
          exact ⟨c, (hask c).mp hc, hkey⟩

/-- No child is asked for, and yet one whose number agrees in 32 bits may be found. -/
theorem truthful_iff_of_wide (hoptions : options = 0 ∨ options = WNOHANG.toInt)
    (hwstatus : wstatus = 0 ∨ Fits memory wstatus 4) (hwide : 2 ^ 31 ≤ pid)
    (hne : children.entries ≠ []) :
    Truthful children memory pid wstatus options ↔
      options ≠ WNOHANG.toInt ∧ hasExited children (Int32.ofInt pid) = false := by
  have hpid : -1 ≤ pid := by omega
  have ht : target pid = some (Int32.ofInt pid) := if_pos (by omega)
  constructor
  · intro h
    rcases wait4_cases hoptions hwstatus hpid hne 0 with
      ⟨c, status, m, hpick, hget, hwait, -⟩ | ⟨hnone, hwait⟩
    · rcases (h _ _ _ _ hwait).child with ⟨-, hsame, -⟩ | ⟨c', -, -, -, hc, -⟩
      · have hgone : (children.erase c).get? c = none := by simp [HashMap.get?_erase]
        rw [hsame, hget] at hgone
        cases hgone
      · exact absurd hc (not_asksFor hwide)
    · constructor
      · intro hnohang
        rw [if_pos hnohang] at hwait
        obtain ⟨-, ⟨c, -, hc⟩, -⟩ := (h _ _ _ _ hwait).zero.mp rfl
        exact not_asksFor hwide hc
      · rw [Bool.eq_false_iff]
        exact fun hexited => hnone ⟨_, (matches_of_target ht).mpr rfl, hexited⟩
  · rintro ⟨hblock, hlive⟩ first value children' memory' h
    rcases wait4_cases hoptions hwstatus hpid hne first with ⟨c, -, -, hpick, -⟩ | ⟨-, hwait⟩
    · obtain ⟨hmatch, hexited⟩ := pick_some hpick
      obtain rfl := (matches_of_target ht).mp hmatch
      rw [hlive] at hexited
      cases hexited
    · rw [hwait, if_neg hblock] at h
      split at h
      · cases h
      · cases h
        exact tells_echild fun _ _ => not_asksFor hwide

/-- The value of `wait4` tells which child has ended, that none has yet or that there is
none, as long as no `WNOHANG` asks for a child that is not there and no number is cut. -/
theorem wait4_tells_iff (hoptions : options = 0 ∨ options = WNOHANG.toInt)
    (hwstatus : wstatus = 0 ∨ Fits memory wstatus 4) :
    Truthful children memory pid wstatus options ↔ Trusted children pid options := by
  by_cases hpid : -1 ≤ pid
  · by_cases hempty : children.entries = []
    · exact ⟨fun _ => ⟨hpid, .inl hempty⟩, fun _ => truthful_empty hoptions hpid hempty⟩
    by_cases hwide : 2 ^ 31 ≤ pid
    · rw [truthful_iff_of_wide hoptions hwstatus hwide hempty]
      constructor
      · exact fun h => ⟨hpid, .inr (.inr (.inr ⟨hwide, h⟩))⟩
      · rintro ⟨-, h | ⟨h, -⟩ | ⟨-, h, -⟩ | ⟨-, h⟩⟩
        · exact absurd h hempty
        · omega
        · omega
        · exact h
    rw [truthful_iff_of_fits hoptions hwstatus hpid (Int.not_le.mp hwide) hempty]
    by_cases hany : 0 < pid
    · have ht : target pid = some (Int32.ofInt pid) := if_pos hany
      rw [hasChild_of_target ht]
      constructor
      · exact fun h => ⟨hpid, .inr (.inr (.inl ⟨hany, Int.not_le.mp hwide, h.2⟩))⟩
      · rintro ⟨-, h | ⟨h, -⟩ | ⟨-, -, h⟩ | ⟨h, -⟩⟩
        · exact absurd h hempty
        · omega
        · refine ⟨fun c hmatch _ => ?_, h⟩
          rw [(matches_of_target ht).mp hmatch, toInt_ofInt_pid hany (Int.not_le.mp hwide)]
          exact hany
        · omega
    · have ht : target pid = none := if_neg hany
      rw [hasChild_any ht]
      constructor
      · exact fun h => ⟨hpid, .inr (.inl ⟨Int.not_lt.mp hany, fun c => h.1 c (matches_any ht)⟩)⟩
      · rintro ⟨-, h | ⟨-, h⟩ | ⟨h, -⟩ | ⟨h, -⟩⟩
        · exact absurd h hempty
        · exact ⟨fun c _ => h c, fun _ => hempty⟩
        · exact absurd h hany
        · omega
  · refine iff_of_false (not_truthful_group hoptions (Int.not_le.mp hpid)) fun h => hpid h.1

/-- Child 2 has ended with code 7 beside a child 3 that runs. -/
theorem wait4_tells_of_child :
    let children : Children := (HashMap.empty.insert 3 (.new 0 2)).insert 2 (.reaped 7 1)
    Fits (some (.owned .zeroPage)) 8 4 ∧ Truthful children (some (.owned .zeroPage)) 2 8 0 ∧
      ∃ memory', wait4 children (some (.owned .zeroPage)) 2 8 0 0 = .returns 2 (children.erase 2) memory' := by
  have hfits : Fits (some (.owned .zeroPage)) 8 4 :=
    .of_size (by decide) (by decide) (by rw [LinearMemory.zeroPage_size]; decide)
  refine ⟨hfits, (wait4_tells_iff (.inl rfl) (.inr hfits)).mpr ?_, ?_⟩
  · exact ⟨by decide, .inr (.inr (.inl ⟨by decide, by decide, fun h => absurd h (by decide)⟩))⟩
  · obtain ⟨memory', hwrite, -⟩ := writeWstatus_ok (.inr hfits) 2 7
    refine ⟨memory', ?_⟩
    have hreap : tryReap ((HashMap.empty.insert 3 (.new 0 2)).insert 2 (.reaped 7 1)) 2 0 =
      (some (2, 7), ((HashMap.empty.insert 3 (.new 0 2)).insert 2 (.reaped 7 1)).erase 2) := rfl
    unfold wait4
    rw [if_neg (by decide), if_neg (by decide), if_neg (by decide), hreap]
    dsimp only
    rw [hwrite]
    rfl

/-- There is no child 2; a `WNOHANG` wait for it finds nothing ready and says 0 before it
looks whether the child exists. -/
theorem absent_child_not_told :
    wait4 (HashMap.empty.insert 3 (.new 0 1)) none 2 0 64 0 =
        .returns 0 (HashMap.empty.insert 3 (.new 0 1)) none ∧
      ¬ Truthful (HashMap.empty.insert 3 (.new 0 1)) none 2 0 64 := by
  have hwait : wait4 (HashMap.empty.insert 3 (.new 0 1)) none 2 0 64 0 =
      .returns 0 (HashMap.empty.insert 3 (.new 0 1)) none := rfl
  refine ⟨hwait, fun h => ?_⟩
  obtain ⟨-, ⟨c, hkey, hc⟩, -⟩ := (h _ _ _ _ hwait).zero.mp rfl
  have hthree : c = 3 := List.mem_singleton.mp (HashMap.containsKey_iff.mp hkey)
  subst hthree
  cases hc

end EdgeLibos.Process
