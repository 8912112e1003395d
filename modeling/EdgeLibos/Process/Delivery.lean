import EdgeLibos.Lib.Ledger
import EdgeLibos.Process.Wait4Call

/-!
# A child's status is handed over once

Runs of `fork`, of children that end and of `wait4` calls, with books: which children
have ended and which were handed over to a caller, with their status in its memory or
with a null pointer. `try_reap` takes the child off the table and only then
`write_wstatus_and_return` looks at the pointer.
-/

namespace EdgeLibos.Process

open Errno Lib
open Sys.FdSets (Fits)

abbrev ChildId := Int32 × Nat

def Holds (children : Children) (exited : Bool) (c : ChildId) : Prop :=
  ∃ status, children.get? c.1 = some status ∧ status.notify = c.2 ∧ status.exited = exited

abbrev Live (children : Children) : ChildId → Prop := Holds children false

abbrev Ended (children : Children) : ChildId → Prop := Holds children true

def endedIn (children : Children) : List ChildId :=
  (children.entries.filter fun e => e.2.exited).map fun e => (e.1, e.2.notify)

def statusAt (memory : Option MemoryKind) (wstatus : Int) (exitCode : Int32) : Bool :=
  wstatus == 0 ||
    (guestSlice memory wstatus 4).toOption == some (le32 ((exitCode &&& 0xff) <<< 8).toUInt32)

def handedOver (children : Children) (memory : Option MemoryKind) (wstatus value : Int) : List ChildId :=
  (children.entries.filter fun e => e.2.exited && decide (0 < value ∧ value = e.1.toInt) &&
    statusAt memory wstatus e.2.exitCode).map fun e => (e.1, e.2.notify)

def State.hands (s : State) (a : Act) (s' : State) : List ChildId :=
  match a with
  | .advance i _ =>
    match s.waits[i]?, s'.waits[i]?.map Wait.phase with
    | some w, some (.returned value) => handedOver s.children s'.memory w.wstatus value
    | _, _ => []
  | _ => []

structure Books where
  state : State
  ended : List ChildId
  handed : List ChildId

def Books.start (s : State) : Books := { state := s, ended := endedIn s.children, handed := [] }

def Books.next (b : Books) (a : Act) : Option Books :=
  (b.state.next a).map fun s' =>
    { state := s'
      ended := b.ended ++ (endedIn s'.children).filter fun c => c ∉ endedIn b.state.children
      handed := b.handed ++ b.state.hands a s' }

/-- The steps that lose no status: a caller that takes a child can be told of it, and no
new entry takes the place of one that has ended. -/
def Collectable (s : State) : Act → Prop
  | .advance i first => ∀ w, s.waits[i]? = some w → w.phase = .trying ∨ w.phase = .woken →
      ∀ p, pick s.children w.pid first = some p →
        0 < p.toInt ∧ (w.wstatus = 0 ∨ Fits s.memory w.wstatus 4)
  | .fork => hasExited s.children s.nextPid = false
  | .runChild pid _ => hasExited s.children pid = false
  | _ => True

-- ---------------------------------------------------------------------------
-- The lists of the books
-- ---------------------------------------------------------------------------

variable {s s' : State} {children children' : Children} {memory : Option MemoryKind} {n : Nat}

theorem mem_endedIn : c ∈ endedIn children ↔ Ended children c := by
  simp only [endedIn, List.mem_map, List.mem_filter]
  constructor
  · rintro ⟨⟨p, status⟩, ⟨hmem, hexited⟩, rfl⟩
    exact ⟨status, HashMap.get?_eq_some_iff.mpr hmem, rfl, hexited⟩
  · rintro ⟨status, hget, hnotify, hexited⟩
    exact ⟨(c.1, status), ⟨HashMap.get?_eq_some_iff.mp hget, hexited⟩, by simp [hnotify]⟩

theorem nodup_ids (children : Children) (keep : Int32 × ChildExitStatus → Bool) :
    ((children.entries.filter keep).map fun e => ((e.1, e.2.notify) : ChildId)).Nodup := by
  have hall : (children.entries.map fun e => ((e.1, e.2.notify) : ChildId)).Nodup :=
    children.nodup_map_of_key fun e => (rfl : Prod.fst ((e.1, e.2.notify) : ChildId) = e.1)
  exact hall.sublist (List.filter_sublist.map _)

theorem mem_handedOver : c ∈ handedOver children memory wstatus value ↔
    0 < value ∧ value = c.1.toInt ∧ ∃ status, children.get? c.1 = some status ∧ status.notify = c.2 ∧
      status.exited = true ∧ statusAt memory wstatus status.exitCode = true := by
  simp only [handedOver, List.mem_map, List.mem_filter, Bool.and_eq_true, decide_eq_true_eq]
  constructor
  · rintro ⟨⟨p, status⟩, ⟨hmem, ⟨hexited, hpos, heq⟩, hstatus⟩, rfl⟩
    exact ⟨hpos, heq, status, HashMap.get?_eq_some_iff.mpr hmem, rfl, hexited, hstatus⟩
  · rintro ⟨hpos, heq, status, hget, hnotify, hexited, hstatus⟩
    exact ⟨(c.1, status), ⟨HashMap.get?_eq_some_iff.mp hget, ⟨hexited, hpos, heq⟩, hstatus⟩, by simp [hnotify]⟩

theorem Holds.not_ended (h : Live children c) : ¬ Ended children c := by
  rintro ⟨status', hget', -, hexited⟩
  obtain ⟨status, hget, -, hlive⟩ := h
  cases hget.symm.trans hget'
  rw [hlive] at hexited
  cases hexited

-- ---------------------------------------------------------------------------
-- How a step moves the children
-- ---------------------------------------------------------------------------

/-- The steps of the books, of the table and the next number. -/
abbrev Moves (children : Children) (n : Nat) (children' : Children) (n' : Nat) (taken : List ChildId) : Prop :=
  Ledger.Moves Prod.snd (Live children) (Ended children) n (Live children') (Ended children') n' taken

theorem Moves.same (children : Children) (n : Nat) : Moves children n children n [] where
  le := le_refl n
  taken_nodup := .nil
  taken_ended _ hc := absurd hc List.not_mem_nil
  kept _ hc := .inl hc
  ended _ hc := .inl ⟨hc, List.not_mem_nil⟩
  live _ hc := ⟨hc.not_ended, .inl hc⟩

theorem holds_insert : Holds (children.insert p status) b c ↔
    (c.1 = p ∧ status.notify = c.2 ∧ status.exited = b) ∨ (c.1 ≠ p ∧ Holds children b c) := by
  simp only [Holds, HashMap.get?_insert]
  by_cases hp : c.1 = p
  · simp [hp]
  · simp [hp]

theorem Moves.insert (hle : n ≤ n')
    (hold : ∀ old, children.get? p = some old → old.exited = true →
      status.exited = true ∧ status.notify = old.notify)
    (hnew : (n ≤ status.notify ∧ status.notify < n') ∨
      ∃ old, children.get? p = some old ∧ old.notify = status.notify ∧
        (status.exited = false → old.exited = false)) :
    Moves children n (children.insert p status) n' [] where
  le := hle
  taken_nodup := .nil
  taken_ended _ hc := absurd hc List.not_mem_nil
  kept c hc := by
    left
    rw [Ended, holds_insert]
    by_cases hp : c.1 = p
    · obtain ⟨old, hget, hnotify, hexited⟩ := hc
      obtain ⟨hstatus, hsame⟩ := hold old (hp ▸ hget) hexited
      exact .inl ⟨hp, hsame.trans hnotify, hstatus⟩
    · exact .inr ⟨hp, hc⟩
  ended c hc := by
    rcases holds_insert.mp hc with ⟨hp, hnotify, hexited⟩ | ⟨hp, hc⟩
    · rcases hnew with hfresh | ⟨old, hget, hsame, -⟩
      · exact .inr (.inr (hnotify ▸ hfresh))
      · rw [← hp] at hget
        cases hb : old.exited with
        | true => exact .inl ⟨⟨old, hget, hsame.trans hnotify, hb⟩, List.not_mem_nil⟩
        | false =>
          have hlive : Live children c := ⟨old, hget, hsame.trans hnotify, hb⟩
          exact .inr (.inl ⟨hlive, hlive.not_ended⟩)
    · exact .inl ⟨hc, List.not_mem_nil⟩
  live c hc := by
    refine ⟨hc.not_ended, ?_⟩
    rcases holds_insert.mp hc with ⟨hp, hnotify, hlive⟩ | ⟨hp, hc⟩
    · rcases hnew with hfresh | ⟨old, hget, hsame, hback⟩
      · exact .inr (hnotify ▸ hfresh)
      · exact .inl ⟨old, hp ▸ hget, hsame.trans hnotify, hback hlive⟩
    · exact .inl hc

theorem Moves.register (h : hasExited children p = false) (code : Int32) :
    Moves children n (children.insert p (.new code n)) (n + 1) [] := by
  refine .insert (Nat.le_succ n) (fun old hget hexited => ?_) (.inl ⟨le_refl n, Nat.lt_succ_self n⟩)
  rw [Bool.eq_false_iff] at h
  exact absurd (hasExited_iff.mpr ⟨old, hget, hexited⟩) h

theorem Moves.markExited (hget : children.get? p = some entry) (code : Int32) :
    Moves children n (markExited children p code entry) n [] := by
  refine .insert (le_refl n) (fun old hold _ => ?_) (.inr ⟨entry, hget, rfl, fun h => by cases h⟩)
  cases hget.symm.trans hold
  exact ⟨rfl, rfl⟩

theorem Moves.reaped (hget : children.get? p = none) (code : Int32) :
    Moves children n (children.insert p (.reaped code n)) (n + 1) [] := by
  refine .insert (Nat.le_succ n) (fun old hold _ => ?_) (.inl ⟨le_refl n, Nat.lt_succ_self n⟩)
  rw [hget] at hold
  cases hold

theorem holds_markAllExited : Holds (markAllExited children) b c ↔
    b = true ∧ (Live children c ∨ Ended children c) := by
  simp only [Holds, Process.markAllExited, HashMap.get?_mapValues, Option.map_eq_some_iff]
  constructor
  · rintro ⟨_, ⟨status, hget, rfl⟩, hnotify, hb⟩
    refine ⟨hb.symm, ?_⟩
    cases he : status.exited with
    | false => exact .inl ⟨status, hget, hnotify, he⟩
    | true => exact .inr ⟨status, hget, hnotify, he⟩
  · rintro ⟨rfl, ⟨status, hget, hnotify, -⟩ | ⟨status, hget, hnotify, -⟩⟩
    · exact ⟨_, ⟨status, hget, rfl⟩, hnotify, rfl⟩
    · exact ⟨_, ⟨status, hget, rfl⟩, hnotify, rfl⟩

theorem Moves.markAllExited (children : Children) (n : Nat) :
    Moves children n (markAllExited children) n [] where
  le := le_refl n
  taken_nodup := .nil
  taken_ended _ hc := absurd hc List.not_mem_nil
  kept _ hc := .inl (holds_markAllExited.mpr ⟨rfl, .inr hc⟩)
  ended _ hc := by
    rcases (holds_markAllExited.mp hc).2 with hlive | hended
    · exact .inr (.inl ⟨hlive, hlive.not_ended⟩)
    · exact .inl ⟨hended, List.not_mem_nil⟩
  live _ hc := by
    obtain ⟨hb, -⟩ := holds_markAllExited.mp hc
    cases hb

theorem holds_erase : Holds (children.erase p) b c ↔ c.1 ≠ p ∧ Holds children b c := by
  simp only [Holds, HashMap.get?_erase]
  by_cases hp : c.1 = p
  · simp [hp]
  · simp [hp]

theorem Moves.erase (hnodup : taken.Nodup) (htaken : ∀ c, c ∈ taken ↔ c.1 = p ∧ Ended children c) :
    Moves children n (children.erase p) n taken where
  le := le_refl n
  taken_nodup := hnodup
  taken_ended c hc := ((htaken c).mp hc).2
  kept c hc := by
    by_cases hp : c.1 = p
    · exact .inr ((htaken c).mpr ⟨hp, hc⟩)
    · exact .inl (holds_erase.mpr ⟨hp, hc⟩)
  ended c hc := by
    obtain ⟨hp, hc⟩ := holds_erase.mp hc
    exact .inl ⟨hc, fun hmem => hp ((htaken c).mp hmem).1⟩
  live _ hc := ⟨hc.not_ended, .inl (holds_erase.mp hc).2⟩

-- ---------------------------------------------------------------------------
-- The steps of the kernel
-- ---------------------------------------------------------------------------

/-- A step of a call that leaves the table and the memory alone; a value that it returns
is no child's. -/
structure Leaves (s : State) (phase : Phase) (children : Children) (memory : Option MemoryKind) : Prop where
  table : children = s.children
  unwritten : memory = s.memory
  value : ∀ value, phase = .returned value → value ≤ 0

/-- A step of a call that takes the child `p` and returns what `write_wstatus_and_return`
says. -/
structure Takes (s : State) (w : Wait) (first : Int32) (phase : Phase) (children : Children)
    (memory : Option MemoryKind) (p : Int32) (status : ChildExitStatus) : Prop where
  trying : w.phase = .trying ∨ w.phase = .woken
  picked : pick s.children w.pid first = some p
  entry : s.children.get? p = some status
  table : children = s.children.erase p
  returns : phase = .returned (writeWstatusAndReturn s.memory p status.exitCode w.wstatus).1
  written : memory = (writeWstatusAndReturn s.memory p status.exitCode w.wstatus).2

theorem State.reap_takes (htrying : w.phase = .trying ∨ w.phase = .woken)
    (hvalue : ∀ value, phase = Phase.returned value → value ≤ 0)
    (h : some (s.reap w first phase) = some (phase', children, memory)) :
    Leaves s phase' children memory ∨ ∃ p status, Takes s w first phase' children memory p status := by
  rcases tryReap_cases s.children w.pid first with ⟨hreap, -⟩ | ⟨p, code, hpick, hreap⟩
  · simp only [reap, hreap] at h
    cases h
    exact .inl ⟨rfl, rfl, hvalue⟩
  · obtain ⟨status, hget, -⟩ := hasExited_iff.mp (pick_some hpick).2
    have hcode := hreap
    simp only [tryReap, hpick, hget] at hcode
    cases hcode
    simp only [reap, hreap] at h
    cases h
    exact .inr ⟨p, status, htrying, hpick, hget, rfl, rfl, rfl⟩

theorem State.waitStep_takes (h : s.waitStep w first = some (phase, children, memory)) :
    Leaves s phase children memory ∨ ∃ p status, Takes s w first phase children memory p status := by
  unfold waitStep at h
  cases hp : w.phase with
  | trying =>
    rw [hp] at h
    refine State.reap_takes (.inl hp) (fun value hv => ?_) h
    split at hv
    · cases hv
      exact le_refl _
    · cases hv
  | woken =>
    rw [hp] at h
    exact State.reap_takes (.inr hp) (fun value hv => by cases hv) h
  | called =>
    simp only [hp] at h
    split_ifs at h <;> cases h <;> exact .inl ⟨rfl, rfl, fun value hv => by cases hv <;> decide⟩
  | checking =>
    simp only [hp] at h
    split_ifs at h <;> cases h <;> exact .inl ⟨rfl, rfl, fun value hv => by cases hv <;> decide⟩
  | cloning =>
    simp only [hp] at h
    cases h
    exact .inl ⟨rfl, rfl, fun value hv => by cases hv⟩
  | parking n =>
    simp only [hp] at h
    cases h
    exact .inl ⟨rfl, rfl, fun value hv => by cases hv⟩
  | parked n =>
    simp only [hp] at h
    cases h
  | returned value =>
    simp only [hp] at h
    cases h

theorem Takes.exited (h : Takes s w first phase children memory p status) : status.exited = true := by
  obtain ⟨status', hget, hexited⟩ := hasExited_iff.mp (pick_some h.picked).2
  cases h.entry.symm.trans hget
  exact hexited

/-- A caller that can be told of the child gets its number, with the status in place. -/
theorem Takes.told (h : Takes s w first phase children memory p status)
    (hok : w.wstatus = 0 ∨ Fits s.memory w.wstatus 4) :
    phase = .returned p.toInt ∧ statusAt memory w.wstatus status.exitCode = true := by
  obtain ⟨memory', hwrite, hstatus⟩ := writeWstatus_ok hok p status.exitCode
  refine ⟨by rw [h.returns, hwrite], ?_⟩
  rw [h.written, hwrite]
  by_cases hnull : w.wstatus = 0
  · simp [statusAt, hnull]
  · rw [if_neg hnull] at hstatus
    simp [statusAt, hstatus, Except.toOption]

theorem Takes.handed (h : Takes s w first (.returned p.toInt) children memory p status)
    (hpos : 0 < p.toInt) (hstatus : statusAt memory w.wstatus status.exitCode = true) :
    c ∈ handedOver s.children memory w.wstatus p.toInt ↔ c.1 = p ∧ Ended s.children c := by
  rw [mem_handedOver]
  constructor
  · rintro ⟨-, heq, status', hget, hnotify, hexited, -⟩
    exact ⟨(Int32.toInt_inj.mp heq).symm, status', hget, hnotify, hexited⟩
  · rintro ⟨rfl, status', hget, hnotify, hexited⟩
    cases h.entry.symm.trans hget
    exact ⟨hpos, rfl, status, hget, hnotify, hexited, hstatus⟩

theorem Leaves.none_handed (h : Leaves s phase children memory) :
    ∀ value, phase = .returned value → handedOver s.children memory' wstatus value = [] := by
  intro value hphase
  have hle := h.value value hphase
  refine List.eq_nil_iff_forall_not_mem.mpr fun c hc => ?_
  have hpos := (mem_handedOver.mp hc).1
  omega

/-- A step of the kernel lets a child that has ended go only by handing it over. -/
theorem State.next_moves (hok : Collectable s a) (h : s.next a = some s') :
    Moves s.children s.notifies s'.children s'.notifies (s.hands a s') := by
  cases a with
  | call pid wstatus options =>
    cases h
    exact .same _ _
  | advance i first =>
    obtain ⟨w, hw, h⟩ := Option.bind_eq_some_iff.mp h
    obtain ⟨⟨phase, children, memory⟩, hstep, rfl⟩ := Option.map_eq_some_iff.mp h
    simp only [hands, hw, State.getElem?_advanced hw, Option.map_some]
    rcases State.waitStep_takes hstep with hleaves | ⟨p, status, htakes⟩
    · rw [hleaves.table]
      cases phase with
      | returned value =>
        dsimp only
        rw [hleaves.none_handed value rfl]
        exact .same _ _
      | _ => exact .same _ _
    · obtain ⟨hpos, hwstatus⟩ := hok w hw htakes.trying p htakes.picked
      obtain ⟨rfl, hstatus⟩ := htakes.told hwstatus
      rw [htakes.table]
      exact .erase (nodup_ids ..) fun c => htakes.handed hpos hstatus
  | fork =>
    cases h
    exact .register hok 0
  | runChild pid code =>
    cases h
    exact .register hok 0
  | registerAndSignal pid code =>
    cases h
    simp only [State.registerAndSignal, hands]
    cases hget : s.children.get? pid with
    | some entry => exact .markExited hget code
    | none => exact .reaped hget code
  | reapAllChildren drained =>
    simp only [next, State.reapAllChildren] at h
    split at h
    · cases h
      exact .markAllExited _ _
    · cases h
  | signal j =>
    simp only [next, State.signal] at h
    split at h
    · split at h
      · rename_i hget
        cases h
        exact .markExited hget _
      · cases h
        exact .same _ _
    · cases h
      exact .same _ _
    · cases h
    · cases h

-- ---------------------------------------------------------------------------
-- Runs
-- ---------------------------------------------------------------------------

/-- Every child that has ended waits in the table or was handed over, once. -/
structure Accounted (b : Books) : Prop where
  ended_nodup : b.ended.Nodup
  handed_nodup : b.handed.Nodup
  account : ∀ c, c ∈ b.ended ↔ c ∈ b.handed ∨ Ended b.state.children c
  apart : ∀ c ∈ b.handed, ¬ Ended b.state.children c

/-- An ended child leaves the table by the return of its number, with its status written;
a negative return takes none. -/
structure Lossless (s : State) (a : Act) (s' : State) : Prop where
  removed : ∀ c, Ended s.children c → ¬ Ended s'.children c → ∃ i first w status,
    a = .advance i first ∧ s.waits[i]? = some w ∧
      s'.waits[i]?.map Wait.phase = some (.returned c.1.toInt) ∧
      s.children.get? c.1 = some status ∧ statusAt s'.memory w.wstatus status.exitCode = true
  refused : ∀ i first value, a = .advance i first →
    s'.waits[i]?.map Wait.phase = some (.returned value) → value < 0 → s'.children = s.children

/-- A child that waits in the table is there for the next call. -/
def Retried (s : State) : Prop :=
  ∀ c, Ended s.children c → 0 < c.1.toInt → ∀ first,
    wait4 s.children s.memory c.1.toInt 0 0 first =
      .returns c.1.toInt (s.children.erase c.1) s.memory

/-- The numbers of the entries' `Notify` have been given out. -/
def Numbered (s : State) : Prop := ∀ p status, s.children.get? p = some status → status.notify < s.notifies

theorem retried (s : State) : Retried s := by
  rintro c ⟨status, hget, hnotify, hexited⟩ hpos first
  have hge : -1 ≤ c.1.toInt := by omega
  have hpid : Matches c.1.toInt c.1 := by
    rw [← asksFor_iff hge c.1.toInt_lt, AsksFor, if_pos hpos]
  have hne : s.children.entries ≠ [] := by
    intro hnil
    have hmem := HashMap.get?_eq_some_iff.mp hget
    rw [hnil] at hmem
    cases hmem
  rcases wait4_cases (.inl rfl) (.inl rfl) hge hne first with
    ⟨p, status', memory', hpick, -, hwait, hmemory⟩ | ⟨hnone, -⟩
  · have ht : target c.1.toInt = some (Int32.ofInt c.1.toInt) := if_pos hpos
    have hp := (matches_of_target ht).mp (pick_some hpick).1
    rw [← (matches_of_target ht).mp hpid] at hp
    rw [if_pos rfl] at hmemory
    rw [hwait, hp, hmemory]
  · exact absurd ⟨c.1, hpid, hasExited_iff.mpr ⟨status, hget, hexited⟩⟩ hnone

theorem State.next_lossless (hok : Collectable s a) (h : s.next a = some s') : Lossless s a s' := by
  constructor
  · intro c hended hgone
    have htaken := ((State.next_moves hok h).kept c hended).resolve_left hgone
    unfold hands at htaken
    split at htaken
    · rename_i i first
      split at htaken
      · rename_i w value hw hphase
        obtain ⟨-, rfl, status, hget, -, -, hstatus⟩ := mem_handedOver.mp htaken
        exact ⟨i, first, w, status, rfl, hw, hphase, hget, hstatus⟩
      · cases htaken
    · cases htaken
  · rintro i first value rfl hvalue hneg
    obtain ⟨w, hw, h⟩ := Option.bind_eq_some_iff.mp h
    obtain ⟨⟨phase, children, memory⟩, hstep, rfl⟩ := Option.map_eq_some_iff.mp h
    rw [State.getElem?_advanced hw] at hvalue
    rcases State.waitStep_takes hstep with hleaves | ⟨p, status, htakes⟩
    · exact hleaves.table
    · obtain ⟨hpos, hwstatus⟩ := hok w hw htakes.trying p htakes.picked
      obtain ⟨rfl, -⟩ := htakes.told hwstatus
      cases hvalue
      omega

def Books.Inv (b : Books) : Prop :=
  Ledger.Balanced Prod.snd (Live b.state.children) (Ended b.state.children) b.state.notifies b.ended b.handed

theorem Books.start_inv (hfresh : Numbered s) : (Books.start s).Inv := by
  refine .start (nodup_ids ..) (fun c => mem_endedIn) (fun c hc => hc.not_ended) ?_
  rintro c (⟨status, hget, hnotify, -⟩ | ⟨status, hget, hnotify, -⟩)
  · exact hnotify ▸ hfresh c.1 status hget
  · exact hnotify ▸ hfresh c.1 status hget

theorem Books.next_inv {b b' : Books} (h : b.Inv) (hok : Collectable b.state a) (hs : b.next a = some b') :
    b'.Inv := by
  obtain ⟨s', hnext, rfl⟩ := Option.map_eq_some_iff.mp hs
  refine Ledger.Balanced.step h (State.next_moves hok hnext) ((nodup_ids ..).filter _) fun c => ?_
  simp [List.mem_filter, mem_endedIn]

/-- Along every run of steps that lose no status: what has ended is in the table or was
handed over, never twice; each step keeps to that, and a retry finds what is left. -/
theorem statuses_handed_over_once {s₀ : State} {b : Books} (hfresh : Numbered s₀)
    (h : Reaches Books.next (fun b a => Collectable b.state a) (.start s₀) b) :
    Accounted b ∧ Retried b.state ∧
      ∀ a b', Collectable b.state a → b.next a = some b' → Lossless b.state a b'.state := by
  have hinv : b.Inv := h.invariant (Books.start_inv hfresh) fun _ _ _ hb hok hs => Books.next_inv hb hok hs
  refine ⟨⟨hinv.came_nodup, hinv.handed_nodup, hinv.account, hinv.apart⟩, retried b.state, ?_⟩
  intro a b' hok hs
  obtain ⟨s', hnext, rfl⟩ := Option.map_eq_some_iff.mp hs
  exact State.next_lossless hok hnext

def Books.childEnded (memory : Option MemoryKind) (waits : List Wait) : Books where
  state :=
    { children := HashMap.empty.insert 2 { exitCode := 0, exited := true, notify := 1 }
      nextPid := 3
      notifies := 2
      memory
      waits
      signals := [.firing [1, CHILD_EVENT]] }
  ended := [(2, 1)]
  handed := []

theorem childEnded_reached (memory : Option MemoryKind) :
    Reaches Books.next (fun b a => Collectable b.state a) (.start { State.init with memory })
      (.childEnded memory []) := by
  have hfork : (Books.start { State.init with memory }).next .fork = some _ := rfl
  have hend : Books.next { state := State.fork { State.init with memory }, ended := [], handed := [] }
      (.reapAllChildren [1]) = some (.childEnded memory []) := rfl
  have hfree : Collectable (Books.start { State.init with memory }).state .fork := rfl
  exact .step (a := .reapAllChildren [1]) (.step .start hfree hfork) trivial hend

def Books.collecting (memory : Option MemoryKind) (wstatus : Int) (phase : Phase) : Books :=
  .childEnded memory [{ pid := 2, wstatus, options := 0, phase }]

theorem collecting_reached (memory : Option MemoryKind) (wstatus : Int) :
    Reaches Books.next (fun b a => Collectable b.state a) (.start { State.init with memory })
      (.collecting memory wstatus .trying) := by
  have hcall : (Books.childEnded memory []).next (.call 2 wstatus 0) =
    some (.collecting memory wstatus .called) := rfl
  have hok : Collectable (Books.collecting memory wstatus .called).state (.advance 0 0) := by
    intro w hw htrying
    cases hw
    rcases htrying with h | h <;> cases h
  have hflags : ¬ BitVec.ofInt 32 0 &&& ~~~WAIT4_SUPPORTED_V1 ≠ 0 := by decide
  have hpid : ¬ (2 : Int) < -1 := by decide
  have hgo : (Books.collecting memory wstatus .called).state.waitStep
      { pid := 2, wstatus, options := 0, phase := .called } 0 = some (.trying, _, _) :=
    State.waitStep_called rfl hflags hpid Bool.false_ne_true
  have hstep : (Books.collecting memory wstatus .called).state.next (.advance 0 0) =
    some (Books.collecting memory wstatus .trying).state := State.next_advance rfl hgo
  have hlook : (Books.collecting memory wstatus .called).next (.advance 0 0) =
      some (.collecting memory wstatus .trying) := by
    rw [Books.next, hstep]
    rfl
  exact .step (.step (a := .call 2 wstatus 0) (childEnded_reached memory) trivial hcall) hok hlook

/-- Without a pointer the child is handed over, once. -/
theorem statuses_handed_over_once_null : ∃ b, Numbered State.init ∧
    Reaches Books.next (fun b a => Collectable b.state a) (.start State.init) b ∧
      b.state.waits.map Wait.phase = [.returned 2] ∧ b.handed = [(2, 1)] ∧ Accounted b ∧ Retried b.state := by
  have hfresh : Numbered State.init := fun p status h => by cases h
  have hok : Collectable (Books.collecting none 0 .trying).state (.advance 0 0) := by
    intro w hw _ p hp
    cases hw
    cases hp
    exact ⟨by decide, .inl rfl⟩
  have hnext : (Books.collecting none 0 .trying).next (.advance 0 0) = some _ := rfl
  have hreach := (collecting_reached none 0).step hok hnext
  obtain ⟨haccounted, hretried, -⟩ := statuses_handed_over_once hfresh hreach
  exact ⟨_, hfresh, hreach, rfl, rfl, haccounted, hretried⟩

/-- The pointer is bad: the call returns `-EFAULT` and the child is gone. -/
theorem bad_pointer_loses_child : ∃ b b',
    Reaches Books.next (fun b a => Collectable b.state a)
      (.start { State.init with memory := some (.owned .zeroPage) }) b ∧
    b.next (.advance 0 0) = some b' ∧ b'.state.waits.map Wait.phase = [.returned (-EFAULT)] ∧
    b'.state.children.entries = [] ∧ ¬ Accounted b' ∧ ¬ Lossless b.state (.advance 0 0) b'.state := by
  have hnext : (Books.collecting (some (.owned .zeroPage)) (-4) .trying).next (.advance 0 0) = some _ := rfl
  refine ⟨_, _, collecting_reached _ _, hnext, rfl, rfl, fun h => ?_, fun h => ?_⟩
  · rcases (h.account (2, 1)).mp List.mem_cons_self with hhanded | ⟨status, hget, -⟩
    · cases hhanded
    · cases hget
  · have hsame := h.refused 0 0 (-EFAULT) rfl rfl (by decide)
    have hgone := congrArg (fun m => HashMap.containsKey m 2) hsame
    cases hgone

end EdgeLibos.Process
