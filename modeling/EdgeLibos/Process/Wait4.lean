import EdgeLibos.Lib.Runs
import EdgeLibos.Process.Children

/-!
# Waiting for children

`wait4` callers and the threads that report a child's end, as interleaved steps. A
caller checks the table, tries to reap, checks again that its child exists, clones a
`Notify`, parks on it, and after a wake-up tries to reap once more; every access to the
table is one step. On the other side stand `run_child`'s exit path, which registers the
child, marks it and then notifies, `register_and_signal`, and `reap_all_children`, which
`exit` calls. `notify_waiters` wakes those who are parked on the very `Notify` and is
not remembered. `fork` is here because it fills the table.
-/

namespace EdgeLibos.Process

open Errno Lib

-- ---------------------------------------------------------------------------
-- States
-- ---------------------------------------------------------------------------

/-- Where a call of `wait4` stands: what it does next. -/
inductive Phase
  | called
  | trying
  | checking
  | cloning
  | parking (notify : Nat)
  | parked (notify : Nat)
  | woken
  | returned (value : Int)
  deriving DecidableEq, Repr

structure Wait where
  pid : Int
  wstatus : Int
  options : Int
  phase : Phase
  deriving DecidableEq, Repr

def Wait.flags (w : Wait) : BitVec 32 := BitVec.ofInt 32 w.options

/-- A thread that reports an end: a child before it marks its entry, or what is left to
be notified. -/
inductive Signal
  | exiting (pid exitCode : Int32)
  | firing (left : List Nat)
  deriving DecidableEq, Repr

def Signal.left : Signal → List Nat
  | .exiting _ _ => []
  | .firing left => left

structure State where
  children : Children
  nextPid : Int32
  /-- The number of the next `Notify`. -/
  notifies : Nat
  memory : Option MemoryKind
  waits : List Wait
  signals : List Signal

/-- A notification on `n` is still to come. -/
def Pending (signals : List Signal) (n : Nat) : Prop := ∃ sig ∈ signals, n ∈ sig.left

-- ---------------------------------------------------------------------------
-- Steps
-- ---------------------------------------------------------------------------

/-- A caller tries to reap; without success it goes on to `phase`. -/
def State.reap (s : State) (w : Wait) (first : Int32) (phase : Phase) :
    Phase × Children × Option MemoryKind :=
  match tryReap s.children w.pid first with
  | (none, children) => (phase, children, s.memory)
  | (some (picked, exitCode), children) =>
    let (value, memory) := writeWstatusAndReturn s.memory picked exitCode w.wstatus
    (.returned value, children, memory)

def State.waitStep (s : State) (w : Wait) (first : Int32) :
    Option (Phase × Children × Option MemoryKind) :=
  match w.phase with
  | .called =>
    if w.flags &&& ~~~WAIT4_SUPPORTED_V1 ≠ 0 then some (.returned (-EINVAL), s.children, s.memory)
    else if w.pid < -1 then some (.returned (-EINVAL), s.children, s.memory)
    else if s.children.entries.isEmpty then some (.returned (-ECHILD), s.children, s.memory)
    else some (.trying, s.children, s.memory)
  | .trying => some (s.reap w first (if w.flags &&& WNOHANG ≠ 0 then .returned 0 else .checking))
  | .checking =>
    if (target w.pid).all s.children.containsKey then some (.cloning, s.children, s.memory)
    else some (.returned (-ECHILD), s.children, s.memory)
  | .cloning =>
    -- A child that is gone by now leaves the kernel-wide `Notify`.
    some (.parking ((notifyFor s.children w.pid).getD CHILD_EVENT), s.children, s.memory)
  | .parking n => some (.parked n, s.children, s.memory)
  | .woken => some (s.reap w first .cloning)
  | .parked _ | .returned _ => none

def State.advance (s : State) (i : Nat) (first : Int32) : Option State :=
  s.waits[i]?.bind fun w => (s.waitStep w first).map fun (phase, children, memory) =>
    { s with children, memory, waits := s.waits.set i { w with phase } }

def State.register (s : State) (pid : Int32) : State :=
  { s with children := s.children.insert pid (.new 0 s.notifies), notifies := s.notifies + 1 }

def State.fork (s : State) : State := { s.register s.nextPid with nextPid := s.nextPid + 1 }

/-- `_start` has returned with `exitCode`. -/
def State.runChild (s : State) (pid exitCode : Int32) : State :=
  { s.register pid with signals := s.signals ++ [.exiting pid exitCode] }

def State.registerAndSignal (s : State) (pid exitCode : Int32) : State :=
  let signals := s.signals ++ [.firing [CHILD_EVENT]]
  match s.children.get? pid with
  | some entry => { s with children := markExited s.children pid exitCode entry, signals }
  | none =>
    { s with
      children := s.children.insert pid (.reaped exitCode s.notifies)
      notifies := s.notifies + 1
      signals }

/-- `drained` is in the order of the map's iterator. -/
def State.reapAllChildren (s : State) (drained : List Nat) : Option State :=
  if drained.Perm (s.children.entries.map fun e => e.2.notify) then
    some { s with
      children := markAllExited s.children
      signals := s.signals ++ [.firing (drained ++ [CHILD_EVENT])] }
  else none

def Wait.wake (n : Nat) (w : Wait) : Wait := if w.phase = .parked n then { w with phase := .woken } else w

def State.signal (s : State) (j : Nat) : Option State :=
  match s.signals[j]? with
  | some (.exiting pid exitCode) =>
    match s.children.get? pid with
    | some entry => some { s with
        children := markExited s.children pid exitCode entry
        signals := s.signals.set j (.firing [entry.notify, CHILD_EVENT]) }
    | none => some { s with signals := s.signals.set j (.firing [CHILD_EVENT]) }
  | some (.firing (n :: left)) =>
    some { s with waits := s.waits.map (Wait.wake n), signals := s.signals.set j (.firing left) }
  | some (.firing []) | none => none

inductive Act
  | call (pid wstatus options : Int)
  | advance (i : Nat) (first : Int32)
  | fork
  | runChild (pid exitCode : Int32)
  | registerAndSignal (pid exitCode : Int32)
  | reapAllChildren (drained : List Nat)
  | signal (j : Nat)
  deriving DecidableEq, Repr

def State.next (s : State) : Act → Option State
  | .call pid wstatus options =>
    some { s with waits := s.waits ++ [{ pid, wstatus, options, phase := .called }] }
  | .advance i first => s.advance i first
  | .fork => some s.fork
  | .runChild pid exitCode => some (s.runChild pid exitCode)
  | .registerAndSignal pid exitCode => some (s.registerAndSignal pid exitCode)
  | .reapAllChildren drained => s.reapAllChildren drained
  | .signal j => s.signal j

-- ---------------------------------------------------------------------------
-- No exit is missed
-- ---------------------------------------------------------------------------

/-- No one is parked with a child to reap and no notification to come. -/
def NoneMissed (s : State) : Prop :=
  ∀ w ∈ s.waits, ∀ n, w.phase = .parked n → CanReap s.children w.pid → Pending s.signals n

def Wait.Blocking (w : Wait) : Prop := w.flags = 0 ∧ -1 ≤ w.pid

/-- By steps of its own call `i` comes to return `value`. -/
def Returns (s : State) (i : Nat) (value : Int) : Prop :=
  ∃ steps s', (∀ a ∈ steps, ∃ first, a = .advance i first) ∧ runFrom State.next s steps = some s' ∧
    s'.waits[i]?.map Wait.phase = some (.returned value)

/-- A blocking call that has no child left to wait for is not kept waiting. -/
def GoneReturn (s : State) : Prop :=
  ∀ (i : Nat) w, s.waits[i]? = some w → w.Blocking → ¬ HasChild s.children w.pid →
    (∃ value, w.phase = .returned value) ∨ Returns s i (-ECHILD)

def Wait.held (w : Wait) : Option Nat :=
  match w.phase with
  | .parking n | .parked n => some n
  | _ => none

/-- The last try found nothing and the call is parked or on its way there. -/
def Wait.Waiting (w : Wait) : Prop :=
  match w.phase with
  | .checking | .cloning | .parking _ | .parked _ => True
  | _ => False

/-- The `Notify` that a call is parked on or will be. -/
def Wait.parksOn (children : Children) (w : Wait) : Option Nat :=
  match w.phase with
  | .checking | .cloning => notifyFor children w.pid
  | _ => w.held

/-- The call will not look again whether there is a child to wait for. -/
def Wait.Committed (w : Wait) : Prop :=
  match w.phase with
  | .trying => target w.pid = none ∧ w.flags &&& WNOHANG = 0
  | .checking => target w.pid = none
  | .cloning | .parking _ | .parked _ | .woken => True
  | .called | .returned _ => False

/-- Whoever holds the `Notify` of an entry that is replaced is notified before long. -/
def ReplaceCareful (s : State) (pid : Int32) : Prop :=
  ∀ w ∈ s.waits, target w.pid = some pid → ∀ n, w.held = some n → Pending s.signals n

/-- The steps that lose no wake-up. -/
def Careful (s : State) : Act → Prop
  | .fork => ReplaceCareful s s.nextPid
  | .runChild pid _ => ReplaceCareful s pid
  | .registerAndSignal pid _ =>
    -- The child's own `Notify` is not fired.
    ∀ w ∈ s.waits, target w.pid = some pid → w.Waiting →
      ∃ n, w.parksOn s.children = some n ∧ Pending s.signals n
  | .signal j => ∀ n left, s.signals[j]? = some (.firing (n :: left)) →
      -- Those on their way to park are not there yet.
      ∀ w ∈ s.waits, w.phase ≠ .parked n → w.parksOn s.children = some n →
        (¬ CanReap s.children w.pid ∧ notifyFor s.children w.pid = some n) ∨
          Pending (s.signals.set j (.firing left)) n
  | .advance i first => ∀ w, s.waits[i]? = some w → w.phase = .trying ∨ w.phase = .woken →
      ∀ p, pick s.children w.pid first = some p → ∀ j v, j ≠ i → s.waits[j]? = some v →
        v.Committed → HasChild (s.children.erase p) v.pid
  | .call _ _ _ | .reapAllChildren _ => True

-- ---------------------------------------------------------------------------
-- Notifications to come
-- ---------------------------------------------------------------------------

variable {children children' : Children} {signals signals' : List Signal} {sig old : Signal} {w : Wait}

theorem pending_iff : Pending signals n ↔
    ∃ (i : Nat) (sig : Signal), signals[i]? = some sig ∧ n ∈ sig.left := by
  constructor
  · rintro ⟨sig, hmem, hn⟩
    obtain ⟨i, hi⟩ := List.mem_iff_getElem?.mp hmem
    exact ⟨i, sig, hi, hn⟩
  · rintro ⟨i, sig, hi, hn⟩
    exact ⟨sig, List.mem_of_getElem? hi, hn⟩

theorem Pending.append (h : Pending signals n) (more : List Signal) : Pending (signals ++ more) n := by
  obtain ⟨sig, hmem, hn⟩ := h
  exact ⟨sig, List.mem_append_left _ hmem, hn⟩

theorem pending_append_firing (h : n ∈ left) : Pending (signals ++ [.firing left]) n :=
  ⟨.firing left, by simp, h⟩

theorem pending_set_self (hj : signals[j]? = some old) (hn : n ∈ sig.left) :
    Pending (signals.set j sig) n := by
  obtain ⟨hlt, -⟩ := List.getElem?_eq_some_iff.mp hj
  exact pending_iff.mpr ⟨j, sig, by rw [List.getElem?_set_self hlt], hn⟩

theorem Pending.set (h : Pending signals n) (hj : signals[j]? = some old)
    (hkeep : n ∈ old.left → n ∈ sig.left) : Pending (signals.set j sig) n := by
  obtain ⟨i, sig', hi, hn⟩ := pending_iff.mp h
  by_cases hij : j = i
  · subst hij
    obtain rfl := Option.some.inj (hj.symm.trans hi)
    exact pending_set_self hj (hkeep hn)
  · exact pending_iff.mpr ⟨i, sig', by rw [List.getElem?_set_ne hij, hi], hn⟩

-- ---------------------------------------------------------------------------
-- The invariant
-- ---------------------------------------------------------------------------

/-- There is a child for the call to wait for, and what it parks on is about to be
notified or belongs to a child that has not ended. -/
structure Settled (children : Children) (signals : List Signal) (w : Wait) : Prop where
  committed : w.Committed → HasChild children w.pid
  parks : ∀ n, w.parksOn children = some n →
    Pending signals n ∨ (¬ CanReap children w.pid ∧ notifyFor children w.pid = some n)

theorem Wait.parksOn_cases (h : w.parksOn children = some n) :
    w.held = some n ∨ ∀ children', w.parksOn children' = notifyFor children' w.pid := by
  unfold parksOn at h
  cases hp : w.phase with
  | checking => exact .inr fun _ => by rw [parksOn, hp]
  | cloning => exact .inr fun _ => by rw [parksOn, hp]
  | _ =>
    rw [hp] at h
    exact .inl h

theorem Wait.parksOn_of_held (h : w.held = some n) (children : Children) :
    w.parksOn children = some n := by
  cases hp : w.phase <;> simp_all [held, parksOn]

theorem Wait.waiting_of_parksOn (h : w.parksOn children = some n) : w.Waiting := by
  cases hp : w.phase <;> simp_all [parksOn, held, Waiting]

theorem Wait.parksOn_congr (h : notifyFor children' w.pid = notifyFor children w.pid) :
    w.parksOn children' = w.parksOn children := by
  cases hp : w.phase <;> simp only [parksOn, hp, h]

theorem Settled.idle (h : w.phase = .called ∨ ∃ value, w.phase = .returned value) :
    Settled children signals w := by
  rcases h with hp | ⟨value, hp⟩ <;>
  · constructor
    · simp [Wait.Committed, hp]
    · simp [Wait.parksOn, Wait.held, hp]

/-- A change of the table that keeps the `Notify` a call waits on, and whose exits are
notified. -/
theorem Settled.change (h : Settled children signals w)
    (hchild : HasChild children w.pid → HasChild children' w.pid)
    (hnotify : notifyFor children' w.pid = notifyFor children w.pid)
    (hpending : ∀ n, Pending signals n → Pending signals' n)
    (hreap : ∀ n, notifyFor children w.pid = some n →
      Pending signals' n ∨ (CanReap children' w.pid → CanReap children w.pid)) :
    Settled children' signals' w := by
  refine ⟨fun hc => hchild (h.committed hc), fun n hn => ?_⟩
  rw [Wait.parksOn_congr hnotify] at hn
  rcases h.parks n hn with hp | ⟨hnone, hcur⟩
  · exact .inl (hpending n hp)
  · rcases hreap n hcur with hp | hback
    · exact .inl hp
    · exact .inr ⟨fun hcan => hnone (hback hcan), hnotify.trans hcur⟩

theorem Settled.of_signals (h : Settled children signals w)
    (hpending : ∀ n, Pending signals n → Pending signals' n) : Settled children signals' w :=
  h.change id rfl hpending fun _ _ => .inr id

theorem Settled.insert_new (h : Settled children signals w)
    (hheld : target w.pid = some p → ∀ n, w.held = some n → Pending signals n) :
    Settled (children.insert p (.new code k)) signals w := by
  cases ht : target w.pid with
  | none =>
    refine h.change (·.insert ..) ?_ (fun _ => id) fun _ _ => .inr CanReap.of_insert_new
    rw [notifyFor_any ht, notifyFor_any ht]
  | some t =>
    by_cases htp : t = p
    · subst htp
      refine ⟨fun hc => (h.committed hc).insert .., fun n hn => ?_⟩
      rcases Wait.parksOn_cases hn with hh | hlooks
      · exact .inl (hheld ht n hh)
      · rw [hlooks] at hn
        refine .inr ⟨?_, hn⟩
        rintro ⟨q, hmatch, hexited⟩
        obtain rfl := (matches_of_target ht).mp hmatch
        rw [hasExited, HashMap.get?_insert, if_pos rfl] at hexited
        cases hexited
    · exact h.change (·.insert ..) (notifyFor_insert_ne ht htp) (fun _ => id)
        fun _ _ => .inr fun hcan => hcan.of_insert_ne ht htp

/-- A child that has ended: those who wait for it or for any child are notified. -/
theorem Settled.insert_exited (h : Settled children signals w)
    (hpending : ∀ n, Pending signals n → Pending signals' n) (hany : Pending signals' CHILD_EVENT)
    (hown : target w.pid = some p → Settled (children.insert p status) signals' w) :
    Settled (children.insert p status) signals' w := by
  cases ht : target w.pid with
  | none =>
    refine h.change (·.insert ..) ?_ hpending fun n hn => .inl ?_
    · rw [notifyFor_any ht, notifyFor_any ht]
    · rw [notifyFor_any ht] at hn
      cases hn
      exact hany
  | some t =>
    by_cases htp : t = p
    · exact hown (htp ▸ ht)
    · exact h.change (·.insert ..) (notifyFor_insert_ne ht htp) hpending
        fun _ _ => .inr fun hcan => hcan.of_insert_ne ht htp

theorem notifyFor_markExited (code : Int32) (ht : target w.pid = some p)
    (hget : children.get? p = some entry) :
    notifyFor (markExited children p code entry) w.pid = notifyFor children w.pid ∧
      notifyFor children w.pid = some entry.notify := by
  rw [notifyFor_of_target ht, notifyFor_of_target ht, markExited, HashMap.get?_insert, if_pos rfl, hget]
  exact ⟨rfl, rfl⟩

theorem Settled.erase (h : Settled children signals w)
    (hchild : w.Committed → HasChild (children.erase p) w.pid) :
    Settled (children.erase p) signals w := by
  refine ⟨hchild, fun n hn => ?_⟩
  have hback : notifyFor (children.erase p) w.pid = some n → notifyFor children w.pid = some n := by
    intro hsome
    cases ht : target w.pid with
    | none =>
      rw [notifyFor_any ht] at hsome ⊢
      exact hsome
    | some t =>
      rw [notifyFor_of_target ht, HashMap.get?_erase] at hsome
      rw [notifyFor_of_target ht]
      split at hsome
      · cases hsome
      · exact hsome
  have hforth : HasChild (children.erase p) w.pid → notifyFor children w.pid = some n →
      notifyFor (children.erase p) w.pid = some n := by
    intro hleft hsome
    cases ht : target w.pid with
    | none =>
      rw [notifyFor_any ht] at hsome ⊢
      exact hsome
    | some t =>
      have hkey := (hasChild_of_target ht).mp hleft
      rw [HashMap.containsKey, HashMap.get?_erase] at hkey
      rw [notifyFor_of_target ht] at hsome ⊢
      rw [HashMap.get?_erase]
      split at hkey
      · cases hkey
      · rename_i hne
        rw [if_neg hne]
        exact hsome
  rcases Wait.parksOn_cases hn with hheld | hlooks
  · rcases h.parks n (Wait.parksOn_of_held hheld children) with hp | ⟨hnone, hcur⟩
    · exact .inl hp
    · have hc : w.Committed := by
        cases hp : w.phase <;> simp_all [Wait.held, Wait.Committed]
      exact .inr ⟨fun hcan => hnone hcan.of_erase, hforth (hchild hc) hcur⟩
  · rw [hlooks] at hn
    have hold : w.parksOn children = some n := by
      rw [hlooks]
      exact hback hn
    rcases h.parks n hold with hp | ⟨hnone, -⟩
    · exact .inl hp
    · exact .inr ⟨fun hcan => hnone hcan.of_erase, hn⟩

-- ---------------------------------------------------------------------------
-- A caller's step
-- ---------------------------------------------------------------------------

variable {s s' : State}

theorem State.reap_cases (s : State) (w : Wait) (first : Int32) (phase : Phase) :
    (s.reap w first phase = (phase, s.children, s.memory) ∧ ¬ CanReap s.children w.pid) ∨
      ∃ p value memory, pick s.children w.pid first = some p ∧
        s.reap w first phase = (.returned value, s.children.erase p, memory) := by
  unfold reap
  rcases tryReap_cases s.children w.pid first with ⟨hnone, hcan⟩ | ⟨p, code, hpick, hsome⟩
  · rw [hnone]
    exact .inl ⟨rfl, hcan⟩
  · rw [hsome]
    exact .inr ⟨p, _, _, hpick, rfl⟩

/-- A step leaves the table alone, or it is a try that takes a child and returns. -/
theorem State.waitStep_children (h : s.waitStep w first = some (phase, children, m)) :
    children = s.children ∨ ∃ p value, (w.phase = .trying ∨ w.phase = .woken) ∧
      pick s.children w.pid first = some p ∧ phase = .returned value ∧
      children = s.children.erase p := by
  have htry : ∀ phase', w.phase = .trying ∨ w.phase = .woken →
      some (s.reap w first phase') = some (phase, children, m) →
      children = s.children ∨ ∃ p value, (w.phase = .trying ∨ w.phase = .woken) ∧
        pick s.children w.pid first = some p ∧ phase = .returned value ∧
        children = s.children.erase p := by
    intro phase' hphase h
    rcases s.reap_cases w first phase' with ⟨hreap, -⟩ | ⟨p, value, m', hpick, hreap⟩
    · rw [hreap] at h
      cases h
      exact .inl rfl
    · rw [hreap] at h
      cases h
      exact .inr ⟨p, value, hphase, hpick, rfl, rfl⟩
  unfold waitStep at h
  cases hp : w.phase with
  | trying =>
    rw [hp] at h htry
    exact htry _ (.inl rfl) h
  | woken =>
    rw [hp] at h htry
    exact htry _ (.inr rfl) h
  | called =>
    simp only [hp] at h
    split_ifs at h <;> cases h <;> exact .inl rfl
  | checking =>
    simp only [hp] at h
    split_ifs at h <;> cases h <;> exact .inl rfl
  | cloning =>
    simp only [hp] at h
    cases h
    exact .inl rfl
  | parking n =>
    simp only [hp] at h
    cases h
    exact .inl rfl
  | parked n =>
    simp only [hp] at h
    cases h
  | returned value =>
    simp only [hp] at h
    cases h

theorem exists_notifyFor (h : HasChild children pid) : ∃ n, notifyFor children pid = some n := by
  cases ht : target pid with
  | none => exact ⟨_, notifyFor_any ht⟩
  | some t =>
    have hkey := (hasChild_of_target ht).mp h
    rw [HashMap.containsKey, Option.isSome_iff_exists] at hkey
    obtain ⟨status, hget⟩ := hkey
    exact ⟨status.notify, by rw [notifyFor_of_target ht, hget]; rfl⟩

theorem State.waitStep_settled (h : Settled s.children s.signals w)
    (hstep : s.waitStep w first = some (phase, children, m)) :
    Settled children s.signals { w with phase } := by
  unfold waitStep at hstep
  cases hp : w.phase with
  | called =>
    simp only [hp] at hstep
    split_ifs at hstep with hflags hpid hempty
    · cases hstep
      exact .idle (.inr ⟨_, rfl⟩)
    · cases hstep
      exact .idle (.inr ⟨_, rfl⟩)
    · cases hstep
      exact .idle (.inr ⟨_, rfl⟩)
    · cases hstep
      refine ⟨fun hc => (hasChild_any hc.1).mpr ?_, fun n hn => by cases hn⟩
      simpa using hempty
  | trying =>
    simp only [hp] at hstep
    rcases s.reap_cases w first (if w.flags &&& WNOHANG ≠ 0 then .returned 0 else .checking) with
      ⟨hreap, hcan⟩ | ⟨p, value, m', -, hreap⟩
    · rw [hreap] at hstep
      cases hstep
      split
      · exact .idle (.inr ⟨_, rfl⟩)
      · rename_i hblock
        refine ⟨fun hc => h.committed ?_, fun n hn => .inr ⟨hcan, hn⟩⟩
        simp only [Wait.Committed, hp]
        exact ⟨hc, by simpa using hblock⟩
    · rw [hreap] at hstep
      cases hstep
      exact .idle (.inr ⟨_, rfl⟩)
  | checking =>
    simp only [hp] at hstep
    split_ifs at hstep with hexists
    · cases hstep
      constructor
      · intro _
        cases ht : target w.pid with
        | none => exact h.committed (by simp only [Wait.Committed, hp, ht])
        | some t =>
          rw [ht] at hexists
          exact (hasChild_of_target ht).mpr hexists
      · intro n hn
        exact h.parks n (by simpa only [Wait.parksOn, hp] using hn)
    · cases hstep
      exact .idle (.inr ⟨_, rfl⟩)
  | cloning =>
    simp only [hp] at hstep
    cases hstep
    have hchild : HasChild s.children w.pid := h.committed (by simp only [Wait.Committed, hp])
    refine ⟨fun _ => hchild, fun n hn => ?_⟩
    obtain ⟨n', hn'⟩ := exists_notifyFor hchild
    simp only [Wait.parksOn, Wait.held, hn', Option.getD_some] at hn
    cases hn
    exact h.parks n (by simpa only [Wait.parksOn, hp] using hn')
  | parking n =>
    simp only [hp] at hstep
    cases hstep
    refine ⟨fun _ => h.committed (by simp only [Wait.Committed, hp]), fun m hm => ?_⟩
    exact h.parks m (by simpa only [Wait.parksOn, Wait.held, hp] using hm)
  | woken =>
    simp only [hp] at hstep
    rcases s.reap_cases w first .cloning with ⟨hreap, hcan⟩ | ⟨p, value, m', -, hreap⟩
    · rw [hreap] at hstep
      cases hstep
      exact ⟨fun _ => h.committed (by simp only [Wait.Committed, hp]), fun n hn => .inr ⟨hcan, hn⟩⟩
    · rw [hreap] at hstep
      cases hstep
      exact .idle (.inr ⟨_, rfl⟩)
  | parked n =>
    simp only [hp] at hstep
    cases hstep
  | returned value =>
    simp only [hp] at hstep
    cases hstep

-- ---------------------------------------------------------------------------
-- Every step keeps every caller settled
-- ---------------------------------------------------------------------------

def Inv (s : State) : Prop := ∀ w ∈ s.waits, Settled s.children s.signals w

theorem Inv.advance (h : Inv s) (hcare : Careful s (.advance i first)) (hs : s.advance i first = some s') :
    Inv s' := by
  obtain ⟨w, hw, hs⟩ := Option.bind_eq_some_iff.mp hs
  obtain ⟨⟨phase, children, m⟩, hstep, rfl⟩ := Option.map_eq_some_iff.mp hs
  have hmem := List.mem_of_getElem? hw
  intro v hv
  obtain ⟨j, hj⟩ := List.mem_iff_getElem?.mp hv
  by_cases hij : i = j
  · subst hij
    obtain ⟨hlt, -⟩ := List.getElem?_eq_some_iff.mp hw
    rw [List.getElem?_set_self hlt] at hj
    cases hj
    have hnew := State.waitStep_settled (h w hmem) hstep
    exact hnew
  · rw [List.getElem?_set_ne hij] at hj
    have hold := h v (List.mem_of_getElem? hj)
    rcases State.waitStep_children hstep with hsame | ⟨p, value, hphase, hpick, -, herase⟩
    · simpa only [hsame] using hold
    · simp only [herase]
      exact hold.erase (hcare w hw hphase p hpick j v (Ne.symm hij) hj)

theorem Inv.register (h : Inv s) (hcare : ReplaceCareful s p) : Inv (s.register p) := by
  intro w hw
  exact (h w hw).insert_new (hcare w hw)

theorem Inv.of_signals (h : Inv s) (hpending : ∀ n, Pending s.signals n → Pending signals n) :
    Inv { s with signals } := by
  intro w hw
  exact (h w hw).of_signals hpending

/-- A thread that marks an entry and then has its `Notify` and the common one to fire. -/
theorem Inv.markExited (h : Inv s) (hget : s.children.get? p = some entry)
    (hpending : ∀ n, Pending s.signals n → Pending signals n) (hown : Pending signals entry.notify)
    (hany : Pending signals CHILD_EVENT) :
    Inv { s with children := markExited s.children p code entry, signals } := by
  intro w hw
  refine (h w hw).insert_exited hpending hany fun ht => ?_
  obtain ⟨hsame, hcur⟩ := notifyFor_markExited code ht hget
  refine (h w hw).change (·.insert ..) hsame hpending fun n hn => .inl ?_
  obtain rfl := Option.some.inj (hcur.symm.trans hn)
  exact hown

theorem Inv.registerAndSignal (h : Inv s) (hcare : Careful s (.registerAndSignal p code)) :
    Inv (s.registerAndSignal p code) := by
  have hpending : ∀ n, Pending s.signals n → Pending (s.signals ++ [.firing [CHILD_EVENT]]) n :=
    fun _ hp => hp.append _
  have hany : Pending (s.signals ++ [.firing [CHILD_EVENT]]) CHILD_EVENT :=
    pending_append_firing List.mem_cons_self
  unfold State.registerAndSignal
  dsimp only
  cases hget : s.children.get? p with
  | some entry =>
    intro w hw
    refine (h w hw).insert_exited hpending hany fun ht => ?_
    obtain ⟨hsame, -⟩ := notifyFor_markExited code ht hget
    refine ⟨fun hc => ((h w hw).committed hc).insert .., fun n hn => .inl ?_⟩
    have hold : w.parksOn s.children = some n := (Wait.parksOn_congr hsame).symm.trans hn
    obtain ⟨m, hm, hp⟩ := hcare w hw ht (Wait.waiting_of_parksOn hn)
    obtain rfl := Option.some.inj (hm.symm.trans hold)
    exact hpending _ hp
  | none =>
    intro w hw
    refine (h w hw).insert_exited hpending hany fun ht => ?_
    refine ⟨fun hc => ((h w hw).committed hc).insert .., fun n hn => .inl ?_⟩
    obtain ⟨m, hm, hp⟩ := hcare w hw ht (Wait.waiting_of_parksOn hn)
    -- Without an entry there was no `Notify` to clone.
    rcases Wait.parksOn_cases hm with hheld | hlooks
    · obtain rfl := Option.some.inj ((Wait.parksOn_of_held hheld _).symm.trans hn)
      exact hpending _ hp
    · rw [hlooks, notifyFor_of_target ht, hget] at hm
      cases hm

theorem Inv.reapAllChildren (h : Inv s) (hs : s.reapAllChildren drained = some s') : Inv s' := by
  unfold State.reapAllChildren at hs
  split at hs
  · rename_i hperm
    cases hs
    intro w hw
    refine (h w hw).change HasChild.markAllExited (notifyFor_markAllExited _) (fun _ hp => hp.append _)
      fun n hn => .inl (pending_append_firing ?_)
    cases ht : target w.pid with
    | none =>
      rw [notifyFor_any ht] at hn
      cases hn
      simp
    | some t =>
      rw [notifyFor_of_target ht] at hn
      obtain ⟨status, hget, rfl⟩ := Option.map_eq_some_iff.mp hn
      refine List.mem_append_left _ (hperm.mem_iff.mpr ?_)
      exact List.mem_map_of_mem (HashMap.get?_eq_some_iff.mp hget)
  · cases hs

theorem Inv.fire (h : Inv s) (hj : s.signals[j]? = some (.firing (n :: left)))
    (hcare : ∀ w ∈ s.waits, w.phase ≠ .parked n → w.parksOn s.children = some n →
      (¬ CanReap s.children w.pid ∧ notifyFor s.children w.pid = some n) ∨
        Pending (s.signals.set j (.firing left)) n) :
    Inv { s with waits := s.waits.map (Wait.wake n), signals := s.signals.set j (.firing left) } := by
  intro w' hw'
  obtain ⟨w, hw, rfl⟩ := List.mem_map.mp hw'
  have hold := h w hw
  unfold Wait.wake
  split
  · rename_i hparked
    refine ⟨fun _ => hold.committed (by simp only [Wait.Committed, hparked]), fun m hm => ?_⟩
    cases hm
  · rename_i hparked
    refine ⟨hold.committed, fun m hm => ?_⟩
    rcases hold.parks m hm with hp | hquiet
    · by_cases hmn : m = n
      · subst hmn
        exact (hcare w hw hparked hm).symm
      · refine .inl (hp.set hj fun hmem => ?_)
        rcases List.mem_cons.mp hmem with heq | hrest
        · exact absurd heq hmn
        · exact hrest
    · exact .inr hquiet

theorem Inv.signal (h : Inv s) (hcare : Careful s (.signal j)) (hs : s.signal j = some s') : Inv s' := by
  unfold State.signal at hs
  split at hs
  · rename_i pid code hj
    have hpending : ∀ sig n, Pending s.signals n → Pending (s.signals.set j sig) n := by
      intro sig n hp
      exact hp.set hj fun hmem => by cases hmem
    split at hs
    · rename_i entry hget
      cases hs
      exact h.markExited hget (hpending _) (pending_set_self hj (by simp [Signal.left]))
        (pending_set_self hj (by simp [Signal.left]))
    · cases hs
      exact h.of_signals (hpending _)
  · rename_i n left hj
    cases hs
    exact h.fire hj (hcare n left hj)
  · cases hs
  · cases hs

theorem Inv.step (h : Inv s) (hcare : Careful s a) (hs : s.next a = some s') : Inv s' := by
  cases a with
  | call pid wstatus options =>
    cases hs
    intro w hw
    rcases List.mem_append.mp hw with hold | hnew
    · exact h w hold
    · obtain rfl := List.mem_singleton.mp hnew
      exact .idle (.inl rfl)
  | advance i first => exact h.advance hcare hs
  | fork =>
    cases hs
    exact h.register hcare
  | runChild pid code =>
    cases hs
    exact (h.register hcare).of_signals fun _ hp => hp.append _
  | registerAndSignal pid code =>
    cases hs
    exact h.registerAndSignal hcare
  | reapAllChildren drained => exact h.reapAllChildren hs
  | signal j => exact h.signal hcare hs

-- ---------------------------------------------------------------------------
-- No child left
-- ---------------------------------------------------------------------------

theorem State.next_advance (hw : s.waits[i]? = some w)
    (hstep : s.waitStep w first = some (phase, children, m)) :
    s.next (.advance i first) =
      some { s with children, memory := m, waits := s.waits.set i { w with phase } } := by
  simp only [next, advance, hw, Option.bind_some, hstep, Option.map_some]

theorem State.getElem?_advanced (hw : s.waits[i]? = some w) (w' : Wait) :
    (s.waits.set i w')[i]? = some w' := by
  obtain ⟨hlt, -⟩ := List.getElem?_eq_some_iff.mp hw
  exact List.getElem?_set_self hlt

theorem Returns.now (hw : s.waits[i]? = some w)
    (hstep : s.waitStep w first = some (.returned value, children, m)) : Returns s i value := by
  refine ⟨[.advance i first], _, ?_, (runFrom_cons (State.next_advance hw hstep)).trans rfl, ?_⟩
  · intro a ha
    exact ⟨first, List.mem_singleton.mp ha⟩
  · dsimp only
    rw [State.getElem?_advanced hw]
    rfl

theorem Returns.later (hs : s.next (.advance i first) = some s') (h : Returns s' i value) :
    Returns s i value := by
  obtain ⟨steps, t, hsteps, hrun, ht⟩ := h
  refine ⟨.advance i first :: steps, t, ?_, (runFrom_cons hs).trans hrun, ht⟩
  intro a ha
  rcases List.mem_cons.mp ha with rfl | ha
  · exact ⟨first, rfl⟩
  · exact hsteps a ha

theorem gone_checking (hw : s.waits[i]? = some w) (hp : w.phase = .checking)
    (ht : target w.pid = some t) (hgone : ¬ HasChild s.children w.pid) : Returns s i (-ECHILD) := by
  have hexists : ¬ (target w.pid).all s.children.containsKey = true := by
    rw [ht]
    exact fun hall => hgone ((hasChild_of_target ht).mpr hall)
  have hstep : s.waitStep w 0 = some (.returned (-ECHILD), s.children, s.memory) := by
    simp only [State.waitStep, hp]
    rw [if_neg hexists]
  exact .now hw hstep

theorem gone_trying (hw : s.waits[i]? = some w) (hp : w.phase = .trying) (hb : w.Blocking)
    (ht : target w.pid = some t) (hgone : ¬ HasChild s.children w.pid) : Returns s i (-ECHILD) := by
  have hstep : s.waitStep w 0 = some (.checking, s.children, s.memory) := by
    simp only [State.waitStep, hp]
    rcases s.reap_cases w 0 (if w.flags &&& WNOHANG ≠ 0 then .returned 0 else .checking) with
      ⟨hreap, -⟩ | ⟨p, value, m, hpick, -⟩
    · rw [hreap, hb.1, if_neg (by decide)]
    · exact absurd (CanReap.hasChild ⟨p, pick_some hpick⟩) hgone
  exact .later (State.next_advance hw hstep) (gone_checking (State.getElem?_advanced hw _) rfl ht hgone)

theorem gone_called (hw : s.waits[i]? = some w) (hp : w.phase = .called) (hb : w.Blocking)
    (hgone : ¬ HasChild s.children w.pid) : Returns s i (-ECHILD) := by
  have hflags : ¬ w.flags &&& ~~~WAIT4_SUPPORTED_V1 ≠ 0 := by
    rw [hb.1]
    decide
  have hpid : ¬ w.pid < -1 := Int.not_lt.mpr hb.2
  by_cases hempty : s.children.entries = []
  · have hstep : s.waitStep w 0 = some (.returned (-ECHILD), s.children, s.memory) := by
      simp only [State.waitStep, hp]
      rw [if_neg hflags, if_neg hpid, if_pos (by rw [hempty]; rfl)]
    exact .now hw hstep
  · have hstep : s.waitStep w 0 = some (.trying, s.children, s.memory) := by
      simp only [State.waitStep, hp]
      rw [if_neg hflags, if_neg hpid, if_neg (by simpa using hempty)]
    cases ht : target w.pid with
    | none => exact absurd ((hasChild_any ht).mpr hempty) hgone
    | some t =>
      exact .later (State.next_advance hw hstep)
        (gone_trying (State.getElem?_advanced hw _) rfl hb ht hgone)

theorem Inv.noneMissed (h : Inv s) : NoneMissed s := by
  intro w hw n hparked hcan
  have hon : w.parksOn s.children = some n := by simp only [Wait.parksOn, Wait.held, hparked]
  rcases (h w hw).parks n hon with hp | ⟨hnone, -⟩
  · exact hp
  · exact absurd hcan hnone

theorem Inv.goneReturn (h : Inv s) : GoneReturn s := by
  intro i w hw hb hgone
  have hfree : ¬ w.Committed := fun hc => hgone ((h w (List.mem_of_getElem? hw)).committed hc)
  cases hp : w.phase with
  | called => exact .inr (gone_called hw hp hb hgone)
  | trying =>
    cases ht : target w.pid with
    | none => exact absurd (by simp [Wait.Committed, hp, ht, hb.1]) hfree
    | some t => exact .inr (gone_trying hw hp hb ht hgone)
  | checking =>
    cases ht : target w.pid with
    | none => exact absurd (by simp [Wait.Committed, hp, ht]) hfree
    | some t => exact .inr (gone_checking hw hp ht hgone)
  | returned value => exact .inl ⟨value, rfl⟩
  | _ => exact absurd (by simp [Wait.Committed, hp]) hfree

/-- From any table, while no step loses a wake-up, no caller stays parked with a child
to reap, and one that has no child left returns. -/
theorem wait4_misses_no_exit {s₀ : State} (hw : s₀.waits = [])
    (h : Reaches State.next Careful s₀ s) : NoneMissed s ∧ GoneReturn s := by
  have hstart : Inv s₀ := by
    intro w hmem
    rw [hw] at hmem
    cases hmem
  have hinv : Inv s := h.invariant hstart fun _ _ _ hs hok hnext => hs.step hok hnext
  exact ⟨hinv.noneMissed, hinv.goneReturn⟩

-- ---------------------------------------------------------------------------
-- A parent that waits for its only child
-- ---------------------------------------------------------------------------

def State.init : State :=
  { children := .empty, nextPid := 2, notifies := 1, memory := none, waits := [], signals := [] }

def waitsForChild : List Act :=
  [.fork, .call 2 0 0, .advance 0 0, .advance 0 0, .advance 0 0, .advance 0 0, .advance 0 0]

/-- One caller among reaps cannot get in the way of another. -/
theorem careful_alone (h : s.waits.length ≤ 1) (steps : List Int32) :
    RunMeets State.next Careful s (steps.map fun first => .advance 0 first) := by
  induction steps generalizing s with
  | nil => trivial
  | cons first rest ih =>
    constructor
    · intro w _ _ p _ j v hj hv _
      obtain ⟨hlt, -⟩ := List.getElem?_eq_some_iff.mp hv
      omega
    · intro s' hs
      obtain ⟨w, -, hs⟩ := Option.bind_eq_some_iff.mp hs
      obtain ⟨⟨phase, children, m⟩, -, rfl⟩ := Option.map_eq_some_iff.mp hs
      apply ih
      rwa [List.length_set]

theorem waitsForChild_careful : RunMeets State.next Careful State.init waitsForChild := by
  constructor
  · intro w hw
    cases hw
  · intro s hs
    cases hs
    refine ⟨trivial, fun s hs => ?_⟩
    cases hs
    exact careful_alone (le_refl 1) [0, 0, 0, 0, 0]

def State.at (phase : Phase) : State where
  children := HashMap.empty.insert 2 (.new 0 1)
  nextPid := 3
  notifies := 2
  memory := none
  waits := [{ pid := 2, wstatus := 0, options := 0, phase }]
  signals := []

theorem advance_called : (State.at .called).next (.advance 0 0) = some (State.at .trying) := rfl

theorem advance_trying : (State.at .trying).next (.advance 0 0) = some (State.at .checking) := rfl

theorem advance_checking : (State.at .checking).next (.advance 0 0) = some (State.at .cloning) := rfl

theorem advance_cloning : (State.at .cloning).next (.advance 0 0) = some (State.at (.parking 1)) := rfl

theorem advance_parking : (State.at (.parking 1)).next (.advance 0 0) = some (State.at (.parked 1)) := rfl

theorem run_waitsForChild (rest : List Act) :
    runFrom State.next State.init (waitsForChild ++ rest) = runFrom State.next (State.at (.parked 1)) rest := by
  have hfork : State.init.next .fork = some { State.at .called with waits := [] } := rfl
  have hcall : State.next { State.at .called with waits := [] } (.call 2 0 0) = some (State.at .called) := rfl
  calc runFrom State.next State.init (waitsForChild ++ rest)
    _ = runFrom State.next (State.at .called) (.advance 0 0 :: .advance 0 0 :: .advance 0 0 ::
          .advance 0 0 :: .advance 0 0 :: rest) := (runFrom_cons hfork).trans (runFrom_cons hcall)
    _ = runFrom State.next (State.at .checking) (.advance 0 0 :: .advance 0 0 :: .advance 0 0 :: rest) :=
        (runFrom_cons advance_called).trans (runFrom_cons advance_trying)
    _ = runFrom State.next (State.at (.parking 1)) (.advance 0 0 :: rest) :=
        (runFrom_cons advance_checking).trans (runFrom_cons advance_cloning)
    _ = runFrom State.next (State.at (.parked 1)) rest := runFrom_cons advance_parking

/-- `exit` ends the child that the parked call waits for: its `Notify` is to be fired. -/
theorem wait4_misses_no_exit_parked : ∃ s,
    runFrom State.next State.init (waitsForChild ++ [.reapAllChildren [1]]) = some s ∧
      s.waits.map Wait.phase = [.parked 1] ∧ hasExited s.children 2 = true ∧
      NoneMissed s ∧ GoneReturn s := by
  have hrun : runFrom State.next State.init waitsForChild = some (State.at (.parked 1)) := by
    have h := run_waitsForChild []
    rwa [List.append_nil] at h
  have hreach := Reaches.runFrom .start waitsForChild_careful hrun
  have hnext : (State.at (.parked 1)).next (.reapAllChildren [1]) = some _ := rfl
  have hcare : Careful (State.at (.parked 1)) (.reapAllChildren [1]) := True.intro
  refine ⟨_, (run_waitsForChild _).trans (runFrom_cons hnext), rfl, rfl, ?_⟩
  exact wait4_misses_no_exit rfl (hreach.step hcare hnext)

/-- The child fails before `_start`: `register_and_signal` marks it and leaves the call
parked. -/
theorem failed_child_missed : ∃ s,
    runFrom State.next State.init (waitsForChild ++ [.registerAndSignal 2 139, .signal 0]) = some s ∧
      State.init.waits = [] ∧ ¬ NoneMissed s := by
  have hregister : (State.at (.parked 1)).next (.registerAndSignal 2 139) = some _ := rfl
  have hsignal : State.next ((State.at (.parked 1)).registerAndSignal 2 139) (.signal 0) = some _ := rfl
  refine ⟨_, (run_waitsForChild _).trans ((runFrom_cons hregister).trans (runFrom_cons hsignal)), rfl,
    fun h => ?_⟩
  obtain ⟨sig, hsig, hn⟩ := h _ List.mem_cons_self 1 rfl ⟨2, fun t ht => by cases ht; rfl, rfl⟩
  obtain rfl := List.mem_singleton.mp hsig
  cases hn

end EdgeLibos.Process
