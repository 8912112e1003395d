import EdgeLibos.Lib.History
import EdgeLibos.Process.Clone

/-!
# Sending signals

`kill` and `tgkill` record a signal with the process, in a queue that nothing takes from.
`tgkill` asks the registry of numbers, where `clone` and `fork` enter every number they take;
`kill` does not look at it, and knows the caller's own group only.
-/

namespace EdgeLibos.Process.Kill

open Errno Lib

def ESRCH : Int := 3

structure Caller where
  tid : Int32
  tgid : Int32
  deriving DecidableEq, Repr

/-- The process: its numbers, its group, and the signals that were sent to it. -/
structure ProcessState where
  numbering : Numbering
  tgid : Int32
  signalsPending : List Int32

inductive Send
  | kill (caller : Caller) (pid sig : Int)
  | tgkill (caller : Caller) (tgid tid sig : Int)
  deriving DecidableEq, Repr

def ProcessState.push (p : ProcessState) (sig : Int) : ProcessState :=
  { p with signalsPending := p.signalsPending ++ [Int32.ofInt sig] }

def kill (p : ProcessState) (caller : Caller) (pid sig : Int) : Int × ProcessState :=
  if ¬ (0 ≤ sig ∧ sig ≤ 64) then (-EINVAL, p)
  else if pid < -1 then (-EINVAL, p)
  else if pid = 0 then if caller.tgid ≠ p.tgid then (-ESRCH, p) else (0, p.push sig)
  else if 0 < pid then if Int32.ofInt pid ≠ caller.tgid then (-ESRCH, p) else (0, p.push sig)
  else (-EINVAL, p)

/-- Numbers are cut to 32 bits before they are compared. -/
def tgkill (p : ProcessState) (caller : Caller) (tgid tid sig : Int) : Int × ProcessState :=
  if ¬ (0 ≤ sig ∧ sig ≤ 64) then (-EINVAL, p)
  else
    let tgid := if tgid = 0 then caller.tgid.toInt else tgid
    let tid := if tid = 0 then caller.tid.toInt else tid
    if Int32.ofInt tgid ≠ caller.tgid then (-ESRCH, p)
    else if Int32.ofInt tid ∉ p.numbering.threads.tgidRegistry then (-ESRCH, p)
    else (0, p.push sig)

def Send.run (p : ProcessState) : Send → Int × ProcessState
  | .kill caller pid sig => Kill.kill p caller pid sig
  | .tgkill caller tgid tid sig => Kill.tgkill p caller tgid tid sig

inductive Call
  | numbers (a : Numbers)
  | send (s : Send)

def next (p : ProcessState) : Call → Option ProcessState
  | .numbers a => (p.numbering.next a).map fun numbering => { p with numbering }
  | .send s => some (s.run p).2

def ProcessState.start (children : Children) (memory : Option MemoryKind) : ProcessState where
  numbering := .start children memory
  tgid := 1
  signalsPending := []

-- ---------------------------------------------------------------------------
-- What a sender can rely on
-- ---------------------------------------------------------------------------

/-- How many numbers have been taken, and the signals that were sent. -/
structure Inbox where
  taken : Nat
  signals : List Int32
  deriving DecidableEq, Repr

/-- The first thread, or a number that a call has taken, also one that failed. -/
def Numbered (taken : Nat) (tid : Int32) : Prop := tid = 1 ∨ ∃ i < taken, tid = Int32.ofNat (2 + i)

instance (taken : Nat) (tid : Int32) : Decidable (Numbered taken tid) := inferInstanceAs (Decidable (_ ∨ _))

def Send.sig : Send → Int
  | .kill _ _ sig => sig
  | .tgkill _ _ _ sig => sig

/-- The process is the caller's own, and the thread has a number. -/
def Send.Reaches (taken : Nat) : Send → Prop
  | .kill caller pid _ => (pid = 0 ∧ caller.tgid = 1) ∨ (0 < pid ∧ Int32.ofInt pid = caller.tgid)
  | .tgkill caller tgid tid _ =>
    (tgid = 0 ∨ Int32.ofInt tgid = caller.tgid) ∧
      Numbered taken (if tid = 0 then caller.tid else Int32.ofInt tid)

instance (taken : Nat) : (s : Send) → Decidable (s.Reaches taken)
  | .kill _ _ _ => inferInstanceAs (Decidable (_ ∨ _))
  | .tgkill _ _ _ _ => inferInstanceAs (Decidable (_ ∧ _))

def Send.Accepted (taken : Nat) (s : Send) : Prop := (0 ≤ s.sig ∧ s.sig ≤ 64) ∧ s.Reaches taken

instance (taken : Nat) (s : Send) : Decidable (s.Accepted taken) := inferInstanceAs (Decidable (_ ∧ _))

inductive Event
  | took
  | sent (s : Send) (code : Int)
  deriving DecidableEq, Repr

/-- A send succeeds exactly when it is accepted, and is then in the queue. -/
def Inbox.take (b : Inbox) : Event → Option Inbox
  | .took => some { b with taken := b.taken + 1 }
  | .sent s code =>
    if s.Accepted b.taken then
      if code = 0 then some { b with signals := b.signals ++ [Int32.ofInt s.sig] } else none
    else if code = 0 then none
    else some b

def ProcessState.inbox (p : ProcessState) : Inbox := { taken := p.numbering.taken, signals := p.signalsPending }

/-- `clone` takes a number unless it refuses the flags, and `fork` always. -/
def events (p : ProcessState) : Call → List Event
  | .numbers (.clone flags _ _) => if Refused flags then [] else [.took]
  | .numbers (.fork _) => [.took]
  | .numbers (.other _ _) => []
  | .send s => [.sent s (s.run p).1]

-- ---------------------------------------------------------------------------
-- The registry
-- ---------------------------------------------------------------------------

structure Registered (r : Numbering) : Prop where
  counter : r.threads.nextPid = Int32.ofNat (2 + r.taken)
  registry : ∀ tid, tid ∈ r.threads.tgidRegistry ↔ Numbered r.taken tid

theorem numbered_succ (taken : Nat) (tid : Int32) :
    Numbered (taken + 1) tid ↔ tid = Int32.ofNat (2 + taken) ∨ Numbered taken tid := by
  simp only [Numbered, Nat.exists_lt_succ_right, or_comm (a := ∃ m < taken, tid = Int32.ofNat (2 + m)),
    or_left_comm]

theorem start_registered (children : Children) (memory : Option MemoryKind) :
    Registered (.start children memory) :=
  ⟨rfl, fun tid => by simp [Numbering.start, Numbered]⟩

theorem took_registered {r : Numbering} {t : Threads} (h : Registered r)
    (hnext : t.nextPid = r.threads.nextPid + 1)
    (hregistry : t.tgidRegistry = r.threads.tgidRegistry.insert r.threads.nextPid) (value : Int) :
    Registered (r.took value t) := by
  refine ⟨?_, fun tid => ?_⟩
  · simp only [Numbering.took, hnext, h.counter, ← Nat.add_assoc, Int32.ofNat_add]
    rfl
  · simp only [Numbering.took, hregistry, List.mem_insert_iff, h.registry, h.counter, numbered_succ]

theorem clone_registry {flags : BitVec 64} (hflags : ¬ Refused flags) (t : Threads) (ptid ctid : Int) :
    (clone t flags ptid ctid).2.nextPid = t.nextPid + 1 ∧
      (clone t flags ptid ctid).2.tgidRegistry = t.tgidRegistry.insert t.nextPid := by
  unfold clone
  rw [if_neg hflags]
  dsimp only
  split
  · exact ⟨rfl, rfl⟩
  · split
    · exact ⟨rfl, rfl⟩
    · split <;> exact ⟨rfl, rfl⟩

theorem next_registered {r r' : Numbering} {a : Numbers} (h : Registered r) (hs : r.next a = some r') :
    Registered r' := by
  cases a with
  | clone flags ptid ctid =>
    cases hs
    split
    · exact h
    · rename_i hflags
      obtain ⟨hnext, hregistry⟩ := clone_registry hflags r.threads ptid ctid
      exact took_registered h hnext hregistry _
  | fork notify =>
    cases hs
    exact took_registered h rfl rfl _
  | other children memory =>
    cases hs
    exact ⟨h.counter, h.registry⟩

-- ---------------------------------------------------------------------------
-- Sends
-- ---------------------------------------------------------------------------

section
variable {p p' : ProcessState}

theorem run_cases (hgroup : p.tgid = 1) (hreg : Registered p.numbering) (s : Send) :
    (s.Accepted p.numbering.taken ∧ s.run p = (0, p.push s.sig)) ∨
      (¬ s.Accepted p.numbering.taken ∧ (s.run p).1 ≠ 0 ∧ (s.run p).2 = p) := by
  have hinval : -EINVAL ≠ 0 := by decide
  have hsrch : -ESRCH ≠ 0 := by decide
  cases s with
  | kill caller pid sig =>
    simp only [Send.run, Kill.kill, Send.Accepted, Send.Reaches, Send.sig, hgroup]
    by_cases hsig : 0 ≤ sig ∧ sig ≤ 64
    · by_cases hlow : pid < -1
      · exact .inr ⟨by omega, by simp [hsig, hlow, hinval], by simp [hsig, hlow]⟩
      · by_cases hzero : pid = 0
        · by_cases hown : caller.tgid = 1
          · exact .inl (by simp [hsig, hzero, hown])
          · exact .inr (by simp [hsig, hzero, hown, hsrch])
        · by_cases hpos : 0 < pid
          · by_cases hown : Int32.ofInt pid = caller.tgid
            · exact .inl (by simp [hsig, hlow, hzero, hpos, hown])
            · exact .inr (by simp [hsig, hlow, hzero, hpos, hown, hsrch])
          · exact .inr (by simp [hsig, hlow, hzero, hpos, hinval])
    · exact .inr (by simp [hsig, hinval])
  | tgkill caller tgid tid sig =>
    have hgroup : Int32.ofInt (if tgid = 0 then caller.tgid.toInt else tgid) = caller.tgid ↔
        tgid = 0 ∨ Int32.ofInt tgid = caller.tgid := by
      by_cases hzero : tgid = 0
      · simp [hzero]
      · simp [hzero]
    have hthread : Int32.ofInt (if tid = 0 then caller.tid.toInt else tid) =
        if tid = 0 then caller.tid else Int32.ofInt tid := by
      by_cases hzero : tid = 0
      · simp [hzero]
      · simp [hzero]
    simp only [Send.run, Kill.tgkill, Send.Accepted, Send.Reaches, Send.sig, hthread, hreg.registry]
    by_cases hsig : 0 ≤ sig ∧ sig ≤ 64
    · by_cases hown : tgid = 0 ∨ Int32.ofInt tgid = caller.tgid
      · have hown' := hgroup.mpr hown
        by_cases hnumber : Numbered p.numbering.taken (if tid = 0 then caller.tid else Int32.ofInt tid)
        · exact .inl (by simp [hsig, hown, hown', hnumber])
        · exact .inr (by simp [hsig, hown', hnumber, hsrch])
      · exact .inr (by simp [hsig, hown, mt hgroup.mp hown, hsrch])
    · exact .inr (by simp [hsig, hinval])

theorem step_taken (hgroup : p.tgid = 1) (hreg : Registered p.numbering) (hs : next p c = some p') :
    (events p c).foldlM Inbox.take p.inbox = some p'.inbox := by
  cases c with
  | numbers a =>
    obtain ⟨r, hr, rfl⟩ := Option.map_eq_some_iff.mp hs
    cases a with
    | clone flags ptid ctid =>
      cases hr
      simp only [events]
      split <;> rfl
    | fork notify =>
      cases hr
      rfl
    | other children memory =>
      cases hr
      rfl
  | send s =>
    cases hs
    rcases run_cases hgroup hreg s with ⟨hok, hrun⟩ | ⟨hno, hcode, hsame⟩
    · simp [events, Inbox.take, hrun, ProcessState.inbox, hok, ProcessState.push]
    · simp [events, Inbox.take, ProcessState.inbox, hno, hcode, hsame]

/-- The group is the one the kernel starts with, and the registry has the numbers taken. -/
def Known (p : ProcessState) : Prop := p.tgid = 1 ∧ Registered p.numbering

theorem next_known (h : Known p) (hs : next p c = some p') : Known p' := by
  cases c with
  | numbers a =>
    obtain ⟨r, hr, rfl⟩ := Option.map_eq_some_iff.mp hs
    exact ⟨h.1, next_registered h.2 hr⟩
  | send s =>
    cases hs
    rcases run_cases h.1 h.2 s with ⟨-, hrun⟩ | ⟨-, -, hsame⟩
    · rw [hrun]
      exact h
    · rw [hsame]
      exact h

end

/-- In every run of `clone`, `fork`, `kill` and `tgkill`, with other calls between them, a send
succeeds exactly when its signal is one of 0 to 64 and it is for the caller's own process, by
`tgkill` also only for a number that some call has taken; the signals of the sends that
succeeded, and no others, are in the queue in their order, and no call takes one out. -/
theorem signals_recorded {children : Children} {memory : Option MemoryKind} {calls : List Call}
    {p : ProcessState} (h : runFrom next (.start children memory) calls = some p) :
    (history next events (.start children memory) calls).foldlM Inbox.take { taken := 0, signals := [] } =
      some p.inbox :=
  history_taken_of (I := Known) ⟨rfl, start_registered children memory⟩ (fun _ _ _ hk => next_known hk)
    (fun _ _ _ hk => step_taken hk.1 hk.2) h

/-- A thread signals the child that `fork` numbered with `tgkill`; `kill` does not find it. -/
theorem signals_recorded_child :
    ∃ p, runFrom next (.start .empty none) [.send (.tgkill ⟨1, 1⟩ 0 2 15), .numbers (.fork 0),
        .send (.tgkill ⟨1, 1⟩ 0 2 15), .send (.kill ⟨1, 1⟩ 2 9), .send (.kill ⟨1, 1⟩ 0 10)] = some p ∧
      p.signalsPending = [15, 10] ∧
      (history next events (.start .empty none) [.send (.tgkill ⟨1, 1⟩ 0 2 15), .numbers (.fork 0),
        .send (.tgkill ⟨1, 1⟩ 0 2 15), .send (.kill ⟨1, 1⟩ 2 9), .send (.kill ⟨1, 1⟩ 0 10)]).foldlM
          Inbox.take ⟨0, []⟩ = some p.inbox := by
  obtain ⟨p, h, hsignals⟩ : ∃ p, runFrom next (.start .empty none)
      [.send (.tgkill ⟨1, 1⟩ 0 2 15), .numbers (.fork 0), .send (.tgkill ⟨1, 1⟩ 0 2 15),
        .send (.kill ⟨1, 1⟩ 2 9), .send (.kill ⟨1, 1⟩ 0 10)] = some p ∧ p.signalsPending = [15, 10] :=
    ⟨_, rfl, rfl⟩
  exact ⟨p, h, hsignals, signals_recorded h⟩

end EdgeLibos.Process.Kill
