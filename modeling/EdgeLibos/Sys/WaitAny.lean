import EdgeLibos.Lib.Broadcast
import EdgeLibos.Sys.Poll

/-!
# Waiting for any of several `Notify` objects

The two functions `wait_any`, as futures that are polled while objects are fired. That
of `poll` races all its objects; that of the epoll calls races the first four, and goes
on to wait for one of the next four when one of them was fired.
-/

namespace EdgeLibos.Sys

open Lib

/-- The future between two polls: what it races, and the objects that come after. -/
inductive WaitAny (B : Broadcast)
  | pending
  | racing (batch : List B.Notified) (rest : List Nat)
  | ready

namespace WaitAny

variable {B : Broadcast}

def nextBatch (s : B.State) (slice : List Nat) : WaitAny B :=
  if slice.isEmpty then .ready
  else
    let n := min slice.length 4
    .racing ((slice.take n).map (B.notified s)) (slice.drop n)

/-- The first poll of the `wait_any` of the epoll calls. -/
def startEpoll (s : B.State) (notifies : List Nat) : WaitAny B :=
  if notifies.isEmpty then .pending
  else if notifies.length ≤ 4 then .racing (notifies.map (B.notified s)) []
  else nextBatch s notifies

/-- The first poll of the `wait_any` of `poll`, which hands all to `select_all`. -/
def startPoll (s : B.State) (wakes : List Nat) : WaitAny B :=
  if wakes.isEmpty then .pending else .racing (wakes.map (B.notified s)) []

/-- A later poll. The futures of a new batch are not complete yet. -/
def poll (s : B.State) : WaitAny B → WaitAny B
  | .racing batch rest => if batch.any (B.complete s) then nextBatch s rest else .racing batch rest
  | .pending => .pending
  | .ready => .ready

inductive Event
  | fire (n : Nat)
  | poll
  deriving DecidableEq, Repr

def step (x : B.State × WaitAny B) : Event → B.State × WaitAny B
  | .fire n => (B.fire x.1 n, x.2)
  | .poll => (x.1, x.2.poll x.1)

/-- The wait begins, events happen, and the poll after them finds the future complete. -/
def Completes (start : B.State → List Nat → WaitAny B) (s : B.State) (ns : List Nat)
    (events : List Event) : Prop :=
  let x := events.foldl step (s, start s ns)
  x.2.poll x.1 = .ready

/-- Complete as soon as one of the objects was fired, and not before. -/
def Disjunction (start : B.State → List Nat → WaitAny B) (ns : List Nat) : Prop :=
  ∀ s events, Completes start s ns events ↔ ∃ n ∈ ns, Event.fire n ∈ events

-- ---------------------------------------------------------------------------
-- A race of all objects
-- ---------------------------------------------------------------------------

def Event.fired? : Event → Option Nat
  | .fire n => some n
  | .poll => none

theorem mem_fired {events : List Event} : n ∈ events.filterMap Event.fired? ↔ Event.fire n ∈ events := by
  rw [List.mem_filterMap]
  constructor
  · rintro ⟨e, he, hn⟩
    cases e with
    | fire k =>
      cases hn
      exact he
    | poll => cases hn
  · exact fun h => ⟨_, h, rfl⟩

theorem poll_ready_iff (s : B.State) (batch : List B.Notified) :
    poll s (.racing batch []) = .ready ↔ batch.any (B.complete s) = true := by
  rw [poll]
  split
  · rename_i h
    exact iff_of_true rfl h
  · rename_i h
    exact iff_of_false (fun he => by cases he) h

theorem race_events (s : B.State) (ns : List Nat) (events : List Event) :
    (events.foldl step (s, .racing (ns.map (B.notified s)) [])).1 =
        (events.filterMap Event.fired?).foldl B.fire s ∧
      ((events.foldl step (s, .racing (ns.map (B.notified s)) [])).2 = .racing (ns.map (B.notified s)) [] ∨
        (events.foldl step (s, .racing (ns.map (B.notified s)) [])).2 = .ready ∧
          ∃ n ∈ ns, n ∈ events.filterMap Event.fired?) := by
  induction events using List.reverseRecOn with
  | nil => exact ⟨rfl, .inl rfl⟩
  | append_singleton events e ih =>
    obtain ⟨hs, hf⟩ := ih
    rw [List.foldl_append, List.foldl_cons, List.foldl_nil, List.filterMap_append]
    cases e with
    | fire k =>
      refine ⟨?_, ?_⟩
      · rw [step, hs, List.foldl_append]
        rfl
      · rcases hf with hf | ⟨hf, n, hn, hfired⟩
        · exact .inl hf
        · exact .inr ⟨hf, n, hn, List.mem_append_left _ hfired⟩
    | poll =>
      have hnone : [Event.poll].filterMap Event.fired? = [] := rfl
      rw [hnone, List.append_nil]
      refine ⟨hs, ?_⟩
      rcases hf with hf | ⟨hf, hfired⟩
      · rw [step, hf, hs]
        by_cases hany : (ns.map (B.notified s)).any
            (B.complete ((events.filterMap Event.fired?).foldl B.fire s)) = true
        · exact .inr ⟨(poll_ready_iff ..).mpr hany, (B.any_complete ..).mp hany⟩
        · exact .inl (if_neg hany)
      · rw [step, hf]
        exact .inr ⟨rfl, hfired⟩

theorem disjunction_of_race {start : B.State → List Nat → WaitAny B}
    (h : ∀ s, start s ns = .racing (ns.map (B.notified s)) []) : Disjunction start ns := by
  intro s events
  obtain ⟨hs, hf⟩ := race_events s ns events
  simp only [Completes, h, ← mem_fired]
  rcases hf with hf | ⟨hf, hfired⟩
  · rw [hf, hs, poll_ready_iff, B.any_complete]
  · rw [hf]
    exact iff_of_true rfl hfired

theorem startPoll_disjunction (h : ns ≠ []) : Disjunction (B := B) startPoll ns :=
  disjunction_of_race fun s => if_neg (by rwa [List.isEmpty_iff])

-- ---------------------------------------------------------------------------
-- Batches
-- ---------------------------------------------------------------------------

/-- The objects raced first are those that `epoll_wait` is woken by. -/
theorem startEpoll_eq (h : ns ≠ []) (s : B.State) :
    startEpoll s ns = .racing ((waitAnyFirst ns).map (B.notified s)) (ns.drop 4) := by
  have hne : ¬ ns.isEmpty = true := by rwa [List.isEmpty_iff]
  rw [startEpoll, if_neg hne, waitAnyFirst]
  split
  · rename_i hle
    rw [List.take_of_length_le hle, List.drop_of_length_le hle]
  · rename_i hlong
    simp only [nextBatch, if_neg hne]
    rw [Nat.min_eq_right (by omega)]

/-- With more than four, the firing of one of the first four leads to the next batch. -/
theorem startEpoll_not_complete (h : 4 < (n :: ns).length) (s : B.State) :
    ¬ Completes startEpoll s (n :: ns) [.fire n] := by
  have hany : ((waitAnyFirst (n :: ns)).map (B.notified s)).any (B.complete (B.fire s n)) = true :=
    (B.any_complete s (waitAnyFirst (n :: ns)) [n]).mpr ⟨n, List.mem_cons_self, List.mem_singleton_self n⟩
  have hrest : ¬ ((n :: ns).drop 4).isEmpty = true := by
    rw [List.isEmpty_iff, List.drop_eq_nil_iff]
    omega
  simp only [Completes, startEpoll_eq (List.cons_ne_nil n ns), List.foldl_cons, List.foldl_nil, step, poll]
  rw [if_pos hany, nextBatch, if_neg hrest]
  intro hready
  cases hready

/-- The `wait_any` of the epoll calls is a disjunction, and agrees with that of `poll`,
exactly when it has at most four objects. -/
theorem waitAny_disjunction_iff (B : Broadcast) (ns : List Nat) (h : ns ≠ []) :
    (Disjunction (B := B) startEpoll ns ∧
      ∀ s events, Completes (B := B) startEpoll s ns events ↔ Completes startPoll s ns events) ↔
      ns.length ≤ 4 := by
  constructor
  · rintro ⟨hdis, -⟩
    by_contra hlong
    cases ns with
    | nil => exact h rfl
    | cons n ns =>
      exact startEpoll_not_complete (by omega) B.init
        ((hdis B.init [.fire n]).mpr ⟨n, List.mem_cons_self, List.mem_singleton_self _⟩)
  · intro hle
    have hdis : Disjunction (B := B) startEpoll ns := by
      refine disjunction_of_race fun s => ?_
      rw [startEpoll_eq h, waitAnyFirst, List.take_of_length_le hle, List.drop_of_length_le hle]
    exact ⟨hdis, fun s events => (hdis s events).trans (startPoll_disjunction h s events).symm⟩

theorem waitAny_disjunction_two :
    Disjunction (B := .counters) startEpoll [7, 8] ∧
      ∀ s events, Completes (B := .counters) startEpoll s [7, 8] events ↔ Completes startPoll s [7, 8] events :=
  (waitAny_disjunction_iff .counters [7, 8] (List.cons_ne_nil _ _)).mpr (by decide)

/-- The first of five is fired, and the wait goes on. -/
theorem waitAny_five_sleeps :
    ¬ Completes (B := .counters) startEpoll (fun _ => 0) [0, 1, 2, 3, 4] [.fire 0] ∧
      Completes (B := .counters) startPoll (fun _ => 0) [0, 1, 2, 3, 4] [.fire 0] :=
  ⟨startEpoll_not_complete (by decide) _,
    (startPoll_disjunction (List.cons_ne_nil _ _) _ _).mpr ⟨0, by decide, by decide⟩⟩

end WaitAny

end EdgeLibos.Sys
