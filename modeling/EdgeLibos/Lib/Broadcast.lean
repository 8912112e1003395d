import Mathlib.Data.List.Basic

/-!
# Broadcast notifications

Objects that can be fired and futures that wait for one of them. A firing is not kept:
it completes the futures that exist already and no later one.
-/

namespace EdgeLibos.Lib

/-- A future of `notified` is complete when its object was fired since. -/
structure Broadcast where
  State : Type
  Notified : Type
  init : State
  fire : State → Nat → State
  notified : State → Nat → Notified
  complete : State → Notified → Bool
  complete_iff : ∀ (s : State) (n : Nat) (fires : List Nat),
    complete (fires.foldl fire s) (notified s n) = true ↔ n ∈ fires

namespace Broadcast

variable (B : Broadcast)

theorem any_complete (s : B.State) (ns fires : List Nat) :
    (ns.map (B.notified s)).any (B.complete (fires.foldl B.fire s)) = true ↔ ∃ n ∈ ns, n ∈ fires := by
  rw [List.any_map, List.any_eq_true]
  exact exists_congr fun n => and_congr_right fun _ => B.complete_iff s n fires

theorem foldl_counter (fires : List Nat) (calls : Nat → Nat) (n : Nat) :
    fires.foldl (fun c k => Function.update c k (c k + 1)) calls n = calls n + fires.count n := by
  induction fires generalizing calls with
  | nil => rfl
  | cons k fires ih =>
    rw [List.foldl_cons, ih, List.count_cons, Function.update_apply]
    by_cases h : n = k
    · subst h
      simp only [if_true, beq_self_eq_true]
      omega
    · rw [if_neg h, if_neg (by simpa using Ne.symm h), Nat.add_zero]

theorem counted_iff (calls : Nat → Nat) (n : Nat) (fires : List Nat) :
    decide (fires.foldl (fun c k => Function.update c k (c k + 1)) calls n ≠ calls n) = true ↔ n ∈ fires := by
  rw [decide_eq_true_eq, foldl_counter, ← List.count_pos_iff]
  omega

def counters : Broadcast where
  State := Nat → Nat
  Notified := Nat × Nat
  init _ := 0
  fire calls n := Function.update calls n (calls n + 1)
  notified calls n := (n, calls n)
  complete calls f := decide (calls f.1 ≠ f.2)
  complete_iff := counted_iff

end Broadcast

end EdgeLibos.Lib
