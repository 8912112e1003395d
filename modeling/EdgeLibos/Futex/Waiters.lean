import EdgeLibos.Futex.Queue
import EdgeLibos.Lib.Runs
import Mathlib.Algebra.BigOperators.Group.List.Basic

/-!
# The waiter count

What the count in the table stands for: on each `Notify`, the fibers that
registered on it and have not timed out, less those that wakes have claimed.
`futex_wake` subtracts the fibers it claims, and a woken fiber subtracts
itself once more when it releases its place, from whatever entry its address
has by then. The count is right in every run where no release finds an entry,
unless it is that of the fiber's own `Notify` and the fiber timed out.
-/

namespace EdgeLibos.Futex

open Lib

namespace State

def present (s : State) (n : Nat) : Nat :=
  s.waits.count fun _ w => w.notify = n && w.phase ≠ .timedOut

def claimed (s : State) (n : Nat) : Nat :=
  ((s.wakes.filter fun w => w.notify = n).map fun w => w.toWake).sum

/-- The fibers registered at an address that have neither timed out nor been
claimed by a wake. -/
def unclaimed (s : State) (addr : UInt32) : Nat :=
  (((List.range s.notifies.next).filter fun n => (s.notifies.read n).addr = addr).map
    fun n => s.present n - s.claimed n).sum

/-- The count in the table; an address without an entry counts none. -/
def waiters (s : State) (addr : UInt32) : Nat :=
  match s.table.byAddr.get? addr with
  | some entry => entry.waiters
  | none => 0

/-- A release finds no entry, or the fiber timed out and finds its own. -/
def ReleaseOk (s : State) (i : Nat) : Prop :=
  ∀ e ∈ s.table.byAddr.get? (s.waits.read i).addr,
    (s.waits.read i).phase = .expired ∧ e.notify = (s.waits.read i).notify

instance (s : State) (i : Nat) : Decidable (s.ReleaseOk i) :=
  inferInstanceAs (Decidable (∀ e ∈ s.table.byAddr.get? (s.waits.read i).addr,
    (s.waits.read i).phase = .expired ∧ e.notify = (s.waits.read i).notify))

def Clean (s : State) : Act → Prop
  | .release i => s.ReleaseOk i
  | _ => True

instance (s : State) : (a : Act) → Decidable (s.Clean a)
  | .release i => inferInstanceAs (Decidable (s.ReleaseOk i))
  | .register .. | .poll _ | .expire _ | .wake .. => isTrue trivial

-- ---------------------------------------------------------------------------
-- The invariant
-- ---------------------------------------------------------------------------

structure Counted (s : State) : Prop where
  queued : s.Queued
  entry : ∀ a e, s.table.byAddr.get? a = some e → e.notify < s.notifies.next ∧
    (s.notifies.read e.notify).addr = a ∧ 0 < e.waiters ∧
    s.present e.notify = s.claimed e.notify + e.waiters
  /-- A `Notify` that is not in the table has nobody left to claim. -/
  gone : ∀ n < s.notifies.next, (∀ a e, s.table.byAddr.get? a = some e → e.notify ≠ n) →
    s.present n ≤ s.claimed n
  wakes : ∀ w ∈ s.wakes, w.notify < s.notifies.next

theorem init_counted : init.Counted where
  queued := ⟨fun _ => List.nodup_nil, fun _ _ => ⟨fun h => absurd h List.not_mem_nil,
    fun h => absurd h.1 (Nat.not_lt_zero _)⟩, fun _ h => absurd h (Nat.not_lt_zero _)⟩
  entry := by simp [init, FutexTable.default]
  gone := by simp [init, Heap.empty]
  wakes := by simp [init]

theorem Counted.table {s : State} (h : s.Counted) (a : UInt32) (e : FutexEntry)
    (he : s.table.byAddr.get? a = some e) :
    e.notify < s.notifies.next ∧ (s.notifies.read e.notify).addr = a :=
  ⟨(h.entry a e he).1, (h.entry a e he).2.1⟩

theorem Similar.present {s s' : State} (h : s.Similar s') (n : Nat) :
    s'.present n = s.present n := by
  refine Heap.count_congr h.waitsNext fun i _ => ?_
  rw [h.waitNotify i]
  simp only [ne_eq, h.timedOut i]

theorem Similar.counted {s s' : State} (h : s.Similar s') (hc : s.Counted) (hq : s'.Queued) :
    s'.Counted := by
  have hclaimed (n : Nat) : s'.claimed n = s.claimed n := by simp only [State.claimed, h.wakes]
  refine ⟨hq, fun a e he => ?_, fun n hn hno => ?_, fun w hw => ?_⟩
  · rw [h.table] at he
    rw [h.notifiesNext, h.notifyAddr, h.present, hclaimed]
    exact hc.entry a e he
  · rw [h.table] at hno
    rw [h.notifiesNext] at hn
    rw [h.present, hclaimed]
    exact hc.gone n hn hno
  · rw [h.wakes] at hw
    rw [h.notifiesNext]
    exact hc.wakes w hw

theorem Counted.entry_inj {s : State} (h : s.Counted) (ha : s.table.byAddr.get? a = some e)
    (hb : s.table.byAddr.get? b = some f) (hn : e.notify = f.notify) : a = b := by
  rw [← (h.entry a e ha).2.1, ← (h.entry b f hb).2.1, hn]

/-- One entry gets the count `k`, or goes away when that is 0, and only the fibers and the
claims of its own `Notify` change with it. -/
theorem Counted.setEntry {s s' : State} (h : s.Counted) (hq : s'.Queued)
    (hnotifies : s'.notifies = s.notifies) (he : s.table.byAddr.get? addr = some e)
    (hget : ∀ a, s'.table.byAddr.get? a =
      if a = addr then (if k = 0 then none else some { e with waiters := k }) else s.table.byAddr.get? a)
    (hothers : ∀ n, e.notify ≠ n → s'.present n = s.present n ∧ s'.claimed n = s.claimed n)
    (hown : s'.present e.notify = s'.claimed e.notify + k)
    (hwakes : ∀ w ∈ s'.wakes, w.notify < s.notifies.next) : s'.Counted := by
  obtain ⟨hlt, haddr, -, -⟩ := h.entry addr e he
  refine ⟨hq, fun a f hf => ?_, fun n hn hno => ?_, hnotifies ▸ hwakes⟩
  · rw [hget] at hf
    rw [hnotifies]
    split at hf
    · rename_i hab
      split at hf
      · cases hf
      · rename_i hk
        obtain rfl := Option.some.inj hf
        exact ⟨hlt, hab ▸ haddr, Nat.pos_of_ne_zero hk, hown⟩
    · rename_i hab
      obtain ⟨hlt', haddr', hpos', hcount'⟩ := h.entry a f hf
      obtain ⟨hpresent, hclaimed⟩ := hothers f.notify fun hn => hab (h.entry_inj hf he hn.symm)
      exact ⟨hlt', haddr', hpos', by rw [hpresent, hclaimed, hcount']⟩
  · rw [hnotifies] at hn
    by_cases hne : e.notify = n
    · -- The entry is not in the table any more, so its count is 0.
      subst hne
      have hzero : k = 0 := by
        by_contra hk
        exact hno addr { e with waiters := k } (by rw [hget, if_pos rfl, if_neg hk]) rfl
      rw [hown, hzero]
      exact Nat.le_refl _
    · obtain ⟨hpresent, hclaimed⟩ := hothers n hne
      rw [hpresent, hclaimed]
      refine h.gone n hn fun a f hf hfn => ?_
      by_cases hab : a = addr
      · subst hab
        obtain rfl := Option.some.inj (he.symm.trans hf)
        exact hne hfn
      · exact hno a f (by rw [hget, if_neg hab]; exact hf) hfn

-- ---------------------------------------------------------------------------
-- The steps
-- ---------------------------------------------------------------------------

theorem present_addWait {s s' : State} {w : Wait} (hw : s'.waits = (s.waits.alloc w).2)
    (hp : w.phase ≠ .timedOut) (n : Nat) :
    s'.present n = s.present n + if w.notify = n then 1 else 0 := by
  rw [present, hw, Heap.count_alloc]
  simp [present, hp]

theorem Counted.registerWait {s : State} (h : s.Counted) :
    (s.registerWait addr deadline).Counted := by
  have hq : (s.registerWait addr deadline).Queued := h.queued.registerWait h.table
  cases he : s.table.byAddr.get? addr with
  | some e =>
    obtain ⟨-, -, -, hcount⟩ := h.entry addr e he
    rw [registerWait_old he] at hq ⊢
    refine h.setEntry (k := e.waiters + 1) hq rfl he (fun a => ?_) (fun n hne => ⟨?_, rfl⟩) ?_ h.wakes
    · rw [HashMap.get?_insert, if_neg (Nat.succ_ne_zero _)]
    · rw [present_addWait rfl (by simp), if_neg hne, Nat.add_zero]
    · rw [present_addWait rfl (by simp), if_pos rfl, hcount]
      rfl
  | none =>
    rw [registerWait_new he] at hq ⊢
    -- Nobody is registered on the new `Notify` yet, and no wake has claimed on it.
    have hnew : s.present s.notifies.next = 0 := by
      refine Heap.count_eq_zero fun i hi => ?_
      have := (h.queued.waits i hi).1
      simp only [Bool.and_eq_false_iff, decide_eq_false_iff_not]
      exact .inl (by omega)
    have hnone : s.claimed s.notifies.next = 0 := by
      have hfilter : s.wakes.filter (fun w => w.notify = s.notifies.next) = [] := by
        rw [List.filter_eq_nil_iff]
        intro w hw
        have := h.wakes w hw
        simp only [decide_eq_true_eq]
        omega
      simp [claimed, hfilter]
    refine ⟨hq, fun a f hf => ?_, fun n hn hno => ?_, fun w hw => ?_⟩
    · rw [present_addWait (s := s) rfl (by simp)]
      simp only [HashMap.get?_insert] at hf
      split at hf
      · rename_i hab
        obtain rfl := Option.some.inj hf
        simp only [claimed] at hnone
        simp [claimed, hnew, hnone, hab]
      · rename_i hab
        obtain ⟨hlt', haddr', hpos', hcount'⟩ := h.entry a f hf
        simp only [Heap.alloc_next, Heap.read_alloc_old _ _ hlt']
        rw [if_neg (by omega)]
        exact ⟨by omega, haddr', hpos', hcount'⟩
    · have hne : s.notifies.next ≠ n := hno addr _ (by rw [HashMap.get?_insert, if_pos rfl])
      simp only [Heap.alloc_next] at hn
      rw [present_addWait (s := s) rfl (by simp), if_neg hne]
      refine h.gone n (by omega) fun a f hf hfn => ?_
      have hab : a ≠ addr := by
        rintro rfl
        rw [he] at hf
        cases hf
      exact hno a f (by rw [HashMap.get?_insert, if_neg hab]; exact hf) hfn
    · have := h.wakes w hw
      simp only [Heap.alloc_next]
      omega

theorem present_timedOut {s : State} (hi : i < s.waits.next)
    (hp : (s.waits.read i).phase = .expired) (n : Nat) :
    (s.setPhase i .timedOut).present n + (if (s.waits.read i).notify = n then 1 else 0) =
      s.present n := by
  have := Heap.count_write (P := fun _ w => w.notify = n && w.phase ≠ .timedOut) hi
    { s.waits.read i with phase := .timedOut }
  simpa [present, setPhase, hp] using this

theorem Counted.releaseWoken {s : State} (h : s.Counted) (hi : i < s.waits.next)
    (hp : (s.waits.read i).phase = .woken tag) (hok : s.ReleaseOk i) :
    (s.releaseWait i (.returned tag)).Counted := by
  have hnone : s.table.byAddr.get? (s.waits.read i).addr = none := by
    cases he : s.table.byAddr.get? (s.waits.read i).addr with
    | none => rfl
    | some e =>
      have := (hok e he).1
      rw [hp] at this
      cases this
  have htable : releaseWaiter s.table (s.waits.read i).addr = s.table := by
    simp only [releaseWaiter, hnone]
  have hsim := similar_set (s := s) (n := (s.waits.read i).notify) (i := i) (p := .returned tag)
    (c := s.notifies.read (s.waits.read i).notify) rfl (by simp [hp])
  rw [setNotify_self] at hsim
  unfold releaseWait
  rw [htable]
  exact hsim.counted h (h.queued.setPhase hi (by simp [hp]) (by simp))

theorem Counted.releaseExpired {s : State} (h : s.Counted) (hi : i < s.waits.next)
    (hp : (s.waits.read i).phase = .expired) (hok : s.ReleaseOk i) :
    (s.releaseWait i .timedOut).Counted := by
  have hq : (s.releaseWait i .timedOut).Queued :=
    (h.queued.setPhase hi (by simp [hp]) (by simp)).of_eq rfl rfl
  have hpresent (n : Nat) : (s.releaseWait i .timedOut).present n +
      (if (s.waits.read i).notify = n then 1 else 0) = s.present n := present_timedOut hi hp n
  have hclaimed (n : Nat) : (s.releaseWait i .timedOut).claimed n = s.claimed n := rfl
  cases he : s.table.byAddr.get? (s.waits.read i).addr with
  | none =>
    have htable : (s.releaseWait i .timedOut).table = s.table := by
      simp only [releaseWait, setPhase_table, releaseWaiter, he]
    refine ⟨hq, fun a f hf => ?_, fun n hn hno => ?_, h.wakes⟩
    · rw [htable] at hf
      obtain ⟨hlt, haddr, hpos, hcount⟩ := h.entry a f hf
      have hne : (s.waits.read i).notify ≠ f.notify := by
        intro hn
        rw [← (h.queued.waits i hi).2, hn, haddr, hf] at he
        cases he
      have := hpresent f.notify
      rw [if_neg hne] at this
      exact ⟨hlt, haddr, hpos, by rw [hclaimed]; omega⟩
    · rw [htable] at hno
      have hle := h.gone n hn hno
      have := hpresent n
      rw [hclaimed]
      omega
  | some e =>
    obtain ⟨-, hown⟩ := hok e he
    obtain ⟨-, -, hpos, hcount⟩ := h.entry _ e he
    refine h.setEntry (k := e.waiters - 1) hq rfl he (fun a => ?_) (fun n hne => ⟨?_, rfl⟩) ?_ h.wakes
    · simp only [releaseWait, setPhase_table, releaseWaiter, he, setWaiters_get?]
    · have hstay := hpresent n
      rw [← hown, if_neg hne] at hstay
      exact hstay
    · have hleft := hpresent e.notify
      rw [if_pos hown.symm] at hleft
      rw [hclaimed]
      omega

/-- The wake claims fibers of the entry's own `Notify` and takes them off its count. -/
theorem Counted.futexWake {s : State} (h : s.Counted) : (s.futexWake addr val).Counted := by
  unfold State.futexWake claim
  cases he : s.table.byAddr.get? addr with
  | none => exact h
  | some e =>
    obtain ⟨hlt, haddr, hpos, hcount⟩ := h.entry addr e he
    simp only
    generalize htw : min (max val 0).toNat e.waiters = k
    have hk : k ≤ e.waiters := by omega
    generalize hw : ({ addr, notify := e.notify, toWake := k, before := s.waits.next } : Wake) = w
    have hwn : w.notify = e.notify := by rw [← hw]
    have hwk : w.toWake = k := by rw [← hw]
    have hq : State.Queued { s with
        table := setWaiters s.table addr e (e.waiters - k), wakes := s.wakes ++ [w] } :=
      h.queued.of_eq rfl rfl
    have hclaimed (n : Nat) : State.claimed { s with
        table := setWaiters s.table addr e (e.waiters - k), wakes := s.wakes ++ [w] } n =
        s.claimed n + if e.notify = n then k else 0 := by
      simp only [claimed, List.filter_append, List.map_append, List.sum_append]
      congr 1
      by_cases hn : e.notify = n
      · simp [hwn, hwk, hn]
      · simp [hwn, hn]
    have hc : State.Counted { s with
        table := setWaiters s.table addr e (e.waiters - k), wakes := s.wakes ++ [w] } := by
      refine h.setEntry hq rfl he (setWaiters_get? s.table addr · e _) (fun n hne => ⟨rfl, ?_⟩) ?_ fun v hv => ?_
      · rw [hclaimed, if_neg hne, Nat.add_zero]
      · rw [hclaimed, if_pos rfl]
        simp only [present] at hcount ⊢
        omega
      · rcases List.mem_append.mp hv with hv | hv
        · exact h.wakes v hv
        · obtain rfl := List.mem_singleton.mp hv
          rw [hwn]
          exact hlt
    obtain ⟨hq', hsim⟩ := hq.notifyMany s.wakes.length e.notify k
    exact hsim.counted hc hq'

theorem Counted.step {s s' : State} (h : s.Counted) (hc : s.Clean a) (hn : s.next a = some s') :
    s'.Counted := by
  cases a with
  | register addr deadline =>
    obtain rfl := Option.some.inj hn
    exact h.registerWait
  | poll i =>
    simp only [State.next] at hn
    split at hn
    · rename_i hi
      obtain rfl := Option.some.inj hn
      obtain ⟨hq, hsim⟩ := h.queued.pollWait hi.1 hi.2
      exact hsim.counted h hq
    · cases hn
  | expire i =>
    simp only [State.next] at hn
    split at hn
    · rename_i hi
      obtain rfl := Option.some.inj hn
      obtain ⟨hq, hsim⟩ := h.queued.expireWait hi.1 hi.2.1
      exact hsim.counted h hq
    · cases hn
  | release i =>
    simp only [State.next] at hn
    split at hn
    · rename_i hi
      split at hn
      · rename_i tag hp
        obtain rfl := Option.some.inj hn
        exact h.releaseWoken hi hp hc
      · rename_i hp
        obtain rfl := Option.some.inj hn
        exact h.releaseExpired hi hp hc
      · cases hn
    · cases hn
  | wake addr val =>
    obtain rfl := Option.some.inj hn
    exact h.futexWake

end State

theorem reaches_counted (h : Reaches State.next State.Clean State.init s) : s.Counted :=
  h.invariant State.init_counted fun _ _ _ hi hc hn => hi.step hc hn

/-- Only the `Notify` in the table has fibers left to claim. -/
theorem State.Counted.waiters_eq {s : State} (h : s.Counted) (addr : UInt32) :
    s.waiters addr = s.unclaimed addr := by
  unfold State.waiters State.unclaimed
  cases he : s.table.byAddr.get? addr with
  | none =>
    refine (List.sum_eq_zero fun x hx => ?_).symm
    obtain ⟨n, hn, rfl⟩ := List.mem_map.mp hx
    simp only [List.mem_filter, List.mem_range, decide_eq_true_eq] at hn
    refine Nat.sub_eq_zero_of_le (h.gone n hn.1 fun a e hae hen => ?_)
    rw [← (h.entry a e hae).2.1, hen, hn.2] at hae
    rw [he] at hae
    cases hae
  | some e =>
    obtain ⟨hlt, haddr, -, hcount⟩ := h.entry addr e he
    have hnodup : ((List.range s.notifies.next).filter
        fun n => (s.notifies.read n).addr = addr).Nodup := List.nodup_range.filter _
    have hmem : e.notify ∈ (List.range s.notifies.next).filter
        fun n => (s.notifies.read n).addr = addr := by
      simp [hlt, haddr]
    rw [List.sum_map_eq_nsmul_single e.notify, List.count_eq_one_of_mem hnodup hmem, one_nsmul]
    · simp only
      omega
    · intro n hne hn
      simp only [List.mem_filter, List.mem_range, decide_eq_true_eq] at hn
      refine Nat.sub_eq_zero_of_le (h.gone n hn.1 fun a f haf hfn => ?_)
      rw [← (h.entry a f haf).2.1, hfn, hn.2, he] at haf
      obtain rfl := Option.some.inj haf
      exact hne hfn.symm

/-- In every state of a clean run the table's count is the number of fibers
left to claim, at every address; without an entry that number is zero. -/
theorem waiters_counted (h : Reaches State.next State.Clean State.init s) (addr : UInt32) :
    s.waiters addr = s.unclaimed addr :=
  (reaches_counted h).waiters_eq addr

/-- Two fibers park at one address and one is woken. When it releases its
place the entry is pruned, though the other fiber is still parked. -/
theorem woken_release_prunes_parked :
    ∃ s, Reaches State.next (fun _ _ => True) State.init s ∧
      (s.waits.read 1).phase = .parked ∧ (s.waits.read 1).addr = 8 ∧
      s.table.byAddr.get? 8 = none ∧ s.waiters 8 = 0 ∧ s.unclaimed 8 = 1 := by
  let acts : List Act := [.register 8 false, .register 8 false, .poll 0, .poll 1, .wake 8 1,
    .release 0]
  have hsome : (runFrom State.next State.init acts).isSome := by decide
  obtain ⟨s, hs⟩ := Option.isSome_iff_exists.mp hsome
  have hall : ∀ s' ∈ runFrom State.next State.init acts,
      (s'.waits.read 1).phase = .parked ∧ (s'.waits.read 1).addr = 8 ∧
      s'.table.byAddr.get? 8 = none ∧ s'.waiters 8 = 0 ∧ s'.unclaimed 8 = 1 := by decide
  exact ⟨s, .runFrom .start (runMeets_of_forall fun _ _ => trivial) hs, hall s hs⟩

/-- Two fibers are woken together and one returns; two more register on a new
entry, and one of them times out. -/
theorem waiters_counted_two_rounds :
    ∃ s, Reaches State.next State.Clean State.init s ∧ s.waiters 8 = s.unclaimed 8 ∧
      s.waiters 8 = 1 := by
  let acts : List Act := [.register 8 false, .register 8 false, .poll 0, .poll 1, .wake 8 2,
    .release 0, .register 8 true, .register 8 true, .poll 2, .expire 2, .release 2]
  have hsome : (runFrom State.next State.init acts).isSome := by decide
  obtain ⟨s, hs⟩ := Option.isSome_iff_exists.mp hsome
  have hall : ∀ s' ∈ runFrom State.next State.init acts, s'.waiters 8 = 1 := by decide
  have hrun : Reaches State.next State.Clean State.init s := .runFrom .start (by decide) hs
  exact ⟨s, hrun, waiters_counted hrun 8, hall s hs⟩

end EdgeLibos.Futex
