import EdgeLibos.Futex.Waiters

/-!
# Wakes and waits agree

`futex_wake` returns the number it takes off a counter, and then calls
`notify_one` that often. The two agree as long as each call has a fiber of its
own to complete: one parked on the `Notify`, or, for the last call only, one
that has registered and not polled yet, when no permit is stored. A later
registrant must not take the permit, and no release may spoil the count of
others. In such runs every wake has completed, or holds a permit for, as many
fibers registered before it as it returned, and every parked fiber can be
reached through the table.
-/

namespace EdgeLibos.Futex

open Lib

namespace State

/-- Fibers registered at the wake's address before it that it has completed. -/
def delivered (s : State) (t : Nat) (w : Wake) : Nat :=
  s.waits.count fun i x => i < w.before && x.addr = w.addr && x.phase.wake = some t

/-- Fibers registered on the wake's `Notify` before it that have not polled. -/
def unpolled (s : State) (w : Wake) : Nat :=
  s.waits.count fun i x => i < w.before && x.notify = w.notify && x.phase = .registered

def stored (s : State) (t : Nat) (w : Wake) : Nat :=
  if (s.notifies.read w.notify).permit = some t ∧ 0 < s.unpolled w then 1 else 0

/-- Every wake has completed, or will without another wake, as many fibers
registered before it as it returned. -/
def Agreed (s : State) : Prop :=
  ∀ t w, s.wakes[t]? = some w → s.delivered t w + s.stored t w = w.toWake

/-- The entry at a parked fiber's address holds the `Notify` it is parked on,
and a wake with a large enough value completes it. -/
def Reachable (s : State) : Prop :=
  ∀ i < s.waits.next, (s.waits.read i).phase = .parked →
    ∃ e, s.table.byAddr.get? (s.waits.read i).addr = some e ∧ e.notify = (s.waits.read i).notify ∧
      ∀ val : Int, e.waiters ≤ val →
        ((s.futexWake (s.waits.read i).addr val).waits.read i).phase = .woken s.wakes.length

-- ---------------------------------------------------------------------------
-- The condition
-- ---------------------------------------------------------------------------

/-- Each notification has a fiber to complete, or is the last one and stored
for a registered fiber. -/
def WakeOk (s : State) (addr : UInt32) (val : Int) : Prop :=
  ∀ e ∈ s.table.byAddr.get? addr,
    min (max val 0).toNat e.waiters ≤ (s.notifies.read e.notify).queue.length ∨
    min (max val 0).toNat e.waiters = (s.notifies.read e.notify).queue.length + 1 ∧
      (s.notifies.read e.notify).permit = none ∧
      0 < s.waits.count fun _ x => x.notify = e.notify && x.phase = .registered

/-- A stored permit is taken by a fiber registered before the wake. -/
def PollOk (s : State) (i : Nat) : Prop :=
  ∀ t ∈ (s.notifies.read (s.waits.read i).notify).permit, ∀ w ∈ s.wakes[t]?, i < w.before

def Fair (s : State) : Act → Prop
  | .release i => s.ReleaseOk i
  | .wake addr val => s.WakeOk addr val
  | .poll i => s.PollOk i
  | .register .. | .expire _ => True

instance (s : State) : (a : Act) → Decidable (s.Fair a)
  | .release i => inferInstanceAs (Decidable (s.ReleaseOk i))
  | .wake addr val => inferInstanceAs (Decidable (∀ e ∈ s.table.byAddr.get? addr,
      min (max val 0).toNat e.waiters ≤ (s.notifies.read e.notify).queue.length ∨
      min (max val 0).toNat e.waiters = (s.notifies.read e.notify).queue.length + 1 ∧
        (s.notifies.read e.notify).permit = none ∧
        0 < s.waits.count fun _ x => x.notify = e.notify && x.phase = .registered))
  | .poll i => inferInstanceAs (Decidable (∀ t ∈ (s.notifies.read (s.waits.read i).notify).permit,
      ∀ w ∈ s.wakes[t]?, i < w.before))
  | .register .. | .expire _ => isTrue trivial

theorem Fair.clean {s : State} (h : s.Fair a) : s.Clean a := by
  cases a with
  | release i => exact h
  | _ => trivial

-- ---------------------------------------------------------------------------
-- The invariant
-- ---------------------------------------------------------------------------

def awake (s : State) (n : Nat) : Nat :=
  s.waits.count fun _ x => x.notify = n && x.phase.wake.isSome

/-- What holds while the wake `t₀` still has `owed` notifications of its own
to send through `n₀`; between two steps nothing is owed. -/
structure Settled (s : State) (n₀ t₀ owed : Nat) : Prop where
  queued : s.Queued
  claims : ∀ n, s.claimed n = s.awake n + (if (s.notifies.read n).permit.isSome then 1 else 0) +
    if n = n₀ then owed else 0
  permit : ∀ n t, (s.notifies.read n).permit = some t → (s.notifies.read n).queue = [] ∧
    ∃ w, s.wakes[t]? = some w ∧ w.notify = n ∧ 0 < s.unpolled w
  agreed : ∀ t w, s.wakes[t]? = some w →
    s.delivered t w + (if (s.notifies.read w.notify).permit = some t then 1 else 0) +
      (if t = t₀ then owed else 0) = w.toWake
  past : ∀ w ∈ s.wakes, w.before ≤ s.waits.next ∧ w.notify < s.notifies.next ∧
    (s.notifies.read w.notify).addr = w.addr
  tags : ∀ i < s.waits.next, ∀ t, (s.waits.read i).phase.wake = some t → t < s.wakes.length

theorem init_settled : init.Settled 0 0 0 where
  queued := init_counted.queued
  claims n := by
    rw [ite_self]
    rfl
  permit n t h := by
    have hn : (init.notifies.read n).permit = none := rfl
    rw [hn] at h
    cases h
  agreed t w h := by simp [init] at h
  past w h := by simp [init] at h
  tags i hi := absurd hi (Nat.not_lt_zero _)

-- ---------------------------------------------------------------------------
-- One fiber moves
-- ---------------------------------------------------------------------------

section
variable {s : State} {c : Notify} {p : Phase}

theorem count_set (P : Nat → Wait → Bool) (hi : i < s.waits.next) :
    ((s.setNotify n c).setPhase i p).waits.count P + (if P i (s.waits.read i) then 1 else 0) =
      s.waits.count P + if P i { s.waits.read i with phase := p } then 1 else 0 :=
  Heap.count_write hi _

theorem count_set_same {P : Nat → Wait → Bool} (hi : i < s.waits.next)
    (hP : P i { s.waits.read i with phase := p } = P i (s.waits.read i)) :
    ((s.setNotify n c).setPhase i p).waits.count P = s.waits.count P :=
  Heap.count_write_same hi hP

theorem set_notifyAddr (hc : c.addr = (s.notifies.read n).addr) (m : Nat) :
    (((s.setNotify n c).setPhase i p).notifies.read m).addr = (s.notifies.read m).addr := by
  simp only [setPhase_notifies, setNotify_read]
  split
  · rename_i hm
    rw [hc, hm]
  · rfl

theorem unpolled_set (hi : i < s.waits.next) (hp : p ≠ .registered)
    (h : (s.waits.read i).phase ≠ .registered ∨ (s.waits.read i).notify ≠ w.notify) :
    ((s.setNotify n c).setPhase i p).unpolled w = s.unpolled w := by
  have := count_set (s := s) (n := n) (c := c) (p := p)
    (fun j x => j < w.before && x.notify = w.notify && x.phase = .registered) hi
  unfold unpolled
  rcases h with h | h
  · simpa [hp, h] using this
  · simpa [hp, h] using this

/-- A move that neither delivers a notification nor touches a permit. -/
theorem Settled.quiet (h : s.Settled n₀ t₀ owed) (hi : i < s.waits.next)
    (hn : (s.waits.read i).notify = n) (hwake : p.wake = (s.waits.read i).phase.wake)
    (hp : p ≠ .registered) (hc : c.addr = (s.notifies.read n).addr)
    (hpermit : c.permit = (s.notifies.read n).permit)
    (hreg : (s.notifies.read n).permit ≠ none →
      (s.waits.read i).phase ≠ .registered ∧ c.queue = [])
    (hq : ((s.setNotify n c).setPhase i p).Queued) :
    ((s.setNotify n c).setPhase i p).Settled n₀ t₀ owed := by
  have hread (m : Nat) : (((s.setNotify n c).setPhase i p).notifies.read m).permit =
      (s.notifies.read m).permit := by
    simp only [setPhase_notifies, setNotify_read]
    split
    · rename_i hm
      rw [hpermit, hm]
    · rfl
  have hawake (m : Nat) : ((s.setNotify n c).setPhase i p).awake m = s.awake m :=
    count_set_same hi (by simp only [hwake])
  have hdel (t : Nat) (w : Wake) :
      ((s.setNotify n c).setPhase i p).delivered t w = s.delivered t w :=
    count_set_same hi (by simp only [hwake])
  refine ⟨hq, fun m => ?_, fun m t hm => ?_, fun t w hw => ?_, fun w hw => ?_, fun j hj t ht => ?_⟩
  · rw [hread, hawake]
    exact h.claims m
  · rw [hread] at hm
    obtain ⟨hempty, w, hw, hwn, hun⟩ := h.permit m t hm
    refine ⟨?_, w, hw, hwn, ?_⟩
    · simp only [setPhase_notifies, setNotify_read]
      split
      · rename_i hmn
        subst hmn
        exact (hreg (by simp [hm])).2
      · exact hempty
    · rw [unpolled_set hi hp ?_]
      · exact hun
      · by_cases hmn : m = n
        · subst hmn
          exact .inl (hreg (by simp [hm])).1
        · exact .inr (by rw [hn, hwn]; exact Ne.symm hmn)
  · rw [hdel, hread]
    exact h.agreed t w hw
  · rw [set_notifyAddr hc]
    exact h.past w hw
  · simp only [setPhase_read, setNotify_waits] at ht
    split at ht
    · rw [hwake] at ht
      exact h.tags i hi t ht
    · exact h.tags j hj t ht

theorem deliver_permit (hpermit : c.permit = none) (m : Nat) :
    (((s.setNotify n c).setPhase i (.woken t)).notifies.read m).permit =
      if m = n then none else (s.notifies.read m).permit := by
  simp only [setPhase_notifies, setNotify_read]
  split
  · exact hpermit
  · rfl

theorem deliver_awake (hi : i < s.waits.next) (hn : (s.waits.read i).notify = n)
    (hold : (s.waits.read i).phase.wake = none) (m : Nat) :
    ((s.setNotify n c).setPhase i (.woken t)).awake m = s.awake m + if m = n then 1 else 0 := by
  have hcount := count_set (s := s) (n := n) (c := c) (p := .woken t)
    (fun _ x => x.notify = m && x.phase.wake.isSome) hi
  by_cases hmn : m = n
  · simpa [awake, hold, hn, hmn] using hcount
  · simpa [awake, hold, hn, hmn, Ne.symm hmn] using hcount

theorem deliver_delivered (hi : i < s.waits.next) (hold : (s.waits.read i).phase.wake = none)
    (hw : s.wakes[t]? = some w) (hbefore : i < w.before) (haddr : (s.waits.read i).addr = w.addr)
    (hw' : s.wakes[t']? = some w') :
    ((s.setNotify n c).setPhase i (.woken t)).delivered t' w' =
      s.delivered t' w' + if t' = t then 1 else 0 := by
  have hcount := count_set (s := s) (n := n) (c := c) (p := .woken t)
    (fun j x => j < w'.before && x.addr = w'.addr && x.phase.wake = some t') hi
  by_cases htt : t' = t
  · subst htt
    obtain rfl := Option.some.inj (hw.symm.trans hw')
    simpa [delivered, hold, hbefore, haddr] using hcount
  · simpa [delivered, hold, htt, Ne.symm htt] using hcount

/-- One more fiber is awake for the permit that is gone or the notification no longer owed. -/
theorem Settled.deliver_claims (h : s.Settled n₀ t₀ owed)
    (hcase : ((s.notifies.read n).permit = some t ∧ o = owed) ∨
      ((s.notifies.read n).permit = none ∧ n = n₀ ∧ t = t₀ ∧ owed = o + 1)) (m : Nat) :
    s.claimed m = s.awake m + (if m = n then 1 else 0) +
      (if (if m = n then none else (s.notifies.read m).permit).isSome then 1 else 0) +
      if m = n₀ then o else 0 := by
  have hclaims := h.claims m
  by_cases hmn : m = n
  · subst hmn
    rcases hcase with ⟨hp, rfl⟩ | ⟨hp, rfl, rfl, rfl⟩
    · simp only [hp, Option.isSome_some, if_true] at hclaims
      simp only [if_true, Option.isSome_none, Bool.false_eq_true, if_false]
      omega
    · simp only [hp, Option.isSome_none, Bool.false_eq_true, if_false, if_true] at hclaims
      simp only [if_true, Option.isSome_none, Bool.false_eq_true, if_false]
      omega
  · simp only [hmn, if_false]
    rcases hcase with ⟨-, rfl⟩ | ⟨-, rfl, -, -⟩
    · exact hclaims
    · simpa [hmn] using hclaims

theorem Settled.deliver_agreed (h : s.Settled n₀ t₀ owed) (hw : s.wakes[t]? = some w) (hwn : w.notify = n)
    (hcase : ((s.notifies.read n).permit = some t ∧ o = owed) ∨
      ((s.notifies.read n).permit = none ∧ n = n₀ ∧ t = t₀ ∧ owed = o + 1))
    (hw' : s.wakes[t']? = some w') :
    s.delivered t' w' + (if t' = t then 1 else 0) +
      (if (if w'.notify = n then none else (s.notifies.read w'.notify).permit) = some t' then 1 else 0) +
      (if t' = t₀ then o else 0) = w'.toWake := by
  have hagreed := h.agreed t' w' hw'
  by_cases htt : t' = t
  · subst htt
    obtain rfl := Option.some.inj (hw.symm.trans hw')
    rcases hcase with ⟨hp, rfl⟩ | ⟨hp, rfl, rfl, rfl⟩
    · simp only [hwn, hp, if_true] at hagreed ⊢
      simp only [reduceCtorEq, if_false]
      omega
    · simp only [hwn, hp, if_true, reduceCtorEq, if_false] at hagreed ⊢
      omega
  · have hpold : (if (if w'.notify = n then none else (s.notifies.read w'.notify).permit) =
        some t' then 1 else 0) = if (s.notifies.read w'.notify).permit = some t' then 1 else 0 := by
      split
      · rename_i hwn'
        rcases hcase with ⟨hp, -⟩ | ⟨hp, -⟩
        · simp [hwn', hp, Ne.symm htt]
        · simp [hwn', hp]
      · rfl
    rw [hpold]
    simp only [htt, if_false, Nat.add_zero]
    rcases hcase with ⟨-, rfl⟩ | ⟨-, -, rfl, -⟩
    · exact hagreed
    · simpa [htt] using hagreed

/-- A notification of the wake `t` reaches a fiber registered before it: it was
stored as a permit, or the wake owed it. -/
theorem Settled.deliver (h : s.Settled n₀ t₀ owed) (hi : i < s.waits.next)
    (hn : (s.waits.read i).notify = n) (hold : (s.waits.read i).phase.wake = none)
    (hw : s.wakes[t]? = some w) (hwn : w.notify = n) (hbefore : i < w.before)
    (hc : c.addr = (s.notifies.read n).addr) (hpermit : c.permit = none)
    (hcase : ((s.notifies.read n).permit = some t ∧ o = owed) ∨
      ((s.notifies.read n).permit = none ∧ n = n₀ ∧ t = t₀ ∧ owed = o + 1))
    (hq : ((s.setNotify n c).setPhase i (.woken t)).Queued) :
    ((s.setNotify n c).setPhase i (.woken t)).Settled n₀ t₀ o := by
  have haddr : (s.waits.read i).addr = w.addr := by
    rw [← (h.queued.waits i hi).2, hn, ← hwn]
    exact (h.past w (List.mem_of_getElem? hw)).2.2
  refine ⟨hq, fun m => ?_, fun m t' hm => ?_, fun t' w' hw' => ?_, fun w' hw' => ?_,
    fun j hj t' ht' => ?_⟩
  · rw [deliver_permit hpermit, deliver_awake hi hn hold]
    exact h.deliver_claims hcase m
  · rw [deliver_permit hpermit] at hm
    split at hm
    · cases hm
    · rename_i hmn
      obtain ⟨hempty, w', hw', hwn', hun⟩ := h.permit m t' hm
      refine ⟨?_, w', hw', hwn', ?_⟩
      · simpa only [setPhase_notifies, setNotify_read, if_neg hmn] using hempty
      · rw [unpolled_set hi (by simp) (.inr (by rw [hn, hwn']; exact Ne.symm hmn))]
        exact hun
  · rw [deliver_delivered hi hold hw hbefore haddr hw', deliver_permit hpermit]
    exact h.deliver_agreed hw hwn hcase hw'
  · rw [set_notifyAddr hc]
    exact h.past w' hw'
  · have hlt : t < s.wakes.length := (List.getElem?_eq_some_iff.mp hw).1
    simp only [setPhase_read, setNotify_waits] at ht'
    split at ht'
    · simp only [Phase.wake_woken, Option.some.injEq] at ht'
      exact ht' ▸ hlt
    · exact h.tags j hj t' ht'

end

-- ---------------------------------------------------------------------------
-- The steps
-- ---------------------------------------------------------------------------

/-- The last notification is stored for a fiber that has not polled. -/
theorem Settled.store {s : State} (h : s.Settled n t 1) (hw : s.wakes[t]? = some w)
    (hwn : w.notify = n) (hempty : (s.notifies.read n).queue = [])
    (hpermit : (s.notifies.read n).permit = none) (hun : 0 < s.unpolled w) :
    (s.setNotify n { s.notifies.read n with permit := some t }).Settled n t 0 := by
  have hread (m : Nat) :
      ((s.setNotify n { s.notifies.read n with permit := some t }).notifies.read m).permit =
        if m = n then some t else (s.notifies.read m).permit := by
    rw [setNotify_read]
    split <;> rfl
  obtain ⟨hq, hsim⟩ := h.queued.setNotify (n := n)
    (c := { s.notifies.read n with permit := some t }) rfl rfl
  refine ⟨hq, fun m => ?_, fun m t' hm => ?_, fun t' w' hw' => ?_, fun w' hw' => ?_, h.tags⟩
  · have hclaims := h.claims m
    rw [hread]
    change s.claimed m = s.awake m + _ + _
    by_cases hmn : m = n
    · subst hmn
      simpa [hpermit] using hclaims
    · simpa [hmn] using hclaims
  · rw [hread] at hm
    split at hm
    · rename_i hmn
      subst hmn
      obtain rfl := Option.some.inj hm
      refine ⟨?_, w, hw, hwn, hun⟩
      simpa only [setNotify_read, if_true] using hempty
    · rename_i hmn
      obtain ⟨hempty', w', hw', hwn', hun'⟩ := h.permit m t' hm
      refine ⟨?_, w', hw', hwn', hun'⟩
      simpa only [setNotify_read, if_neg hmn] using hempty'
  · have hagreed := h.agreed t' w' hw'
    rw [hread]
    change s.delivered t' w' + _ + _ = _
    by_cases htt : t' = t
    · subst htt
      obtain rfl := Option.some.inj (hw.symm.trans hw')
      simpa [hwn, hpermit] using hagreed
    · by_cases hwn' : w'.notify = n
      · simpa [hwn', hpermit, htt, Ne.symm htt] using hagreed
      · simpa [hwn', htt] using hagreed
  · rw [hsim.notifyAddr]
    exact h.past w' hw'

/-- Every notification of the wake is delivered or, the last one, stored. -/
theorem Settled.notifyMany {s : State} (h : s.Settled n t k) (hw : s.wakes[t]? = some w)
    (hwn : w.notify = n) (hbefore : w.before = s.waits.next)
    (hroom : k ≤ (s.notifies.read n).queue.length ∨
      k = (s.notifies.read n).queue.length + 1 ∧ (s.notifies.read n).permit = none ∧
        0 < s.unpolled w) :
    (s.notifyMany t n k).Settled n t 0 := by
  induction k generalizing s with
  | zero => exact h
  | succ k ih =>
    obtain ⟨hq₁, hsim⟩ := h.queued.notifyOne t n
    simp only [State.notifyMany]
    rcases notifyOne_cases t n s with ⟨i, rest, hqueue, heq⟩ | ⟨hqueue, heq⟩
    · have hmem : i ∈ (s.notifies.read n).queue := hqueue ▸ List.mem_cons_self ..
      obtain ⟨hi, hin, hip⟩ := (h.queued.parked n i).mp hmem
      have hpermit : (s.notifies.read n).permit = none := by
        by_contra hne
        obtain ⟨t', ht'⟩ := Option.ne_none_iff_exists'.mp hne
        rw [(h.permit n t' ht').1] at hqueue
        cases hqueue
      rw [heq] at hq₁ hsim ⊢
      have h₁ := h.deliver (c := { s.notifies.read n with queue := rest }) (o := k) hi hin
        (by simp [hip]) hw hwn (by omega) rfl hpermit (.inr ⟨hpermit, rfl, rfl, rfl⟩) hq₁
      refine ih h₁ hw hbefore ?_
      simp only [setPhase_notifies, setNotify_read, if_true]
      rw [hqueue] at hroom
      rcases hroom with hroom | ⟨hk, hp, hun⟩
      · exact .inl (by simpa using hroom)
      · refine .inr ⟨by simpa using hk, hp, ?_⟩
        rw [unpolled_set hi (by simp) (.inl (by simp [hip]))]
        exact hun
    · rcases hroom with hroom | ⟨hk, hp, hun⟩
      · rw [hqueue] at hroom
        exact absurd hroom (by simp)
      · rw [hqueue] at hk
        obtain rfl : k = 0 := by simpa using hk
        rw [heq, hp]
        exact h.store hw hwn hqueue hp hun

theorem Settled.pollWait {s : State} (h : s.Settled n₀ t₀ 0) (hi : i < s.waits.next)
    (hp : (s.waits.read i).phase = .registered) (hok : s.PollOk i) :
    (s.pollWait i).Settled n₀ t₀ 0 := by
  obtain ⟨hq, -⟩ := h.queued.pollWait hi hp
  cases hpermit : (s.notifies.read (s.waits.read i).notify).permit with
  | some t =>
    obtain ⟨-, w, hw, hwn, -⟩ := h.permit _ t hpermit
    rw [pollWait_permit hpermit] at hq ⊢
    exact h.deliver hi rfl (by simp [hp]) hw hwn (hok t hpermit w hw) rfl rfl
      (.inl ⟨hpermit, rfl⟩) hq
  | none =>
    rw [pollWait_park hpermit] at hq ⊢
    exact h.quiet hi rfl (by simp [hp]) (by simp) rfl rfl (fun hne => absurd hpermit hne) hq

theorem Settled.expireWait {s : State} (h : s.Settled n₀ t₀ 0) (hi : i < s.waits.next)
    (hp : (s.waits.read i).phase = .parked) : (s.expireWait i).Settled n₀ t₀ 0 := by
  obtain ⟨hq, -⟩ := h.queued.expireWait hi hp
  refine h.quiet hi rfl (by simp [hp]) (by simp) rfl rfl (fun hne => ?_) hq
  obtain ⟨t, ht⟩ := Option.ne_none_iff_exists'.mp hne
  refine ⟨by simp [hp], ?_⟩
  simp [(h.permit _ t ht).1]

theorem Settled.of_table {s s' : State} (h : s.Settled n₀ t₀ owed) (hn : s'.notifies = s.notifies)
    (hw : s'.waits = s.waits) (hwakes : s'.wakes = s.wakes) : s'.Settled n₀ t₀ owed := by
  refine ⟨h.queued.of_eq hn hw, fun n => ?_, fun n t hp => ?_, fun t w hget => ?_, ?_, ?_⟩
  · simp only [claimed, awake, hn, hw, hwakes]
    exact h.claims n
  · rw [hn] at hp ⊢
    simp only [unpolled, hw, hwakes]
    exact h.permit n t hp
  · rw [hwakes] at hget
    simp only [delivered, hn, hw]
    exact h.agreed t w hget
  · rw [hn, hw, hwakes]
    exact h.past
  · rw [hw, hwakes]
    exact h.tags

/-- A release does not deliver anything: the fiber keeps the wake it received. -/
theorem Settled.releaseWait {s : State} (h : s.Settled n₀ t₀ 0) (hi : i < s.waits.next)
    (hwake : p.wake = (s.waits.read i).phase.wake) (hp : p ≠ .registered) (hpark : p ≠ .parked)
    (hold : (s.waits.read i).phase ≠ .registered) (hold' : (s.waits.read i).phase ≠ .parked) :
    (s.releaseWait i p).Settled n₀ t₀ 0 := by
  have hq := h.queued.setPhase hi hold' hpark
  have hset := h.quiet (n := (s.waits.read i).notify)
    (c := s.notifies.read (s.waits.read i).notify) (p := p) hi rfl hwake hp rfl rfl
  rw [setNotify_self] at hset
  have h₁ := hset (fun hne => by
    obtain ⟨t, ht⟩ := Option.ne_none_iff_exists'.mp hne
    exact ⟨hold, (h.permit _ t ht).1⟩) hq
  exact h₁.of_table rfl rfl rfl

/-- A new fiber is younger than every wake, and has received nothing. -/
theorem Settled.addWait {s : State} {x : Wait} (h : s.Settled n₀ t₀ owed)
    (hx : x.phase = .registered) (hq : State.Queued { s with waits := (s.waits.alloc x).2 }) :
    State.Settled { s with waits := (s.waits.alloc x).2 } n₀ t₀ owed := by
  have hawake (n : Nat) :
      (s.waits.alloc x).2.count (fun _ y => y.notify = n && y.phase.wake.isSome) = s.awake n := by
    rw [Heap.count_alloc, awake]
    simp [hx]
  refine ⟨hq, fun n => ?_, fun n t hp => ?_, fun t w hw => ?_, fun w hw => ?_, fun i hi t ht => ?_⟩
  · simp only [awake, hawake]
    exact h.claims n
  · obtain ⟨hempty, w, hw, hwn, hpos⟩ := h.permit n t hp
    have hyoung := (h.past w (List.mem_of_getElem? hw)).1
    refine ⟨hempty, w, hw, hwn, ?_⟩
    rw [unpolled, Heap.count_alloc]
    simpa [unpolled, Nat.not_lt.mpr hyoung] using hpos
  · have hyoung := (h.past w (List.mem_of_getElem? hw)).1
    have hdel : State.delivered { s with waits := (s.waits.alloc x).2 } t w = s.delivered t w := by
      rw [delivered, Heap.count_alloc]
      simp [delivered, Nat.not_lt.mpr hyoung]
    rw [hdel]
    exact h.agreed t w hw
  · obtain ⟨hb, hn⟩ := h.past w hw
    exact ⟨by simp only [Heap.alloc_next]; omega, hn⟩
  · simp only [Heap.read_alloc] at ht
    simp only [Heap.alloc_next] at hi
    split at ht
    · simp [hx] at ht
    · exact h.tags i (by omega) t ht

theorem Settled.unclaimed {s : State} (h : s.Settled n₀ t₀ owed) :
    s.claimed s.notifies.next = 0 ∧ s.awake s.notifies.next = 0 := by
  have hfilter : s.wakes.filter (fun w => w.notify = s.notifies.next) = [] := by
    rw [List.filter_eq_nil_iff]
    intro w hw
    have := (h.past w hw).2.1
    simp only [decide_eq_true_eq]
    omega
  refine ⟨by simp [claimed, hfilter], Heap.count_eq_zero fun i hi => ?_⟩
  have := (h.queued.waits i hi).1
  simp only [Bool.and_eq_false_iff, decide_eq_false_iff_not]
  exact .inl (by omega)

theorem Settled.addNotify {s : State} (h : s.Settled n₀ t₀ 0) (addr : UInt32) :
    State.Settled { s with
      notifies := (s.notifies.alloc { addr, queue := [], permit := none }).2 } n₀ t₀ 0 := by
  have hread (n : Nat) : ((s.notifies.alloc { addr, queue := [], permit := none }).2.read n).permit =
      if n = s.notifies.next then none else (s.notifies.read n).permit := by
    rw [Heap.read_alloc]
    split <;> rfl
  obtain ⟨hclaimed, hawake⟩ := h.unclaimed
  refine ⟨h.queued.addNotify rfl rfl rfl, fun n => ?_, fun n t hp => ?_, fun t w hw => ?_,
    fun w hw => ?_, h.tags⟩
  · simp only [hread]
    change s.claimed n = s.awake n + _ + _
    split
    · rename_i hn
      simp [hn, hclaimed, hawake]
    · exact h.claims n
  · simp only [hread] at hp
    split at hp
    · cases hp
    · rename_i hn
      obtain ⟨hempty, w, hw, hwn, hpos⟩ := h.permit n t hp
      refine ⟨?_, w, hw, hwn, hpos⟩
      simpa only [Heap.read_alloc, if_neg hn] using hempty
  · have hlt := (h.past w (List.mem_of_getElem? hw)).2.1
    simp only [hread, if_neg (Nat.ne_of_lt hlt)]
    exact h.agreed t w hw
  · obtain ⟨hb, hn, ha⟩ := h.past w hw
    simp only [Heap.alloc_next, Heap.read_alloc_old _ _ hn]
    exact ⟨hb, by omega, ha⟩

theorem Settled.registerWait {s : State} (h : s.Settled n₀ t₀ 0) (hc : s.Counted) :
    (s.registerWait addr deadline).Settled n₀ t₀ 0 := by
  have hq : (s.registerWait addr deadline).Queued := hc.queued.registerWait hc.table
  cases he : s.table.byAddr.get? addr with
  | some e =>
    rw [registerWait_old he] at hq ⊢
    exact (h.addWait rfl (hq.of_eq rfl rfl)).of_table rfl rfl rfl
  | none =>
    rw [registerWait_new he] at hq ⊢
    exact ((h.addNotify addr).addWait rfl (hq.of_eq rfl rfl)).of_table rfl rfl rfl

theorem Settled.addWake {s : State} (h : s.Settled n₀ t₀ 0) (hlt : w.notify < s.notifies.next)
    (haddr : (s.notifies.read w.notify).addr = w.addr) (hbefore : w.before = s.waits.next) :
    State.Settled { s with wakes := s.wakes ++ [w] } w.notify s.wakes.length w.toWake := by
  refine ⟨h.queued.of_eq rfl rfl, fun n => ?_, fun n t hp => ?_, fun t v hv => ?_, fun v hv => ?_,
    fun i hi t ht => ?_⟩
  · have hclaims := h.claims n
    simp only [claimed, List.filter_append, List.map_append, List.sum_append] at hclaims ⊢
    by_cases hn : n = w.notify
    · subst hn
      simp only [ite_self, Nat.add_zero] at hclaims
      simp [hclaims, awake]
    · simp only [ite_self, Nat.add_zero] at hclaims
      simp [hclaims, hn, Ne.symm hn, awake]
  · obtain ⟨hempty, v, hv, hvn, hun⟩ := h.permit n t hp
    refine ⟨hempty, v, ?_, hvn, hun⟩
    simp only
    rw [List.getElem?_append_left (List.getElem?_eq_some_iff.mp hv).1]
    exact hv
  · by_cases ht : t = s.wakes.length
    · -- No fiber and no permit carries the new tag yet.
      subst ht
      obtain rfl : w = v := by simpa using hv
      have hdel : s.delivered s.wakes.length w = 0 := by
        refine Heap.count_eq_zero fun i hi => ?_
        have := h.tags i hi
        simp only [Bool.and_eq_false_iff, decide_eq_false_iff_not]
        exact .inr fun ht => absurd (this _ ht) (Nat.lt_irrefl _)
      have hper : (s.notifies.read w.notify).permit ≠ some s.wakes.length := by
        intro hp
        obtain ⟨-, u, hu, -⟩ := h.permit _ _ hp
        exact absurd (List.getElem?_eq_some_iff.mp hu).1 (Nat.lt_irrefl _)
      simp only [delivered] at hdel ⊢
      simp [hdel, hper]
    · have hlen := (List.getElem?_eq_some_iff.mp hv).1
      simp only [List.length_append, List.length_singleton] at hlen
      simp only [List.getElem?_append_left (show t < s.wakes.length by omega)] at hv
      have hagreed := h.agreed t v hv
      simp only [ite_self, Nat.add_zero] at hagreed
      simp only [ht, if_false, Nat.add_zero]
      exact hagreed
  · rcases List.mem_append.mp hv with hv | hv
    · exact h.past v hv
    · obtain rfl := List.mem_singleton.mp hv
      exact ⟨Nat.le_of_eq hbefore, hlt, haddr⟩
  · have := h.tags i hi t ht
    simp only [List.length_append, List.length_singleton]
    omega

theorem Settled.futexWake {s : State} (h : s.Settled n₀ t₀ 0) (hc : s.Counted)
    (hok : s.WakeOk addr val) : ∃ n₁ t₁, (s.futexWake addr val).Settled n₁ t₁ 0 := by
  unfold State.futexWake claim
  cases he : s.table.byAddr.get? addr with
  | none => exact ⟨n₀, t₀, h⟩
  | some e =>
    obtain ⟨hlt, haddr, -, -⟩ := hc.entry addr e he
    have hroom := hok e he
    simp only
    generalize min (max val 0).toNat e.waiters = k at hroom ⊢
    have hwake : State.Settled { s with
        table := setWaiters s.table addr e (e.waiters - k)
        wakes := s.wakes ++ [{ addr, notify := e.notify, toWake := k, before := s.waits.next }] }
        e.notify s.wakes.length k := by
      refine (h.addWake (w := ⟨addr, e.notify, k, s.waits.next⟩) hlt haddr rfl).of_table ?_ ?_ ?_
      · rfl
      · rfl
      · rfl
    refine ⟨e.notify, s.wakes.length,
      hwake.notifyMany (w := ⟨addr, e.notify, k, s.waits.next⟩) (by simp) rfl rfl ?_⟩
    refine hroom.imp_right ?_
    rintro ⟨hk, hp, hun⟩
    refine ⟨hk, hp, ?_⟩
    -- every fiber is older than the wake
    refine Nat.lt_of_lt_of_eq hun (Heap.count_congr rfl fun i hi => ?_)
    simp [hi]

theorem Settled.step {s s' : State} (h : s.Settled n₀ t₀ 0) (hc : s.Counted) (hf : s.Fair a)
    (hn : s.next a = some s') : ∃ n₁ t₁, s'.Settled n₁ t₁ 0 := by
  cases a with
  | register addr deadline =>
    obtain rfl := Option.some.inj hn
    exact ⟨n₀, t₀, h.registerWait hc⟩
  | poll i =>
    simp only [State.next] at hn
    split at hn
    · rename_i hi
      obtain rfl := Option.some.inj hn
      exact ⟨n₀, t₀, h.pollWait hi.1 hi.2 hf⟩
    · cases hn
  | expire i =>
    simp only [State.next] at hn
    split at hn
    · rename_i hi
      obtain rfl := Option.some.inj hn
      exact ⟨n₀, t₀, h.expireWait hi.1 hi.2.1⟩
    · cases hn
  | release i =>
    simp only [State.next] at hn
    split at hn
    · rename_i hi
      split at hn
      · rename_i t hp
        obtain rfl := Option.some.inj hn
        exact ⟨n₀, t₀, h.releaseWait hi (by simp [hp]) (by simp) (by simp) (by simp [hp])
          (by simp [hp])⟩
      · rename_i hp
        obtain rfl := Option.some.inj hn
        exact ⟨n₀, t₀, h.releaseWait hi (by simp [hp]) (by simp) (by simp) (by simp [hp])
          (by simp [hp])⟩
      · cases hn
    · cases hn
  | wake addr val =>
    obtain rfl := Option.some.inj hn
    exact h.futexWake hc hf

-- ---------------------------------------------------------------------------
-- What the invariant says
-- ---------------------------------------------------------------------------

theorem Settled.isAgreed {s : State} (h : s.Settled n₀ t₀ 0) : s.Agreed := by
  intro t w hw
  have hagreed := h.agreed t w hw
  rw [ite_self, Nat.add_zero] at hagreed
  have hstored : s.stored t w =
      if (s.notifies.read w.notify).permit = some t then 1 else 0 := by
    unfold stored
    by_cases hp : (s.notifies.read w.notify).permit = some t
    · obtain ⟨-, v, hv, -, hun⟩ := h.permit _ t hp
      obtain rfl := Option.some.inj (hw.symm.trans hv)
      simp [hp, hun]
    · simp [hp]
  rw [hstored]
  exact hagreed

theorem notifyMany_phase_of_not_mem {s : State} (h : s.Queued)
    (hout : i ∉ (s.notifies.read n).queue) :
    ((s.notifyMany tag n k).waits.read i).phase = (s.waits.read i).phase := by
  induction k generalizing s with
  | zero => rfl
  | succ k ih =>
    have hq := (h.notifyOne tag n).1
    simp only [State.notifyMany]
    rcases notifyOne_cases tag n s with ⟨j, rest, hqueue, heq⟩ | ⟨hqueue, heq⟩
    · rw [hqueue, List.mem_cons, not_or] at hout
      rw [heq] at hq ⊢
      rw [ih hq (by simpa [setNotify_read] using hout.2), setPhase_read, if_neg hout.1]
      rfl
    · rw [heq] at hq ⊢
      rw [ih hq (by simpa [setNotify_read] using hout)]
      rfl

/-- As many notifications as the queue is long complete everyone in it. -/
theorem notifyMany_phase_of_mem {s : State} (h : s.Queued) (hin : i ∈ (s.notifies.read n).queue)
    (hk : (s.notifies.read n).queue.length ≤ k) :
    ((s.notifyMany tag n k).waits.read i).phase = .woken tag := by
  induction k generalizing s with
  | zero =>
    rw [List.length_eq_zero_iff.mp (Nat.le_zero.mp hk)] at hin
    cases hin
  | succ k ih =>
    obtain ⟨hq, -⟩ := h.notifyOne tag n
    simp only [State.notifyMany]
    rcases notifyOne_cases tag n s with ⟨j, rest, hqueue, heq⟩ | ⟨hqueue, heq⟩
    · have hnd := h.nodup n
      rw [hqueue] at hin hk hnd
      rw [heq] at hq ⊢
      by_cases hij : i = j
      · subst hij
        have hout : i ∉ rest := (List.nodup_cons.mp hnd).1
        rw [notifyMany_phase_of_not_mem hq (by simpa [setNotify_read] using hout), setPhase_read,
          if_pos rfl]
      · refine ih hq ?_ ?_
        · simpa [setNotify_read] using (List.mem_cons.mp hin).resolve_left hij
        · simpa [setNotify_read] using hk
    · rw [hqueue] at hin
      cases hin

theorem Settled.reachable {s : State} (h : s.Settled n₀ t₀ 0) (hc : s.Counted) : s.Reachable := by
  intro i hi hp
  have hin : i ∈ (s.notifies.read (s.waits.read i).notify).queue :=
    (h.queued.parked _ i).mpr ⟨hi, rfl, hp⟩
  have hpermit : (s.notifies.read (s.waits.read i).notify).permit = none := by
    by_contra hne
    obtain ⟨t, ht⟩ := Option.ne_none_iff_exists'.mp hne
    rw [(h.permit _ t ht).1] at hin
    cases hin
  -- All claims on this `Notify` have been delivered, so its parked fibers are unclaimed.
  have hclaims := h.claims (s.waits.read i).notify
  rw [hpermit, ite_self] at hclaims
  have hparked : s.waits.count (fun _ x => x.notify = (s.waits.read i).notify && x.phase = .parked) =
      (s.notifies.read (s.waits.read i).notify).queue.length := by
    refine Heap.count_eq_length (h.queued.nodup _) fun j => ?_
    rw [h.queued.parked]
    simp
  have hsum : s.awake (s.waits.read i).notify +
      s.waits.count (fun _ x => x.notify = (s.waits.read i).notify && x.phase = .parked) ≤
        s.present (s.waits.read i).notify := by
    refine Heap.count_add_le (fun j x => ?_) (fun j x => ?_) (fun j x => ?_)
    · simp only [Bool.and_eq_true, decide_eq_true_eq]
      rintro ⟨hn, hw⟩
      refine ⟨hn, fun hto => ?_⟩
      simp [hto] at hw
    · simp only [Bool.and_eq_true, decide_eq_true_eq]
      rintro ⟨hn, hw⟩
      exact ⟨hn, by simp [hw]⟩
    · simp only [Bool.and_eq_true, decide_eq_true_eq, Bool.and_eq_false_iff,
        decide_eq_false_iff_not]
      rintro ⟨-, hw⟩
      refine .inr fun hpk => ?_
      simp [hpk] at hw
  have hlen : 0 < (s.notifies.read (s.waits.read i).notify).queue.length :=
    List.length_pos_of_mem hin
  have hwait := h.queued.waits i hi
  simp only [Option.isSome_none, Bool.false_eq_true, if_false, Nat.add_zero] at hclaims
  obtain ⟨a, e, he, hen⟩ : ∃ a e, s.table.byAddr.get? a = some e ∧
      e.notify = (s.waits.read i).notify := by
    by_contra hno
    have := hc.gone _ hwait.1 fun a e he hen => hno ⟨a, e, he, hen⟩
    omega
  obtain ⟨-, haddr, -, hcount⟩ := hc.entry a e he
  have ha : a = (s.waits.read i).addr := by rw [← haddr, hen, hwait.2]
  subst ha
  refine ⟨e, he, hen, fun val hval => ?_⟩
  rw [hen] at hcount
  have hmin : min (max val 0).toNat e.waiters = e.waiters := by omega
  unfold State.futexWake claim
  simp only [he, hmin]
  rw [hen]
  exact notifyMany_phase_of_mem (h.queued.of_eq rfl rfl) hin (by simp only; omega)

end State

theorem reaches_settled (h : Reaches State.next State.Fair State.init s) :
    s.Counted ∧ ∃ n t, s.Settled n t 0 := by
  refine h.invariant (I := fun s => s.Counted ∧ ∃ n t, s.Settled n t 0)
    ⟨State.init_counted, 0, 0, State.init_settled⟩ ?_
  rintro s a s' ⟨hc, n, t, hs⟩ hf hn
  exact ⟨hc.step hf.clean hn, hs.step hc hf hn⟩

/-- In every state of a fair run each wake has completed, or stored a permit
for, as many fibers registered before it as it returned, and every parked
fiber is reachable through the table. -/
theorem wakes_agree (h : Reaches State.next State.Fair State.init s) : s.Agreed ∧ s.Reachable := by
  obtain ⟨hc, n, t, hs⟩ := reaches_settled h
  exact ⟨hs.isAgreed, hs.reachable hc⟩

/-- Two registered fibers are woken together before they poll. Only one permit
is stored, so the second fiber parks, though the wake returned two. -/
theorem wake_of_unpolled_disagrees :
    ∃ s, Reaches State.next (fun _ _ => True) State.init s ∧
      s.wakes[0]? = some { addr := 8, notify := 0, toWake := 2, before := 2 } ∧
      (s.waits.read 1).phase = .parked ∧ ¬ s.Agreed ∧ ¬ s.Reachable := by
  let acts : List Act := [.register 8 false, .register 8 false, .wake 8 2, .poll 0, .poll 1]
  have hsome : (runFrom State.next State.init acts).isSome := by decide
  obtain ⟨s, hs⟩ := Option.isSome_iff_exists.mp hsome
  have hall : ∀ s' ∈ runFrom State.next State.init acts,
      s'.wakes[0]? = some { addr := 8, notify := 0, toWake := 2, before := 2 } ∧
      (s'.waits.read 1).phase = .parked ∧
      s'.delivered 0 { addr := 8, notify := 0, toWake := 2, before := 2 } +
        s'.stored 0 { addr := 8, notify := 0, toWake := 2, before := 2 } = 1 ∧
      s'.waits.next = 2 ∧ (s'.waits.read 1).addr = 8 ∧ s'.table.byAddr.get? 8 = none := by decide
  obtain ⟨hwake, hparked, hone, hnext, haddr, hnone⟩ := hall s hs
  refine ⟨s, .runFrom .start (runMeets_of_forall fun _ _ => trivial) hs, hwake, hparked, ?_, ?_⟩
  · intro hagreed
    have := hagreed 0 _ hwake
    rw [hone] at this
    cases this
  · intro hreach
    obtain ⟨e, he, -⟩ := hreach 1 (by omega) hparked
    rw [haddr, hnone] at he
    cases he

/-- A wake of one parked and one registered fiber, which then polls. -/
theorem wakes_agree_with_permit :
    ∃ s, Reaches State.next State.Fair State.init s ∧
      s.wakes[0]? = some { addr := 8, notify := 0, toWake := 2, before := 2 } ∧
      s.Agreed ∧ s.Reachable ∧ (s.waits.read 2).phase = .parked := by
  let acts : List Act := [.register 8 false, .register 8 true, .poll 0, .wake 8 2, .release 0,
    .poll 1, .register 8 true, .poll 2]
  have hsome : (runFrom State.next State.init acts).isSome := by decide
  obtain ⟨s, hs⟩ := Option.isSome_iff_exists.mp hsome
  have hall : ∀ s' ∈ runFrom State.next State.init acts,
      s'.wakes[0]? = some { addr := 8, notify := 0, toWake := 2, before := 2 } ∧
      (s'.waits.read 2).phase = .parked := by decide
  have hrun : Reaches State.next State.Fair State.init s := .runFrom .start (by decide) hs
  obtain ⟨hagreed, hreach⟩ := wakes_agree hrun
  exact ⟨s, hrun, (hall s hs).1, hagreed, hreach, (hall s hs).2⟩

end EdgeLibos.Futex
