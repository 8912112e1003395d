import EdgeLibos.Futex.Machine

/-!
# Queues and phases

Whatever the guest does, the queue of a `Notify` lists the fibers parked on it,
each once. `Similar` relates states that differ only in how far their fibers
have come, as long as none of them times out: every step but a registration, a
wake and a release after a timeout leads to a similar state.
-/

namespace EdgeLibos.Futex

open Lib

structure State.Queued (s : State) : Prop where
  nodup : ∀ n, (s.notifies.read n).queue.Nodup
  parked : ∀ n i, i ∈ (s.notifies.read n).queue ↔
    i < s.waits.next ∧ (s.waits.read i).notify = n ∧ (s.waits.read i).phase = .parked
  waits : ∀ i < s.waits.next, (s.waits.read i).notify < s.notifies.next ∧
    (s.notifies.read (s.waits.read i).notify).addr = (s.waits.read i).addr

structure State.Similar (s s' : State) : Prop where
  table : s'.table = s.table
  wakes : s'.wakes = s.wakes
  notifiesNext : s'.notifies.next = s.notifies.next
  waitsNext : s'.waits.next = s.waits.next
  notifyAddr : ∀ n, (s'.notifies.read n).addr = (s.notifies.read n).addr
  waitAddr : ∀ i, (s'.waits.read i).addr = (s.waits.read i).addr
  waitNotify : ∀ i, (s'.waits.read i).notify = (s.waits.read i).notify
  timedOut : ∀ i, (s'.waits.read i).phase = .timedOut ↔ (s.waits.read i).phase = .timedOut

theorem State.Similar.refl (s : State) : s.Similar s :=
  ⟨rfl, rfl, rfl, rfl, fun _ => rfl, fun _ => rfl, fun _ => rfl, fun _ => Iff.rfl⟩

theorem State.Similar.trans {s s' s'' : State} (h : s.Similar s') (h' : s'.Similar s'') :
    s.Similar s'' where
  table := h'.table.trans h.table
  wakes := h'.wakes.trans h.wakes
  notifiesNext := h'.notifiesNext.trans h.notifiesNext
  waitsNext := h'.waitsNext.trans h.waitsNext
  notifyAddr n := (h'.notifyAddr n).trans (h.notifyAddr n)
  waitAddr i := (h'.waitAddr i).trans (h.waitAddr i)
  waitNotify i := (h'.waitNotify i).trans (h.waitNotify i)
  timedOut i := (h'.timedOut i).trans (h.timedOut i)

section
variable {s : State} {c : Notify}

/-- One `Notify` and one fiber change, neither its address nor into a timeout. -/
theorem State.similar_set (hc : c.addr = (s.notifies.read n).addr)
    (hp : p = .timedOut ↔ (s.waits.read i).phase = .timedOut) :
    s.Similar ((s.setNotify n c).setPhase i p) := by
  refine ⟨rfl, rfl, rfl, rfl, fun m => ?_, fun j => ?_, fun j => ?_, fun j => ?_⟩
  · simp only [State.setPhase_notifies, State.setNotify_read]
    split
    · rename_i h
      rw [hc, h]
    · rfl
  all_goals
    simp only [State.setPhase_read, State.setNotify_waits]
    split
    · rename_i h
      simp [h, hp]
    · simp

/-- The same change keeps the queues right when the new queue is the old one
up to the fiber that enters or leaves it. -/
theorem State.Queued.set (h : s.Queued) (hi : i < s.waits.next)
    (hn : (s.waits.read i).notify = n) (hc : c.addr = (s.notifies.read n).addr)
    (hnodup : c.queue.Nodup)
    (hmem : ∀ j, j ∈ c.queue ↔ if j = i then p = .parked else j ∈ (s.notifies.read n).queue) :
    ((s.setNotify n c).setPhase i p).Queued := by
  refine ⟨fun m => ?_, fun m j => ?_, fun j hj => ?_⟩
  · simp only [State.setPhase_notifies, State.setNotify_read]
    split
    · exact hnodup
    · exact h.nodup m
  · simp only [State.setPhase_notifies, State.setNotify_read, State.setPhase_read,
      State.setNotify_waits, State.setPhase_next]
    by_cases hm : m = n
    · rw [if_pos hm, hmem]
      subst hm
      split
      · rename_i hji
        simp [hji, hi, hn]
      · exact h.parked m j
    · rw [if_neg hm, h.parked m j]
      by_cases hji : j = i
      · simp only [hji, if_true, hn]
        simp [Ne.symm hm]
      · simp [hji]
  · have hw := h.waits j hj
    simp only [State.setPhase_notifies, State.setNotify_read, State.setPhase_read,
      State.setNotify_waits, State.setNotify_next]
    have hnotify : (if j = i then { s.waits.read i with phase := p } else s.waits.read j).notify =
        (s.waits.read j).notify := by
      split
      · rename_i hji
        rw [hji]
      · rfl
    have haddr : (if j = i then { s.waits.read i with phase := p } else s.waits.read j).addr =
        (s.waits.read j).addr := by
      split
      · rename_i hji
        rw [hji]
      · rfl
    rw [hnotify, haddr]
    refine ⟨hw.1, ?_⟩
    split
    · rename_i hjn
      rw [hc, ← hjn]
      exact hw.2
    · exact hw.2

end

-- ---------------------------------------------------------------------------
-- Notifying
-- ---------------------------------------------------------------------------

theorem State.notifyOne_cases (tag n : Nat) (s : State) :
    (∃ i rest, (s.notifies.read n).queue = i :: rest ∧
      s.notifyOne tag n =
        (s.setNotify n { s.notifies.read n with queue := rest }).setPhase i (.woken tag)) ∨
    ((s.notifies.read n).queue = [] ∧
      s.notifyOne tag n =
        s.setNotify n { s.notifies.read n with permit := (s.notifies.read n).permit.or (some tag) }) := by
  unfold State.notifyOne
  cases hq : (s.notifies.read n).queue with
  | nil => exact .inr ⟨rfl, by simp only [hq]⟩
  | cons i rest => exact .inl ⟨i, rest, rfl, by simp only [hq]⟩

theorem State.Queued.setNotify {s : State} {c : Notify} (h : s.Queued)
    (hc : c.addr = (s.notifies.read n).addr) (hq : c.queue = (s.notifies.read n).queue) :
    (s.setNotify n c).Queued ∧ s.Similar (s.setNotify n c) := by
  have hread (m : Nat) : ((s.setNotify n c).notifies.read m).addr = (s.notifies.read m).addr ∧
      ((s.setNotify n c).notifies.read m).queue = (s.notifies.read m).queue := by
    rw [State.setNotify_read]
    split
    · rename_i hm
      rw [hm]
      exact ⟨hc, hq⟩
    · exact ⟨rfl, rfl⟩
  refine ⟨⟨fun m => ?_, fun m j => ?_, fun j hj => ?_⟩, ?_⟩
  · rw [(hread m).2]
    exact h.nodup m
  · rw [(hread m).2]
    exact h.parked m j
  · rw [State.setNotify_waits, (hread _).1]
    exact h.waits j hj
  · exact ⟨rfl, rfl, rfl, rfl, fun m => (hread m).1, fun _ => rfl, fun _ => rfl, fun _ => Iff.rfl⟩

theorem State.Queued.notifyOne {s : State} (h : s.Queued) (tag n : Nat) :
    (s.notifyOne tag n).Queued ∧ s.Similar (s.notifyOne tag n) := by
  rcases State.notifyOne_cases tag n s with ⟨i, rest, hq, heq⟩ | ⟨-, heq⟩
  · rw [heq]
    have hmem : i ∈ (s.notifies.read n).queue := hq ▸ List.mem_cons_self ..
    obtain ⟨hi, hin, hip⟩ := (h.parked n i).mp hmem
    have hnd := h.nodup n
    rw [hq, List.nodup_cons] at hnd
    refine ⟨h.set hi hin rfl hnd.2 ?_, State.similar_set rfl (by simp [hip])⟩
    intro j
    split
    · rename_i hji
      simp [hji, hnd.1]
    · rename_i hji
      rw [hq]
      simp [hji]
  · rw [heq]
    exact h.setNotify rfl rfl

theorem State.Queued.notifyMany {s : State} (h : s.Queued) (tag n k : Nat) :
    (s.notifyMany tag n k).Queued ∧ s.Similar (s.notifyMany tag n k) := by
  induction k generalizing s with
  | zero => exact ⟨h, .refl s⟩
  | succ k ih =>
    obtain ⟨h₁, hs₁⟩ := h.notifyOne tag n
    obtain ⟨h₂, hs₂⟩ := ih h₁
    exact ⟨h₂, hs₁.trans hs₂⟩

-- ---------------------------------------------------------------------------
-- The other steps
-- ---------------------------------------------------------------------------

theorem State.Queued.of_eq {s s' : State} (h : s.Queued) (hn : s'.notifies = s.notifies)
    (hw : s'.waits = s.waits) : s'.Queued :=
  ⟨by rw [hn]; exact h.nodup, by rw [hn, hw]; exact h.parked, by rw [hn, hw]; exact h.waits⟩

theorem State.Queued.pollWait {s : State} (h : s.Queued) (hi : i < s.waits.next)
    (hp : (s.waits.read i).phase = .registered) :
    (s.pollWait i).Queued ∧ s.Similar (s.pollWait i) := by
  have hout : i ∉ (s.notifies.read (s.waits.read i).notify).queue := by
    rw [h.parked]
    simp [hp]
  cases hpermit : (s.notifies.read (s.waits.read i).notify).permit with
  | some tag =>
    rw [State.pollWait_permit hpermit]
    refine ⟨h.set hi rfl rfl (h.nodup _) ?_, State.similar_set rfl (by simp [hp])⟩
    intro j
    split
    · rename_i hji
      simp [hji, hout]
    · rfl
  | none =>
    rw [State.pollWait_park hpermit]
    refine ⟨h.set hi rfl rfl ?_ ?_, State.similar_set rfl (by simp [hp])⟩
    · exact (h.nodup _).append (List.nodup_singleton i) (by simpa using hout)
    · intro j
      split
      · rename_i hji
        simp [hji]
      · rename_i hji
        simp [hji]

theorem State.Queued.expireWait {s : State} (h : s.Queued) (hi : i < s.waits.next)
    (hp : (s.waits.read i).phase = .parked) :
    (s.expireWait i).Queued ∧ s.Similar (s.expireWait i) := by
  have hnd := h.nodup (s.waits.read i).notify
  refine ⟨h.set hi rfl rfl (hnd.erase i) ?_, State.similar_set rfl (by simp [hp])⟩
  intro j
  split
  · rename_i hji
    simp [hji, hnd.not_mem_erase]
  · rename_i hji
    exact List.mem_erase_of_ne hji

theorem State.Queued.setPhase {s : State} (h : s.Queued) (hi : i < s.waits.next)
    (hold : (s.waits.read i).phase ≠ .parked) (hp : p ≠ .parked) : (s.setPhase i p).Queued := by
  have hset := h.set (c := s.notifies.read (s.waits.read i).notify) (p := p) hi rfl rfl
    (h.nodup _) (fun j => by
      split
      · rename_i hji
        rw [hji, h.parked]
        simp [hold, hp]
      · rfl)
  rwa [State.setNotify_self] at hset

theorem State.Queued.addWait {s s' : State} {w : Wait} (h : s.Queued)
    (hn : w.notify < s.notifies.next) (ha : (s.notifies.read w.notify).addr = w.addr)
    (hp : w.phase ≠ .parked) (hnotifies : s'.notifies = s.notifies)
    (hwaits : s'.waits = (s.waits.alloc w).2) : s'.Queued := by
  refine ⟨?_, fun n i => ?_, fun i hi => ?_⟩
  · rw [hnotifies]
    exact h.nodup
  · rw [hnotifies, hwaits, h.parked, Heap.read_alloc, Heap.alloc_next]
    by_cases hi : i = s.waits.next
    · simp [hi, hp]
    · simp only [hi, if_false]
      have hlt : i < s.waits.next ↔ i < s.waits.next + 1 := by omega
      rw [hlt]
  · rw [hwaits] at hi ⊢
    rw [hnotifies, Heap.read_alloc]
    split
    · exact ⟨hn, ha⟩
    · rw [Heap.alloc_next] at hi
      exact h.waits i (by omega)

theorem State.Queued.addNotify {s s' : State} {c : Notify} (h : s.Queued)
    (hq : c.queue = []) (hnotifies : s'.notifies = (s.notifies.alloc c).2)
    (hwaits : s'.waits = s.waits) : s'.Queued := by
  refine ⟨fun n => ?_, fun n i => ?_, fun i hi => ?_⟩
  · rw [hnotifies, Heap.read_alloc]
    split
    · rw [hq]
      exact .nil
    · exact h.nodup n
  · rw [hnotifies, hwaits, Heap.read_alloc]
    split
    · -- Nobody can be parked on a `Notify` that did not exist.
      rename_i hn
      simp only [hq, List.not_mem_nil, false_iff]
      rintro ⟨hi, hin, -⟩
      have := (h.waits i hi).1
      omega
    · exact h.parked n i
  · rw [hwaits] at hi ⊢
    have hw := h.waits i hi
    rw [hnotifies, Heap.read_alloc_old _ _ hw.1, Heap.alloc_next]
    exact ⟨by omega, hw.2⟩

theorem State.Queued.registerWait {s : State} (h : s.Queued)
    (htable : ∀ a e, s.table.byAddr.get? a = some e →
      e.notify < s.notifies.next ∧ (s.notifies.read e.notify).addr = a) :
    (s.registerWait addr deadline).Queued := by
  cases he : s.table.byAddr.get? addr with
  | some e =>
    obtain ⟨hn, ha⟩ := htable addr e he
    rw [State.registerWait_old he]
    exact h.addWait (w := { addr, notify := e.notify, deadline, phase := .registered })
      hn ha (by simp) rfl rfl
  | none =>
    rw [State.registerWait_new he]
    have h₁ : State.Queued { s with
        notifies := (s.notifies.alloc { addr, queue := [], permit := none }).2 } :=
      h.addNotify rfl rfl rfl
    refine h₁.addWait (w := { addr, notify := s.notifies.next, deadline, phase := .registered })
      ?_ ?_ (by simp) rfl rfl
    · simp
    · simp

end EdgeLibos.Futex
