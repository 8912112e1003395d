import Mathlib.Data.List.Nodup

/-!
# Things that end and are handed over

Things are born with a number that is given out once, live, end, and are handed over
after their end. `came` lists the ends and `handed` the handovers. A step of the system
moves things between the two predicates `Live` and `Ended` and takes some of the ended
ones away; where those are the ones handed over, the books balance after every step:
what has ended waits or was handed over, once.
-/

namespace EdgeLibos.Lib.Ledger

variable {α : Type u} {number : α → Nat} {Live Ended Live' Ended' : α → Prop} {n n' : Nat}
  {came handed new taken : List α}

structure Balanced (number : α → Nat) (Live Ended : α → Prop) (n : Nat) (came handed : List α) : Prop where
  came_nodup : came.Nodup
  handed_nodup : handed.Nodup
  account : ∀ c, c ∈ came ↔ c ∈ handed ∨ Ended c
  apart : ∀ c ∈ handed, ¬ Ended c
  live_apart : ∀ c, Live c → c ∉ came
  came_lt : ∀ c ∈ came, number c < n
  live_lt : ∀ c, Live c → number c < n

/-- A step that takes `taken` away and lets nothing else go. -/
structure Moves (number : α → Nat) (Live Ended : α → Prop) (n : Nat) (Live' Ended' : α → Prop) (n' : Nat)
    (taken : List α) : Prop where
  le : n ≤ n'
  taken_nodup : taken.Nodup
  taken_ended : ∀ c ∈ taken, Ended c
  kept : ∀ c, Ended c → Ended' c ∨ c ∈ taken
  ended : ∀ c, Ended' c → (Ended c ∧ c ∉ taken) ∨ (Live c ∧ ¬ Ended c) ∨ (n ≤ number c ∧ number c < n')
  live : ∀ c, Live' c → ¬ Ended' c ∧ (Live c ∨ (n ≤ number c ∧ number c < n'))

theorem Balanced.start (hnodup : came.Nodup) (hcame : ∀ c, c ∈ came ↔ Ended c)
    (hlive : ∀ c, Live c → ¬ Ended c) (hlt : ∀ c, Live c ∨ Ended c → number c < n) :
    Balanced number Live Ended n came [] where
  came_nodup := hnodup
  handed_nodup := .nil
  account c := by simp [hcame c]
  apart c hc := absurd hc List.not_mem_nil
  live_apart c hc hmem := hlive c hc ((hcame c).mp hmem)
  came_lt c hc := hlt c (.inr ((hcame c).mp hc))
  live_lt c hc := hlt c (.inl hc)

theorem Balanced.fresh (h : Balanced number Live Ended n came handed)
    (hm : Moves number Live Ended n Live' Ended' n' taken) (hended : Ended' c) (hnew : ¬ Ended c) :
    c ∉ came := by
  rcases hm.ended c hended with ⟨hold, -⟩ | ⟨hlive, -⟩ | ⟨hle, -⟩
  · exact absurd hold hnew
  · exact h.live_apart c hlive
  · intro hmem
    have := h.came_lt c hmem
    omega

theorem Balanced.gone (h : Balanced number Live Ended n came handed)
    (hm : Moves number Live Ended n Live' Ended' n' taken) (hc : c ∈ handed ++ taken) : ¬ Ended' c := by
  intro hended
  rcases List.mem_append.mp hc with hhanded | htaken
  · exact h.fresh hm hended (h.apart c hhanded) ((h.account c).mpr (.inl hhanded))
  · have hmem : c ∈ came := (h.account c).mpr (.inr (hm.taken_ended c htaken))
    rcases hm.ended c hended with ⟨-, hkept⟩ | ⟨hlive, -⟩ | ⟨hle, -⟩
    · exact hkept htaken
    · exact h.live_apart c hlive hmem
    · have := h.came_lt c hmem
      omega

theorem Balanced.step (h : Balanced number Live Ended n came handed)
    (hm : Moves number Live Ended n Live' Ended' n' taken) (hnodup : new.Nodup)
    (hnew : ∀ c, c ∈ new ↔ Ended' c ∧ ¬ Ended c) :
    Balanced number Live' Ended' n' (came ++ new) (handed ++ taken) where
  came_nodup := by
    refine List.nodup_append.mpr ⟨h.came_nodup, hnodup, ?_⟩
    rintro c hc d hd rfl
    obtain ⟨hended, hold⟩ := (hnew c).mp hd
    exact h.fresh hm hended hold hc
  handed_nodup := by
    refine List.nodup_append.mpr ⟨h.handed_nodup, hm.taken_nodup, ?_⟩
    rintro c hc d hd rfl
    exact h.apart c hc (hm.taken_ended c hd)
  account c := by
    rw [List.mem_append, List.mem_append, hnew, h.account]
    constructor
    · rintro ((hc | hended) | ⟨hended, -⟩)
      · exact .inl (.inl hc)
      · rcases hm.kept c hended with hkept | htaken
        · exact .inr hkept
        · exact .inl (.inr htaken)
      · exact .inr hended
    · rintro ((hc | htaken) | hended)
      · exact .inl (.inl hc)
      · exact .inl (.inr (hm.taken_ended c htaken))
      · by_cases hold : Ended c
        · exact .inl (.inr hold)
        · exact .inr ⟨hended, hold⟩
  apart c hc := h.gone hm hc
  live_apart c hlive hmem := by
    obtain ⟨hnot, hbefore⟩ := hm.live c hlive
    rcases List.mem_append.mp hmem with hold | hc
    · rcases hbefore with hlive | ⟨hle, -⟩
      · exact h.live_apart c hlive hold
      · have := h.came_lt c hold
        omega
    · exact hnot ((hnew c).mp hc).1
  came_lt c hmem := by
    have hle := hm.le
    rcases List.mem_append.mp hmem with hold | hc
    · have := h.came_lt c hold
      omega
    · obtain ⟨hended, hold⟩ := (hnew c).mp hc
      rcases hm.ended c hended with ⟨hbefore, -⟩ | ⟨hlive, -⟩ | ⟨-, hlt⟩
      · exact absurd hbefore hold
      · have := h.live_lt c hlive
        omega
      · exact hlt
  live_lt c hlive := by
    have hle := hm.le
    rcases (hm.live c hlive).2 with hbefore | ⟨-, hlt⟩
    · have := h.live_lt c hbefore
      omega
    · exact hlt

end EdgeLibos.Lib.Ledger
