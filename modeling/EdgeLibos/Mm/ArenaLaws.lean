import EdgeLibos.Mm.Arena

/-!
# What one arena operation does

`Arena.Ok` is the invariant of the module documentation. `Arena.spare` are
the offsets the arena may still hand out: its holes and the tail above the
bump pointer. `alloc` takes its range out of them; `free` of a range that is
below the bump pointer and touches no hole puts exactly that range back.
-/

namespace EdgeLibos.Mm

open Lib

structure Arena.Ok (a : Arena) : Prop where
  used_le : a.used ≤ ARENA_SIZE
  holes : SpansOk a.freeList
  inside : ∀ r ∈ a.freeList, r.1 + r.2 ≤ a.used

instance (a : Arena) : Decidable a.Ok :=
  decidable_of_iff
    (a.used ≤ ARENA_SIZE ∧ SpansOk a.freeList ∧ ∀ r ∈ a.freeList, r.1 + r.2 ≤ a.used)
    ⟨fun h => ⟨h.1, h.2.1, h.2.2⟩, fun h => ⟨h.used_le, h.holes, h.inside⟩⟩

structure Arena.Bounded (a : Arena) : Prop where
  used_le : a.used ≤ ARENA_SIZE
  inside : ∀ r ∈ a.freeList, r.1 + r.2 ≤ ARENA_SIZE

theorem Arena.Ok.bounded {a : Arena} (h : a.Ok) : a.Bounded :=
  ⟨h.used_le, fun r hr => (h.inside r hr).trans h.used_le⟩

theorem Arena.Ok.available_le {a : Arena} (h : a.Ok) : a.available ≤ ARENA_SIZE := by
  have hsum := h.holes.sum_le h.inside
  have hused := h.used_le
  unfold Arena.available
  omega

/-- Offsets that are not handed out: in a hole, or beyond the bump pointer. -/
def Arena.spare (a : Arena) : Set Nat := covers a.freeList ∪ Set.Ico a.used ARENA_SIZE

theorem Arena.new_ok (base : Nat) : (Arena.new base).Ok :=
  ⟨Nat.zero_le _, .nil, by simp [Arena.new]⟩

-- ---------------------------------------------------------------------------
-- The free-list search and the carve
-- ---------------------------------------------------------------------------

/-- The hole has room for the request from its first aligned offset on. -/
def Fits (len align : Nat) (r : Span) : Prop := alignUp r.1 align - r.1 + len ≤ r.2

def waste (len align : Nat) (r : Span) : Nat := r.2 - len - (alignUp r.1 align - r.1)

/-- One round of the search: the hole becomes the best so far, or there is one at
least as good already, or it does not fit. -/
theorem bestFit_cons (len align : Nat) (r : Span) (rest : List Span) (i : Nat) (best : Option Fit) :
    ∃ best', bestFit len align (r :: rest) i best = bestFit len align rest (i + 1) best' ∧
      ((best' = best ∧ (Fits len align r → ∃ b, best = some b ∧ b.waste ≤ waste len align r)) ∨
        (Fits len align r ∧ best' = some ⟨i, alignUp r.1 align, waste len align r⟩ ∧
          ∀ b ∈ best, waste len align r < b.waste)) := by
  simp only [bestFit]
  by_cases hfit : Fits len align r
  · rw [if_neg (Nat.not_lt.mpr hfit)]
    cases best with
    | none => exact ⟨_, rfl, .inr ⟨hfit, rfl, by simp⟩⟩
    | some b =>
      simp only
      split
      · rename_i hlt
        refine ⟨_, rfl, .inr ⟨hfit, rfl, ?_⟩⟩
        rintro _ ⟨⟩
        exact hlt
      · rename_i hge
        exact ⟨_, rfl, .inl ⟨rfl, fun _ => ⟨b, rfl, Nat.not_lt.mp hge⟩⟩⟩
  · rw [if_pos (Nat.not_le.mp hfit)]
    exact ⟨_, rfl, .inl ⟨rfl, fun h => absurd h hfit⟩⟩

theorem bestFit_some (h : bestFit len align l i best = some f) :
    best = some f ∨ ∃ (k : Nat) (r : Span), l[k]? = some r ∧ Fits len align r ∧
      f = ⟨i + k, alignUp r.1 align, waste len align r⟩ := by
  induction l generalizing i best with
  | nil => exact .inl h
  | cons r rest ih =>
    obtain ⟨best', heq, hbest⟩ := bestFit_cons len align r rest i best
    rw [heq] at h
    rcases ih h with hb | ⟨k, s, hk, hfit, rfl⟩
    · rcases hbest with ⟨rfl, -⟩ | ⟨hfit, rfl, -⟩
      · exact .inl hb
      · exact .inr ⟨0, r, rfl, hfit, (Option.some.inj hb).symm⟩
    · refine .inr ⟨k + 1, s, by simpa using hk, hfit, ?_⟩
      rw [Nat.add_assoc, Nat.add_comm 1 k]

theorem bestFit_least (h : bestFit len align l i best = some f) :
    (∀ b ∈ best, f.waste ≤ b.waste) ∧ ∀ r ∈ l, Fits len align r → f.waste ≤ waste len align r := by
  induction l generalizing i best with
  | nil =>
    refine ⟨?_, by simp⟩
    intro b hb
    cases h.symm.trans hb
    exact le_refl _
  | cons r rest ih =>
    obtain ⟨best', heq, hbest⟩ := bestFit_cons len align r rest i best
    rw [heq] at h
    obtain ⟨hold, hrest⟩ := ih h
    rcases hbest with ⟨rfl, hr⟩ | ⟨hfit, rfl, hlt⟩
    · refine ⟨hold, ?_⟩
      intro s hs hfit
      rcases List.mem_cons.mp hs with rfl | hs
      · obtain ⟨b, hb, hle⟩ := hr hfit
        exact (hold b hb).trans hle
      · exact hrest s hs hfit
    · have hr := hold _ rfl
      refine ⟨fun b hb => hr.trans (Nat.le_of_lt (hlt b hb)), ?_⟩
      intro s hs hs'
      rcases List.mem_cons.mp hs with rfl | hs
      · exact hr
      · exact hrest s hs hs'

theorem bestFit_none (h : bestFit len align l i best = none) :
    best = none ∧ ∀ r ∈ l, ¬ Fits len align r := by
  induction l generalizing i best with
  | nil => exact ⟨h, by simp⟩
  | cons r rest ih =>
    obtain ⟨best', heq, hbest⟩ := bestFit_cons len align r rest i best
    rw [heq] at h
    obtain ⟨hnone, hrest⟩ := ih h
    rcases hbest with ⟨rfl, hr⟩ | ⟨-, rfl, -⟩
    · refine ⟨hnone, ?_⟩
      intro s hs hfit
      rcases List.mem_cons.mp hs with rfl | hs
      · obtain ⟨b, hb, -⟩ := hr hfit
        cases hnone.symm.trans hb
      · exact hrest s hs hfit
    · cases hnone

theorem carve_perm (hi : l[i]? = some r) (h1 : r.1 ≤ off) (h2 : off + len ≤ r.1 + r.2) :
    (carve l i off len).Perm (r.minus off len ++ l.eraseIdx i) := by
  obtain ⟨hil, hir⟩ := List.getElem?_eq_some_iff.mp hi
  unfold carve Span.minus
  simp only [List.getD_eq_getElem?_getD, hi, Option.getD_some]
  by_cases hfront : off = r.1 <;> by_cases hback : off + len = r.1 + r.2
  · have e1 : ¬ r.1 < off := by omega
    have e2 : ¬ off + len < r.1 + r.2 := by omega
    rw [if_pos ⟨hfront, hback⟩, if_neg e1, if_neg e2]
    exact swapRemove_perm l i hil
  · have e1 : ¬ r.1 < off := by omega
    have e2 : off + len < r.1 + r.2 := by omega
    rw [if_neg (by tauto), if_pos hfront, if_neg e1, if_pos e2]
    exact set_perm l i _ hil
  · have e1 : r.1 < off := by omega
    have e2 : ¬ off + len < r.1 + r.2 := by omega
    rw [if_neg (by tauto), if_neg hfront, if_pos hback, if_pos e1, if_neg e2]
    exact set_perm l i _ hil
  · have e1 : r.1 < off := by omega
    have e2 : off + len < r.1 + r.2 := by omega
    rw [if_neg (by tauto), if_neg hfront, if_neg hback, if_pos e1, if_pos e2]
    refine ((set_perm l i _ hil).append_right _).trans ?_
    simp only [List.cons_append, List.nil_append]
    exact (List.perm_append_singleton _ _).cons _

-- ---------------------------------------------------------------------------
-- `alloc`
-- ---------------------------------------------------------------------------

/-- Either the hole that fits best was carved, or no hole fitted and the bump pointer moved. -/
theorem Arena.alloc_cases {a a' : Arena} (h : a.alloc len align = some (addr, a')) :
    ∃ off, addr = (a.base + off % 2 ^ 32) % 2 ^ 32 ∧
      ((∃ i r, a.freeList[i]? = some r ∧ off = alignUp r.1 align ∧ Fits len align r ∧
          (∀ s ∈ a.freeList, Fits len align s → waste len align r ≤ waste len align s) ∧
          a' = { a with freeList := carve a.freeList i off len }) ∨
        ((∀ r ∈ a.freeList, ¬ Fits len align r) ∧ off = alignUp a.used align ∧
          off + len ≤ ARENA_SIZE ∧ a' = { a with used := off + len })) := by
  unfold Arena.alloc at h
  split at h
  · rename_i fit hfit
    obtain ⟨rfl, rfl⟩ := Prod.mk.inj (Option.some.inj h)
    have hleast := (bestFit_least hfit).2
    rcases bestFit_some hfit with hb | ⟨k, r, hk, hr, rfl⟩
    · cases hb
    · refine ⟨alignUp r.1 align, rfl, .inl ⟨k, r, hk, rfl, hr, hleast, ?_⟩⟩
      simp only [Nat.zero_add]
  · rename_i hnone
    simp only at h
    split at h
    · cases h
    · rename_i hsize
      obtain ⟨rfl, rfl⟩ := Prod.mk.inj (Option.some.inj h)
      exact ⟨_, rfl, .inr ⟨(bestFit_none hnone).2, rfl, by omega, rfl⟩⟩

theorem Arena.alloc_none_iff {a : Arena} : a.alloc len align = none ↔
    (∀ r ∈ a.freeList, ¬ Fits len align r) ∧ ARENA_SIZE < alignUp a.used align + len := by
  unfold Arena.alloc
  cases hfit : bestFit len align a.freeList 0 none with
  | some f =>
    simp only [reduceCtorEq, false_iff, not_and]
    intro hno
    rcases bestFit_some hfit with hb | ⟨k, r, hk, hr, -⟩
    · cases hb
    · exact absurd hr (hno r (List.mem_of_getElem? hk))
  | none =>
    have hno := (bestFit_none hfit).2
    by_cases hsize : alignUp a.used align + len > ARENA_SIZE
    · simp only [hsize, if_true, true_iff]
      exact ⟨hno, trivial⟩
    · simp only [hsize, if_false, reduceCtorEq, false_iff, not_and]
      exact fun _ h => h

theorem Arena.alloc_base {a a' : Arena} (h : a.alloc len align = some (addr, a')) :
    a'.base = a.base := by
  obtain ⟨off, -, ⟨i, r, -, -, -, -, rfl⟩ | ⟨-, -, -, rfl⟩⟩ := Arena.alloc_cases h
  · rfl
  · rfl

/-- Alignment and bounds of an allocation, in any arena that is bounded. -/
theorem Arena.alloc_bounded {a a' : Arena} (hb : a.Bounded)
    (h : a.alloc len 8 = some (addr, a')) :
    a'.Bounded ∧ ∃ off, addr = (a.base + off) % 2 ^ 32 ∧ 8 ∣ off ∧ off + len ≤ ARENA_SIZE := by
  have hsz : ARENA_SIZE < 2 ^ 32 := by decide
  obtain ⟨off, rfl, ⟨i, r, hi, rfl, hfit, -, rfl⟩ | ⟨-, rfl, hfit, rfl⟩⟩ := Arena.alloc_cases h
  · have hr : r ∈ a.freeList := List.mem_of_getElem? hi
    unfold Fits at hfit
    have hin := hb.inside r hr
    obtain ⟨h1, h2, h3⟩ := alignUp_eight (show r.1 ≤ ARENA_SIZE by omega)
    have hle : alignUp r.1 8 + len ≤ r.1 + r.2 := by omega
    refine ⟨⟨hb.used_le, ?_⟩, alignUp r.1 8, ?_, h3, by omega⟩
    · intro q hq
      have hp := carve_perm hi h1 hle
      rcases List.mem_append.mp (hp.mem_iff.mp hq) with hq | hq
      · have := (Span.mem_minus hq).2
        omega
      · exact hb.inside q (List.mem_of_mem_eraseIdx hq)
    · rw [Nat.mod_eq_of_lt (show alignUp r.1 8 < 2 ^ 32 by omega)]
  · obtain ⟨h1, h2, h3⟩ := alignUp_eight hb.used_le
    refine ⟨⟨hfit, hb.inside⟩, alignUp a.used 8, ?_, h3, hfit⟩
    rw [Nat.mod_eq_of_lt (show alignUp a.used 8 < 2 ^ 32 by omega)]

/-- What an arena that keeps the invariant is after it placed `len` bytes at
`off`: in the hole that fits best, or in the tail when no hole fits. -/
structure Placed (a a' : Arena) (off len k : Nat) : Prop where
  ok : a'.Ok
  aligned : 2 ^ k ∣ off
  inside : off + len ≤ ARENA_SIZE
  holes : covers a'.freeList = covers a.freeList \ Set.Ico off (off + len)
  place : (∃ r ∈ a.freeList, Fits len (2 ^ k) r ∧ r.1 ≤ off ∧ off + len ≤ r.1 + r.2 ∧
      (∀ s ∈ a.freeList, Fits len (2 ^ k) s → waste len (2 ^ k) r ≤ waste len (2 ^ k) s) ∧
      a'.used = a.used) ∨
    ((∀ r ∈ a.freeList, ¬ Fits len (2 ^ k) r) ∧ a.used ≤ off ∧ a'.used = off + len)

theorem alignUp_arena (hk : k < 64) (hn : off ≤ ARENA_SIZE) :
    off ≤ alignUp off (2 ^ k) ∧ alignUp off (2 ^ k) < off + 2 ^ k ∧
      2 ^ k ∣ alignUp off (2 ^ k) := by
  have hle : 2 ^ k ≤ 2 ^ 63 := Nat.pow_le_pow_right (by decide) (by omega)
  unfold ARENA_SIZE at hn
  exact alignUp_spec (by omega) (by omega)

theorem Arena.alloc_placed {a a' : Arena} (ha : a.Ok) (hk : k < 64)
    (h : a.alloc len (2 ^ k) = some (addr, a')) :
    ∃ off, addr = (a.base + off) % 2 ^ 32 ∧ Placed a a' off len k := by
  have hsz : ARENA_SIZE < 2 ^ 32 := by decide
  have hused := ha.used_le
  obtain ⟨off, rfl, ⟨i, r, hi, rfl, hfit, hleast, rfl⟩ | ⟨hno, rfl, hfit, rfl⟩⟩ :=
    Arena.alloc_cases h
  · have hr : r ∈ a.freeList := List.mem_of_getElem? hi
    have hin := ha.inside r hr
    have hroom := hfit
    unfold Fits at hroom
    obtain ⟨h1, -, h3⟩ := alignUp_arena hk (show r.1 ≤ ARENA_SIZE by omega)
    obtain ⟨hil, rfl⟩ := List.getElem?_eq_some_iff.mp hi
    generalize alignUp a.freeList[i].1 (2 ^ k) = off at h1 h3 hroom ⊢
    have hle : off + len ≤ a.freeList[i].1 + a.freeList[i].2 := by omega
    have hp := carve_perm hi h1 hle
    obtain ⟨hok, hcov⟩ := ha.holes.cut (perm_getElem_cons_eraseIdx _ _ hil) h1 hle
    rw [← covers_perm hp] at hcov
    have hmod : off % 2 ^ 32 = off := Nat.mod_eq_of_lt (by omega)
    refine ⟨off, by rw [hmod], ⟨⟨hused, hok.perm hp.symm, ?_⟩, h3, by omega, hcov,
      .inl ⟨_, hr, hfit, h1, hle, hleast, rfl⟩⟩⟩
    intro q hq
    rcases List.mem_append.mp (hp.mem_iff.mp hq) with hq | hq
    · have := (Span.mem_minus hq).2
      simp only
      omega
    · exact ha.inside q (List.mem_of_mem_eraseIdx hq)
  · obtain ⟨h1, -, h3⟩ := alignUp_arena hk hused
    generalize alignUp a.used (2 ^ k) = off at h1 h3 hfit ⊢
    have hmod : off % 2 ^ 32 = off := Nat.mod_eq_of_lt (by omega)
    refine ⟨off, by rw [hmod], ⟨⟨hfit, ha.holes, ?_⟩, h3, hfit, ?_, .inr ⟨hno, h1, rfl⟩⟩⟩
    · intro r hr
      have := ha.inside r hr
      simp only
      omega
    · -- no hole reaches into the tail
      refine (sdiff_eq_left.mpr ?_).symm
      rw [Set.disjoint_left]
      rintro x ⟨r, hr, hx⟩ hx'
      have := ha.inside r hr
      simp only [Span.mem_points] at hx
      simp only [Set.mem_Ico] at hx'
      omega

/-- On an arena that keeps the invariant, `alloc` takes its range out of the
spare offsets and gives none back. The bump path also drops the few bytes it
skips for alignment. -/
theorem Arena.alloc_ok {a a' : Arena} (ha : a.Ok) (h : a.alloc len 8 = some (addr, a')) :
    a'.Ok ∧ ∃ off, addr = (a.base + off) % 2 ^ 32 ∧ 8 ∣ off ∧ off + len ≤ ARENA_SIZE ∧
      Set.Ico off (off + len) ⊆ a.spare ∧ a'.spare ⊆ a.spare \ Set.Ico off (off + len) := by
  obtain ⟨off, haddr, hp⟩ := Arena.alloc_placed (k := 3) ha (by decide) h
  refine ⟨hp.ok, off, haddr, hp.aligned, hp.inside, ?_, ?_⟩
  · intro x hx
    have hx' := hx
    simp only [Set.mem_Ico] at hx'
    rcases hp.place with ⟨r, hr, -, h1, h2, -, -⟩ | ⟨-, h1, -⟩
    · refine .inl ⟨r, hr, ?_⟩
      simp only [Span.mem_points]
      omega
    · refine .inr ⟨by omega, ?_⟩
      have := hp.inside
      omega
  · rintro x (hx | hx)
    · rw [hp.holes] at hx
      exact ⟨.inl hx.1, hx.2⟩
    · simp only [Set.mem_Ico] at hx
      rcases hp.place with ⟨r, hr, -, -, h2, -, hu⟩ | ⟨-, h1, hu⟩
      · have := ha.inside r hr
        refine ⟨.inr ?_, ?_⟩ <;> simp only [Set.mem_Ico] <;> omega
      · refine ⟨.inr ?_, ?_⟩ <;> simp only [Set.mem_Ico] <;> omega

theorem Arena.alloc_new (base : Nat) (hlen : len ≤ ARENA_SIZE) :
    (Arena.new base).alloc len 8 =
      some (base % 2 ^ 32, { base, used := len, freeList := [] }) := by
  have h0 : alignUp 0 8 = 0 := by decide
  simp [Arena.alloc, Arena.new, bestFit, h0, hlen]

-- ---------------------------------------------------------------------------
-- `free` and `contains`
-- ---------------------------------------------------------------------------

theorem Arena.free_eq {a : Arena} (hlen : 0 < len) (hbase : a.base ≤ off)
    (hend : off - a.base + len ≤ ARENA_SIZE) :
    a.free off len =
      (true, { a with freeList := insertHole a.freeList (off - a.base, len) }) := by
  have hsz : ARENA_SIZE < 2 ^ 64 := by decide
  unfold Arena.free
  rw [if_neg (by omega), if_neg (by omega)]
  simp only
  rw [if_neg (by omega), if_neg (by omega)]

theorem Arena.free_refused {a : Arena}
    (h : len = 0 ∨ off < a.base ∨ ARENA_SIZE < off - a.base + len) :
    a.free off len = (false, a) := by
  unfold Arena.free
  split
  · rfl
  split
  · rfl
  simp only
  split
  · rfl
  split
  · rfl
  · omega

theorem Arena.free_base (a : Arena) (off len : Nat) : (a.free off len).2.base = a.base := by
  unfold Arena.free
  split
  · rfl
  split
  · rfl
  simp only
  split
  · rfl
  split <;> rfl

theorem Arena.free_bounded {a : Arena} (hb : a.Bounded) (off len : Nat) :
    (a.free off len).2.Bounded := by
  by_cases h : len = 0 ∨ off < a.base ∨ ARENA_SIZE < off - a.base + len
  · rw [Arena.free_refused h]
    exact hb
  · rw [Arena.free_eq (by omega) (by omega) (by omega)]
    refine ⟨hb.used_le, mem_coalesce_le ?_⟩
    intro r hr
    rw [List.mem_insertionSort] at hr
    rcases List.mem_append.mp hr with hr | hr
    · exact hb.inside r hr
    · simp only [List.mem_singleton] at hr
      subst hr
      simp only
      omega

def Arena.Freeable (a : Arena) (o len : Nat) : Prop :=
  o + len ≤ a.used ∧ ∀ r ∈ a.freeList, Span.Apart (o, len) r

instance (a : Arena) (o len : Nat) : Decidable (a.Freeable o len) := by
  unfold Arena.Freeable
  infer_instance

/-- Freeing a range puts its points into the holes, whatever it overlaps. -/
theorem covers_insertHole (l : List Span) (r : Span) :
    covers (insertHole l r) = covers l ∪ r.points := by
  rw [insertHole, covers_coalesce, covers_perm (List.perm_insertionSort ..), covers_append,
    covers_cons, covers_nil, Set.union_empty]

/-- A range that touches no hole leaves maximal runs. -/
theorem insertHole_ok {l : List Span} {r : Span} (hl : SpansOk l) (hr : 0 < r.2)
    (hapart : ∀ s ∈ l, r.Apart s) :
    Separated (insertHole l r) ∧ covers (insertHole l r) = covers l ∪ r.points := by
  have hperm := List.perm_insertionSort (fun r s : Span => r.1 ≤ s.1) (l ++ [r])
  have hok : SpansOk (l ++ [r]) := by
    refine spansOk_append.mpr ⟨hl, spansOk_cons.mpr ⟨hr, by simp, .nil⟩, ?_⟩
    intro s hs t ht
    rw [List.mem_singleton.mp ht]
    exact (hapart s hs).symm
  refine ⟨(hok.perm hperm.symm).coalesce_separated ?_, covers_insertHole l r⟩
  exact List.pairwise_insertionSort _ _

theorem Arena.free_ok {a : Arena} (ha : a.Ok) (hlen : 0 < len) (hbase : a.base ≤ off)
    (hf : a.Freeable (off - a.base) len) :
    (a.free off len).2.Ok ∧ (a.free off len).2.used = a.used ∧
      covers (a.free off len).2.freeList =
        covers a.freeList ∪ Set.Ico (off - a.base) (off - a.base + len) := by
  obtain ⟨hused, hapart⟩ := hf
  have hsz := ha.used_le
  rw [Arena.free_eq hlen hbase (by omega)]
  obtain ⟨hsep, hcov⟩ := insertHole_ok ha.holes hlen hapart
  refine ⟨⟨hsz, hsep.spansOk, mem_coalesce_le ?_⟩, rfl, hcov⟩
  intro r hr
  rw [(List.perm_insertionSort ..).mem_iff] at hr
  rcases List.mem_append.mp hr with hr | hr
  · exact ha.inside r hr
  · rw [List.mem_singleton.mp hr]
    exact hused

theorem Arena.contains_iff {a : Arena} (htop : a.base + ARENA_SIZE < 2 ^ 32) :
    a.contains off len = true ↔
      a.base ≤ off ∧ off + len % 2 ^ 32 ≤ a.base + ARENA_SIZE := by
  unfold Arena.contains
  rw [Nat.mod_eq_of_lt htop]
  split
  · simp
    omega
  · simp

end EdgeLibos.Mm
