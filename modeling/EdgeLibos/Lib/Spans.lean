import Mathlib.Algebra.Ring.Nat
import Mathlib.Data.List.Sort
import Mathlib.Data.Set.Lattice
import Mathlib.Order.CompletePartialOrder
import Mathlib.Order.Interval.Finset.Nat
import Mathlib.Order.Interval.Set.Basic

/-!
# Lists of half-open spans

A span is an offset and a length; its points are `[off, off + len)`. A list
of spans stands for the union of their points, whatever the order of the
list. The laws below are about the four ways such a list is edited: an entry
is dropped by swapping the last one into its place, an entry is cut around a
range taken out of it, the list is sorted, and touching neighbours are
merged.
-/

namespace EdgeLibos.Lib

abbrev Span := Nat × Nat

def Span.points (r : Span) : Set Nat := Set.Ico r.1 (r.1 + r.2)

/-- One of the two ends before the other starts. -/
def Span.Apart (r s : Span) : Prop := r.1 + r.2 ≤ s.1 ∨ s.1 + s.2 ≤ r.1

instance (r s : Span) : Decidable (r.Apart s) := by
  unfold Span.Apart
  infer_instance

def covers (l : List Span) : Set Nat := { x | ∃ r ∈ l, x ∈ r.points }

structure SpansOk (l : List Span) : Prop where
  nonempty : ∀ r ∈ l, 0 < r.2
  apart : l.Pairwise Span.Apart

instance (l : List Span) : Decidable (SpansOk l) :=
  decidable_of_iff ((∀ r ∈ l, 0 < r.2) ∧ l.Pairwise Span.Apart)
    ⟨fun h => ⟨h.1, h.2⟩, fun h => ⟨h.nonempty, h.apart⟩⟩

def spanSum (l : List Span) : Nat := (l.map fun r => r.2).sum

@[simp] theorem Span.mem_points {r : Span} : x ∈ r.points ↔ r.1 ≤ x ∧ x < r.1 + r.2 := Iff.rfl

theorem Span.Apart.symm {r s : Span} (h : r.Apart s) : s.Apart r := Or.symm h

theorem Span.apart_iff_disjoint {r s : Span} (hr : 0 < r.2) (hs : 0 < s.2) :
    r.Apart s ↔ Disjoint r.points s.points := by
  rw [Set.disjoint_left]
  constructor
  · intro h x hx hy
    simp only [Span.mem_points] at hx hy
    unfold Span.Apart at h
    omega
  · intro h
    -- The later of the two starts lies in its own span, so not in the other.
    have h1 := h (a := max r.1 s.1)
    simp only [Span.mem_points] at h1
    unfold Span.Apart
    omega

@[simp] theorem mem_covers : x ∈ covers l ↔ ∃ r ∈ l, x ∈ r.points := Iff.rfl

@[simp] theorem covers_nil : covers [] = ∅ := by
  ext x; simp

@[simp] theorem covers_cons : covers (r :: l) = r.points ∪ covers l := by
  ext x; simp [covers]

@[simp] theorem covers_append : covers (l ++ l') = covers l ∪ covers l' := by
  ext x; simp [covers, or_and_right, exists_or]

@[simp] theorem spanSum_nil : spanSum [] = 0 := rfl

@[simp] theorem spanSum_cons : spanSum (r :: l) = r.2 + spanSum l := by
  simp [spanSum]

@[simp] theorem spanSum_append : spanSum (l ++ l') = spanSum l + spanSum l' := by
  simp [spanSum]

theorem spanSum_perm (h : l.Perm l') : spanSum l = spanSum l' := (h.map _).sum_eq

theorem covers_perm (h : l.Perm l') : covers l = covers l' := by
  ext x; simp [covers, h.mem_iff]

theorem SpansOk.perm (ho : SpansOk l) (h : l.Perm l') : SpansOk l' :=
  ⟨fun r hr => ho.nonempty r (h.mem_iff.mpr hr),
    (h.pairwise_iff fun h => Span.Apart.symm h).mp ho.apart⟩

theorem SpansOk.nil : SpansOk [] := ⟨by simp, .nil⟩

theorem spansOk_cons : SpansOk (r :: l) ↔ 0 < r.2 ∧ (∀ s ∈ l, r.Apart s) ∧ SpansOk l := by
  constructor
  · rintro ⟨hn, ha⟩
    rw [List.pairwise_cons] at ha
    exact ⟨hn r (by simp), ha.1, fun s hs => hn s (by simp [hs]), ha.2⟩
  · rintro ⟨hr, hra, hn, ha⟩
    refine ⟨?_, List.pairwise_cons.mpr ⟨hra, ha⟩⟩
    intro s hs
    rcases List.mem_cons.mp hs with rfl | hs
    · exact hr
    · exact hn s hs

theorem spansOk_append : SpansOk (l ++ l') ↔
    SpansOk l ∧ SpansOk l' ∧ ∀ r ∈ l, ∀ s ∈ l', r.Apart s := by
  constructor
  · rintro ⟨hn, ha⟩
    rw [List.pairwise_append] at ha
    exact ⟨⟨fun r hr => hn r (by simp [hr]), ha.1⟩, ⟨fun r hr => hn r (by simp [hr]), ha.2.1⟩, ha.2.2⟩
  · rintro ⟨h1, h2, h3⟩
    refine ⟨?_, List.pairwise_append.mpr ⟨h1.apart, h2.apart, h3⟩⟩
    intro r hr
    rcases List.mem_append.mp hr with hr | hr
    · exact h1.nonempty r hr
    · exact h2.nonempty r hr

theorem SpansOk.card (ho : SpansOk l) :
    ∃ s : Finset Nat, (s : Set Nat) = covers l ∧ s.card = (l.map fun r => r.2).sum := by
  induction l with
  | nil => exact ⟨∅, by simp, by simp⟩
  | cons r l ih =>
    obtain ⟨hr, hra, hl⟩ := spansOk_cons.mp ho
    obtain ⟨s, hs, hcard⟩ := ih hl
    have hdis : Disjoint (Finset.Ico r.1 (r.1 + r.2)) s := by
      rw [← Finset.disjoint_coe, hs, Finset.coe_Ico, Set.disjoint_left]
      rintro x hx ⟨q, hq, hxq⟩
      exact Set.disjoint_left.mp ((Span.apart_iff_disjoint hr (hl.nonempty q hq)).mp (hra q hq))
        hx hxq
    refine ⟨Finset.Ico r.1 (r.1 + r.2) ∪ s, ?_, ?_⟩
    · rw [Finset.coe_union, hs, Finset.coe_Ico, covers_cons]
      rfl
    · rw [Finset.card_union_of_disjoint hdis, hcard]
      simp

theorem SpansOk.sum_le (ho : SpansOk l) (hl : ∀ r ∈ l, r.1 + r.2 ≤ n) :
    (l.map fun r => r.2).sum ≤ n := by
  obtain ⟨s, hs, hcard⟩ := ho.card
  have hsub : s ⊆ Finset.range n := by
    intro x hx
    have hx' : x ∈ covers l := hs ▸ Finset.mem_coe.mpr hx
    obtain ⟨r, hr, hxr⟩ := hx'
    have hrn := hl r hr
    simp only [Span.mem_points] at hxr
    simp only [Finset.mem_range]
    omega
  simpa [hcard] using Finset.card_le_card hsub

-- ---------------------------------------------------------------------------
-- Dropping and replacing an entry
-- ---------------------------------------------------------------------------

/-- Remove entry `i` and move the last entry into its place. -/
def swapRemove (l : List α) (i : Nat) : List α :=
  match l.getLast? with
  | none => []
  | some x => (l.set i x).dropLast

theorem set_perm (l : List α) (i : Nat) (x : α) (hi : i < l.length) :
    (l.set i x).Perm (x :: l.eraseIdx i) := by
  rw [List.set_eq_take_append_cons_drop, if_pos hi, List.eraseIdx_eq_take_drop_succ]
  exact List.perm_middle

theorem perm_getElem_cons_eraseIdx (l : List α) (i : Nat) (hi : i < l.length) :
    l.Perm (l[i] :: l.eraseIdx i) := by
  have h := set_perm l i l[i] hi
  rwa [List.set_getElem_self hi] at h

theorem swapRemove_perm (l : List α) (i : Nat) (hi : i < l.length) :
    (swapRemove l i).Perm (l.eraseIdx i) := by
  rcases List.eq_nil_or_concat l with rfl | ⟨init, x, rfl⟩
  · simp at hi
  simp only [List.concat_eq_append, swapRemove, List.getLast?_append, List.getLast?_singleton,
    Option.some_or]
  by_cases h : i < init.length
  · rw [List.set_append_left _ _ h, List.dropLast_concat, List.eraseIdx_append_of_lt_length h]
    exact (set_perm init i x h).trans (List.perm_append_singleton x _).symm
  · have hi' : i = init.length := by
      simp at hi
      omega
    subst hi'
    simp [List.set_append_right, List.eraseIdx_append_of_length_le]

-- ---------------------------------------------------------------------------
-- Cutting a range out of an entry
-- ---------------------------------------------------------------------------

/-- What is left of `h` in front of and behind `[off, off + len)`. -/
def Span.minus (h : Span) (off len : Nat) : List Span :=
  (if h.1 < off then [(h.1, off - h.1)] else []) ++
    (if off + len < h.1 + h.2 then [(off + len, h.1 + h.2 - (off + len))] else [])

theorem Span.mem_minus {h r : Span} (hr : r ∈ h.minus off len) :
    0 < r.2 ∧ ((r.1 = h.1 ∧ r.1 + r.2 = off) ∨ (r.1 = off + len ∧ r.1 + r.2 = h.1 + h.2)) := by
  unfold Span.minus at hr
  rcases List.mem_append.mp hr with hr | hr
  · split at hr
    · simp only [List.mem_singleton] at hr
      subst hr
      refine ⟨by simp only; omega, .inl ⟨rfl, ?_⟩⟩
      simp only
      omega
    · simp at hr
  · split at hr
    · simp only [List.mem_singleton] at hr
      subst hr
      refine ⟨by simp only; omega, .inr ⟨rfl, ?_⟩⟩
      simp only
      omega
    · simp at hr

theorem Span.covers_minus {h : Span} (h1 : h.1 ≤ off) (h2 : off + len ≤ h.1 + h.2) :
    covers (h.minus off len) = h.points \ Set.Ico off (off + len) := by
  ext x
  simp only [Span.minus, covers_append, Set.mem_union, Set.mem_sdiff, Span.mem_points, Set.mem_Ico]
  split <;> split <;> simp [covers] <;> omega

theorem Span.spanSum_minus {h : Span} (h1 : h.1 ≤ off) (h2 : off + len ≤ h.1 + h.2) :
    spanSum (h.minus off len) + len = h.2 := by
  unfold Span.minus
  split <;> split <;> simp <;> omega

theorem Span.minus_ok (h : Span) (off len : Nat) : SpansOk (h.minus off len) := by
  refine ⟨fun r hr => (Span.mem_minus hr).1, ?_⟩
  unfold Span.minus
  split <;> split <;> simp [Span.Apart]
  left
  omega

theorem Span.Apart.minus {h s r : Span} (ha : h.Apart s) (h1 : h.1 ≤ off)
    (h2 : off + len ≤ h.1 + h.2) (hr : r ∈ h.minus off len) : r.Apart s := by
  have hm := (Span.mem_minus hr).2
  unfold Span.Apart at ha ⊢
  omega

/-- Cutting a range out of one entry takes exactly its points out of the
union, and leaves a list of the same kind. -/
theorem SpansOk.cut (ho : SpansOk l) (hl : l.Perm (h :: rest)) (h1 : h.1 ≤ off)
    (h2 : off + len ≤ h.1 + h.2) :
    SpansOk (h.minus off len ++ rest) ∧
      covers (h.minus off len ++ rest) = covers l \ Set.Ico off (off + len) := by
  have hc := spansOk_cons.mp (ho.perm hl)
  refine ⟨spansOk_append.mpr ⟨Span.minus_ok _ _ _, hc.2.2, ?_⟩, ?_⟩
  · intro r hr s hs
    exact (hc.2.1 s hs).minus h1 h2 hr
  · rw [covers_append, Span.covers_minus h1 h2, covers_perm hl, covers_cons]
    ext x
    simp only [Set.mem_union, Set.mem_sdiff, Set.mem_Ico]
    constructor
    · rintro (hx | hx)
      · exact ⟨.inl hx.1, hx.2⟩
      · refine ⟨.inr hx, ?_⟩
        -- `x` is in another entry, which is apart from the one that was cut.
        obtain ⟨s, hs, hx⟩ := hx
        have ha := hc.2.1 s hs
        simp only [Span.mem_points] at hx
        unfold Span.Apart at ha
        omega
    · rintro ⟨hx | hx, hn⟩
      · exact .inl ⟨hx, hn⟩
      · exact .inr hx

-- ---------------------------------------------------------------------------
-- Merging touching neighbours
-- ---------------------------------------------------------------------------

/-- Walk the list with `a` in hand, and merge the next entry into it as long
as that starts where `a` ends. -/
def coalesceFrom (a : Span) : List Span → List Span
  | [] => [a]
  | b :: rest =>
    if a.1 + a.2 = b.1 then coalesceFrom (a.1, a.2 + b.2) rest else a :: coalesceFrom b rest

def coalesce : List Span → List Span
  | [] => []
  | a :: rest => coalesceFrom a rest

theorem covers_coalesceFrom : covers (coalesceFrom a l) = covers (a :: l) := by
  induction l generalizing a with
  | nil => rfl
  | cons b rest ih =>
    unfold coalesceFrom
    split
    · rename_i h
      rw [ih]
      ext x
      simp only [covers_cons, Set.mem_union, Span.mem_points]
      rw [← or_assoc]
      refine or_congr_left ?_
      omega
    · simp only [covers_cons, ih]

theorem covers_coalesce : covers (coalesce l) = covers l := by
  cases l with
  | nil => rfl
  | cons a l => exact covers_coalesceFrom

theorem spanSum_coalesceFrom : spanSum (coalesceFrom a l) = a.2 + spanSum l := by
  induction l generalizing a with
  | nil => simp [coalesceFrom]
  | cons b rest ih =>
    unfold coalesceFrom
    split
    · rw [ih, spanSum_cons, Nat.add_assoc]
    · rw [spanSum_cons, ih, spanSum_cons]

theorem spanSum_coalesce : spanSum (coalesce l) = spanSum l := by
  cases l with
  | nil => rfl
  | cons a l => rw [coalesce, spanSum_coalesceFrom, spanSum_cons]

theorem mem_coalesceFrom_le (hl : ∀ r ∈ a :: l, r.1 + r.2 ≤ n) :
    ∀ r ∈ coalesceFrom a l, r.1 + r.2 ≤ n := by
  induction l generalizing a with
  | nil => simpa [coalesceFrom] using hl
  | cons b rest ih =>
    have ha := hl a (by simp)
    have hb := hl b (by simp)
    have hrest : ∀ r ∈ rest, r.1 + r.2 ≤ n := fun r hr => hl r (by simp [hr])
    unfold coalesceFrom
    split
    · refine ih ?_
      intro r hr
      rcases List.mem_cons.mp hr with rfl | hr
      · simp only
        omega
      · exact hrest r hr
    · intro r hr
      rcases List.mem_cons.mp hr with rfl | hr
      · exact ha
      · refine ih ?_ r hr
        intro q hq
        rcases List.mem_cons.mp hq with rfl | hq
        · exact hb
        · exact hrest q hq

theorem mem_coalesce_le (hl : ∀ r ∈ l, r.1 + r.2 ≤ n) : ∀ r ∈ coalesce l, r.1 + r.2 ≤ n := by
  cases l with
  | nil => simp [coalesce]
  | cons a l => exact mem_coalesceFrom_le hl

-- ---------------------------------------------------------------------------
-- Maximal intervals
-- ---------------------------------------------------------------------------

structure Separated (l : List Span) : Prop where
  nonempty : ∀ r ∈ l, 0 < r.2
  gaps : l.Pairwise fun r s => r.1 + r.2 < s.1

structure Span.Maximal (s : Set Nat) (r : Span) : Prop where
  nonempty : 0 < r.2
  subset : r.points ⊆ s
  before : ∀ x, x + 1 = r.1 → x ∉ s
  after : r.1 + r.2 ∉ s

theorem Separated.spansOk (h : Separated l) : SpansOk l :=
  ⟨h.nonempty, h.gaps.imp fun hgap => .inl (Nat.le_of_lt hgap)⟩

theorem separated_cons : Separated (r :: l) ↔
    0 < r.2 ∧ (∀ s ∈ l, r.1 + r.2 < s.1) ∧ Separated l := by
  constructor
  · rintro ⟨hn, hg⟩
    rw [List.pairwise_cons] at hg
    exact ⟨hn r (by simp), hg.1, fun s hs => hn s (by simp [hs]), hg.2⟩
  · rintro ⟨hr, hrg, hn, hg⟩
    refine ⟨?_, List.pairwise_cons.mpr ⟨hrg, hg⟩⟩
    intro s hs
    rcases List.mem_cons.mp hs with rfl | hs
    · exact hr
    · exact hn s hs

theorem Separated.gap (h : Separated l) (hr : r ∈ l) (hs : s ∈ l) (hne : r ≠ s) :
    r.1 + r.2 < s.1 ∨ s.1 + s.2 < r.1 := by
  have hsym : Std.Symm fun r s : Span => r.1 + r.2 < s.1 ∨ s.1 + s.2 < r.1 := ⟨fun _ _ => Or.symm⟩
  have hp := h.gaps.imp (S := fun r s : Span => r.1 + r.2 < s.1 ∨ s.1 + s.2 < r.1) Or.inl
  exact hp.forall hr hs hne

theorem Separated.maximal (h : Separated l) (hr : r ∈ l) : r.Maximal (covers l) := by
  refine ⟨h.nonempty r hr, fun x hx => ⟨r, hr, hx⟩, ?_, ?_⟩
  · rintro x hx ⟨s, hs, hxs⟩
    simp only [Span.mem_points] at hxs
    by_cases hne : r = s
    · subst hne
      omega
    · have := h.gap hr hs hne
      omega
  · rintro ⟨s, hs, hxs⟩
    simp only [Span.mem_points] at hxs
    by_cases hne : r = s
    · subst hne
      omega
    · have := h.gap hr hs hne
      omega

theorem Separated.mem_iff (h : Separated l) : r ∈ l ↔ r.Maximal (covers l) := by
  refine ⟨h.maximal, fun hmax => ?_⟩
  have hpos := hmax.nonempty
  obtain ⟨s, hs, hrs⟩ := hmax.subset (show r.1 ∈ r.points by simp only [Span.mem_points]; omega)
  have hsmax := h.maximal hs
  simp only [Span.mem_points] at hrs
  -- Both start where the run of points starts, and both end where it ends.
  have hstart : s.1 = r.1 := by
    by_contra hne
    refine hmax.before (r.1 - 1) (by omega) ⟨s, hs, ?_⟩
    simp only [Span.mem_points]
    omega
  have hend : s.1 + s.2 = r.1 + r.2 := by
    by_contra hne
    rcases Nat.lt_or_gt_of_ne hne with hlt | hgt
    · refine hsmax.after (hmax.subset ?_)
      simp only [Span.mem_points]
      omega
    · refine hmax.after ⟨s, hs, ?_⟩
      simp only [Span.mem_points]
      omega
  have heq : s = r := Prod.ext hstart (by omega)
  exact heq ▸ hs

theorem Separated.unique (h : Separated l) (h' : Separated l') (hc : covers l = covers l') : l = l' := by
  have hirr : Std.Irrefl fun r s : Span => r.1 + r.2 < s.1 := ⟨fun r hr => by omega⟩
  have hanti : Std.Antisymm fun r s : Span => r.1 + r.2 < s.1 := ⟨fun r s hr hs => by omega⟩
  refine List.Pairwise.eq_of_mem_iff h.gaps h'.gaps fun r => ?_
  rw [h.mem_iff, h'.mem_iff, hc]

theorem mem_coalesceFrom_ge (hl : ∀ r ∈ a :: l, n ≤ r.1) : ∀ r ∈ coalesceFrom a l, n ≤ r.1 := by
  induction l generalizing a with
  | nil => simpa [coalesceFrom] using hl
  | cons b rest ih =>
    have ha := hl a (by simp)
    have hrest : ∀ r ∈ b :: rest, n ≤ r.1 := fun r hr => hl r (List.mem_cons_of_mem _ hr)
    unfold coalesceFrom
    split
    · refine ih ?_
      intro r hr
      rcases List.mem_cons.mp hr with rfl | hr
      · exact ha
      · exact hrest r (List.mem_cons_of_mem _ hr)
    · intro r hr
      rcases List.mem_cons.mp hr with rfl | hr
      · exact ha
      · exact ih hrest r hr

theorem coalesceFrom_separated (hn : ∀ r ∈ a :: l, 0 < r.2)
    (ho : (a :: l).Pairwise fun r s => r.1 + r.2 ≤ s.1) : Separated (coalesceFrom a l) := by
  induction l generalizing a with
  | nil => exact ⟨hn, List.pairwise_singleton ..⟩
  | cons b rest ih =>
    obtain ⟨hab, hrest⟩ := List.pairwise_cons.mp ho
    have ha := hn a (by simp)
    have hb := hn b (by simp)
    have hn' : ∀ r ∈ b :: rest, 0 < r.2 := fun r hr => hn r (List.mem_cons_of_mem _ hr)
    unfold coalesceFrom
    split
    · rename_i htouch
      refine ih ?_ (List.pairwise_cons.mpr ⟨?_, (List.pairwise_cons.mp hrest).2⟩)
      · intro r hr
        rcases List.mem_cons.mp hr with rfl | hr
        · simp only
          omega
        · exact hn' r (List.mem_cons_of_mem _ hr)
      · intro s hs
        have := (List.pairwise_cons.mp hrest).1 s hs
        simp only
        omega
    · rename_i hgap
      refine separated_cons.mpr ⟨ha, ?_, ih hn' hrest⟩
      have hle := hab b (by simp)
      have hge : ∀ s ∈ coalesceFrom b rest, b.1 ≤ s.1 := by
        refine mem_coalesceFrom_ge fun r hr => ?_
        rcases List.mem_cons.mp hr with rfl | hr
        · exact le_refl _
        · have := (List.pairwise_cons.mp hrest).1 r hr
          omega
      intro s hs
      have := hge s hs
      omega

/-- Merging a list that is sorted by offset leaves the maximal runs of its points. -/
theorem SpansOk.coalesce_separated (ho : SpansOk l) (hs : l.Pairwise fun r s => r.1 ≤ s.1) :
    Separated (Lib.coalesce l) := by
  cases l with
  | nil => exact ⟨by simp [Lib.coalesce], .nil⟩
  | cons a l =>
    refine coalesceFrom_separated ho.nonempty ?_
    refine (hs.and ho.apart).imp_of_mem ?_
    rintro r s hr hs ⟨hle, hapart⟩
    have := ho.nonempty s hs
    unfold Span.Apart at hapart
    omega

end EdgeLibos.Lib
