import EdgeLibos.Lib.HashMap

/-!
# The stable sort

Sorting by a key is the one arrangement of a list in ascending order of its keys that keeps,
for each key, the elements with that key in their order.
-/

namespace EdgeLibos.Lib

variable {α : Type u} {κ : Type v} [LinearOrder κ] {f : α → κ} {l l' : List α}

theorem filter_sortByKey (l : List α) (k : κ) :
    (sortByKey f l).filter (fun a => f a = k) = l.filter fun a => f a = k := by
  have : Std.Total fun a b : α => f a ≤ f b := ⟨fun a b => le_total (f a) (f b)⟩
  have : IsTrans α fun a b : α => f a ≤ f b := ⟨fun a b c => le_trans⟩
  have hpair : (l.filter fun a => f a = k).Pairwise fun a b => f a ≤ f b := by
    apply List.pairwise_of_forall_mem_list
    intro a ha b hb
    simp only [List.mem_filter, decide_eq_true_eq] at ha hb
    rw [ha.2, hb.2]
  have hsub : (l.filter fun a => f a = k).Sublist (sortByKey f l) :=
    List.sublist_insertionSort hpair List.filter_sublist
  have hfilter := hsub.filter fun a => f a = k
  rw [List.filter_filter] at hfilter
  simp only [Bool.and_self] at hfilter
  exact (hfilter.eq_of_length ((sortByKey_perm l).filter _).length_eq.symm).symm

theorem mem_of_filter_eq (h : ∀ k, l.filter (fun a => f a = k) = l'.filter fun a => f a = k) (ha : a ∈ l) :
    a ∈ l' := by
  have hmem : a ∈ l.filter fun b => f b = f a := List.mem_filter.mpr ⟨ha, by simp⟩
  rw [h (f a)] at hmem
  exact (List.mem_filter.mp hmem).1

theorem eq_of_filter_eq (hl : l.Pairwise fun a b => f a ≤ f b) (hl' : l'.Pairwise fun a b => f a ≤ f b)
    (h : ∀ k, l.filter (fun a => f a = k) = l'.filter fun a => f a = k) : l = l' := by
  induction l generalizing l' with
  | nil =>
    cases l' with
    | nil => rfl
    | cons b l' => exact absurd (mem_of_filter_eq (fun k => (h k).symm) List.mem_cons_self) List.not_mem_nil
  | cons a l ih =>
    cases l' with
    | nil => exact absurd (mem_of_filter_eq h List.mem_cons_self) List.not_mem_nil
    | cons b l' =>
      obtain ⟨ha, htail⟩ := List.pairwise_cons.mp hl
      obtain ⟨hb, htail'⟩ := List.pairwise_cons.mp hl'
      have hab : f a ≤ f b := by
        rcases List.mem_cons.mp (mem_of_filter_eq (fun k => (h k).symm) (List.mem_cons_self (a := b))) with rfl | hmem
        · exact le_refl _
        · exact ha b hmem
      have hba : f b ≤ f a := by
        rcases List.mem_cons.mp (mem_of_filter_eq h (List.mem_cons_self (a := a))) with rfl | hmem
        · exact le_refl _
        · exact hb a hmem
      have hkey : f b = f a := le_antisymm hba hab
      have hhead := h (f a)
      rw [List.filter_cons_of_pos (by simp), List.filter_cons_of_pos (by simp [hkey])] at hhead
      obtain ⟨rfl, -⟩ := List.cons.inj hhead
      refine congrArg (a :: ·) (ih htail htail' ?_)
      intro k
      have hk := h k
      by_cases hka : f a = k
      · rw [List.filter_cons_of_pos (by simp [hka]), List.filter_cons_of_pos (by simp [hka])] at hk
        exact (List.cons.inj hk).2
      · rwa [List.filter_cons_of_neg (by simp [hka]), List.filter_cons_of_neg (by simp [hka])] at hk

theorem eq_sortByKey_iff : l' = sortByKey f l ↔
    l'.Pairwise (fun a b => f a ≤ f b) ∧ ∀ k, l'.filter (fun a => f a = k) = l.filter fun a => f a = k := by
  constructor
  · rintro rfl
    exact ⟨sortByKey_pairwise l, filter_sortByKey l⟩
  · rintro ⟨hpair, hfilter⟩
    apply eq_of_filter_eq hpair (sortByKey_pairwise l)
    intro k
    rw [hfilter, filter_sortByKey]

end EdgeLibos.Lib
