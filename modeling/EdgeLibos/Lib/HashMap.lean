import Mathlib.Algebra.Ring.Nat
import Mathlib.Data.List.Sort

/-!
# Hash maps as lists in iteration order

A hash map is its list of entries, in whatever order its iterator yields them,
with the keys distinct. Two maps are the same mathematical object when they
agree on every key; their lists are then permutations of each other, and
sorting by key makes them equal.
-/

namespace EdgeLibos.Lib

structure HashMap (κ : Type u) (ν : Type v) where
  entries : List (κ × ν)
  nodup : (entries.map Prod.fst).Nodup
  deriving DecidableEq

abbrev HashSet (κ : Type u) := HashMap κ Unit

namespace HashMap

variable {κ : Type u} {ν : Type v}

def empty : HashMap κ ν := { entries := [], nodup := .nil }

def keys (m : HashMap κ ν) : List κ := m.entries.map Prod.fst

theorem nodup_filter {l : List (κ × ν)} (h : (l.map Prod.fst).Nodup) (p : κ × ν → Bool) :
    ((l.filter p).map Prod.fst).Nodup :=
  h.sublist ((List.filter_sublist).map _)

def mapValues {ν' : Type w} (m : HashMap κ ν) (f : ν → ν') : HashMap κ ν' where
  entries := m.entries.map fun e => (e.1, f e.2)
  nodup := by
    rw [List.map_map, Function.comp_def]
    exact m.nodup

@[simp] theorem entries_empty : (empty : HashMap κ ν).entries = [] := rfl

theorem nodup_entries (m : HashMap κ ν) : m.entries.Nodup := List.Nodup.of_map _ m.nodup

theorem nodup_map_of_key {γ : Type w} (m : HashMap κ ν) {g : κ × ν → γ} {key : γ → κ}
    (hk : ∀ p, key (g p) = p.1) : (m.entries.map g).Nodup := by
  refine List.Nodup.of_map key ?_
  rw [List.map_map, show key ∘ g = Prod.fst from funext hk]
  exact m.nodup

variable [DecidableEq κ]

def get? (m : HashMap κ ν) (k : κ) : Option ν := m.entries.lookup k

def containsKey (m : HashMap κ ν) (k : κ) : Bool := (m.get? k).isSome

def erase (m : HashMap κ ν) (k : κ) : HashMap κ ν where
  entries := m.entries.filter fun e => e.1 ≠ k
  nodup := nodup_filter m.nodup _

def insert (m : HashMap κ ν) (k : κ) (v : ν) : HashMap κ ν where
  entries := (k, v) :: (m.erase k).entries
  nodup := by
    rw [List.map_cons, List.nodup_cons]
    refine ⟨?_, (m.erase k).nodup⟩
    simp [erase]

def ofList (l : List (κ × ν)) : HashMap κ ν := l.foldl (fun m e => m.insert e.1 e.2) empty

@[simp] theorem get?_empty (k : κ) : (empty : HashMap κ ν).get? k = none := rfl

-- ---------------------------------------------------------------------------
-- Lookup and membership
-- ---------------------------------------------------------------------------

theorem lookup_eq_some_iff_mem {l : List (κ × ν)} (h : (l.map Prod.fst).Nodup) :
    l.lookup k = some v ↔ (k, v) ∈ l := by
  induction l with
  | nil => simp
  | cons e rest ih =>
    obtain ⟨k', v'⟩ := e
    rw [List.map_cons, List.nodup_cons] at h
    by_cases hk : k = k'
    · subst hk
      have hnot : (k, v) ∉ rest := fun hm =>
        h.1 (List.mem_map.mpr ⟨(k, v), hm, rfl⟩)
      simp [hnot, eq_comm]
    · have hb : (k == k') = false := by simpa using hk
      simp [List.lookup_cons, hb, ih h.2, hk]

theorem get?_eq_some_iff {m : HashMap κ ν} : m.get? k = some v ↔ (k, v) ∈ m.entries :=
  lookup_eq_some_iff_mem m.nodup

theorem containsKey_iff {m : HashMap κ ν} : m.containsKey k = true ↔ k ∈ m.keys := by
  simp only [containsKey, Option.isSome_iff_exists, get?_eq_some_iff, keys, List.mem_map,
    Prod.exists, exists_and_right, exists_eq_right]

theorem perm_of_get? {m m' : HashMap κ ν} (h : ∀ k, m.get? k = m'.get? k) :
    m.entries.Perm m'.entries := by
  rw [List.perm_ext_iff_of_nodup m.nodup_entries m'.nodup_entries]
  rintro ⟨k, v⟩
  rw [← get?_eq_some_iff, ← get?_eq_some_iff, h]

theorem mem_map_of_rel {ν' : Type w} {γ : Type x} {m : HashMap κ ν} {m' : HashMap κ ν'}
    {R : ν → ν' → Prop} {g : κ × ν → γ} {g' : κ × ν' → γ} {y : γ}
    (h : ∀ k, Option.Rel R (m.get? k) (m'.get? k))
    (hg : ∀ k v v', R v v' → g (k, v) = g' (k, v')) (hy : y ∈ m.entries.map g) :
    y ∈ m'.entries.map g' := by
  obtain ⟨⟨k, v⟩, hmem, rfl⟩ := List.mem_map.mp hy
  have hrel := h k
  rw [get?_eq_some_iff.mpr hmem] at hrel
  cases hm' : m'.get? k with
  | none => simp [hm'] at hrel
  | some v' =>
    have hR : R v v' := by simpa [hm'] using hrel
    rw [hg k v v' hR]
    exact List.mem_map_of_mem (get?_eq_some_iff.mp hm')

/-- Maps whose values are related at every key give the same images, when an
image keeps the key and identifies related values. -/
theorem map_perm_of_rel {ν' : Type w} {γ : Type x} {m : HashMap κ ν} {m' : HashMap κ ν'}
    {R : ν → ν' → Prop} {g : κ × ν → γ} {g' : κ × ν' → γ} {f : γ → κ}
    (h : ∀ k, Option.Rel R (m.get? k) (m'.get? k))
    (hg : ∀ k v v', R v v' → g (k, v) = g' (k, v'))
    (hk : ∀ p, f (g p) = p.1) (hk' : ∀ p, f (g' p) = p.1) :
    (m.entries.map g).Perm (m'.entries.map g') := by
  rw [List.perm_ext_iff_of_nodup (m.nodup_map_of_key hk) (m'.nodup_map_of_key hk')]
  intro y
  refine ⟨mem_map_of_rel h hg, mem_map_of_rel (R := fun v' v => R v v') (fun k => ?_)
    fun k v' v hR => (hg k v v' hR).symm⟩
  have hrel := h k
  generalize m.get? k = o, m'.get? k = o' at hrel
  cases hrel with
  | some hR => exact .some hR
  | none => exact .none

theorem mem_erase {m : HashMap κ ν} : e ∈ (m.erase k).entries ↔ e ∈ m.entries ∧ e.1 ≠ k := by
  simp [erase]

theorem length_erase_lt {m : HashMap κ ν} (h : k ∈ m.keys) :
    (m.erase k).entries.length < m.entries.length := by
  obtain ⟨e, he, rfl⟩ := List.mem_map.mp h
  exact List.length_filter_lt_length_iff_exists.mpr ⟨e, he, by simp⟩

theorem length_insert_le (m : HashMap κ ν) (k : κ) (v : ν) :
    (m.insert k v).entries.length ≤ m.entries.length + 1 :=
  Nat.succ_le_succ (List.length_filter_le ..)

theorem get?_insert (m : HashMap κ ν) (k k' : κ) (v : ν) :
    (m.insert k v).get? k' = if k' = k then some v else m.get? k' := by
  split
  · rename_i hk
    subst hk
    exact get?_eq_some_iff.mpr (List.mem_cons_self ..)
  · rename_i hk
    ext w
    rw [get?_eq_some_iff, get?_eq_some_iff]
    simp [insert, mem_erase, hk]

theorem get?_erase (m : HashMap κ ν) (k k' : κ) :
    (m.erase k).get? k' = if k' = k then none else m.get? k' := by
  split
  · rename_i hk
    subst hk
    by_contra hne
    obtain ⟨v, hv⟩ := Option.ne_none_iff_exists'.mp hne
    exact (mem_erase.mp (get?_eq_some_iff.mp hv)).2 rfl
  · rename_i hk
    ext w
    rw [get?_eq_some_iff, get?_eq_some_iff, mem_erase]
    simp [hk]

theorem get?_mapValues {ν' : Type w} (m : HashMap κ ν) (f : ν → ν') (k : κ) :
    (m.mapValues f).get? k = (m.get? k).map f := by
  ext v
  rw [get?_eq_some_iff, Option.map_eq_some_iff]
  simp only [mapValues, List.mem_map, Prod.mk.injEq, Prod.exists, get?_eq_some_iff]
  constructor
  · rintro ⟨k', v', hmem, rfl, rfl⟩
    exact ⟨v', hmem, rfl⟩
  · rintro ⟨v', hmem, rfl⟩
    exact ⟨k, v', hmem, rfl, rfl⟩

-- ---------------------------------------------------------------------------
-- Building a map from distinct keys
-- ---------------------------------------------------------------------------

theorem erase_of_not_mem {m : HashMap κ ν} (h : k ∉ m.keys) : (m.erase k).entries = m.entries := by
  refine List.filter_eq_self.mpr fun e he => ?_
  simp only [ne_eq, decide_eq_true_eq]
  rintro rfl
  exact h (List.mem_map_of_mem he)

theorem insert_perm {m : HashMap κ ν} (h : k ∉ m.keys) :
    (m.insert k v).entries.Perm ((k, v) :: m.entries) := by
  simp only [insert, erase_of_not_mem h]
  exact .refl _

theorem ofList_perm {l : List (κ × ν)} (h : (l.map Prod.fst).Nodup) :
    (ofList l).entries.Perm l := by
  suffices ∀ m : HashMap κ ν, (∀ e ∈ l, e.1 ∉ m.keys) →
      (l.foldl (fun m e => m.insert e.1 e.2) m).entries.Perm (l ++ m.entries) by
    simpa [ofList] using this empty (by simp [keys])
  induction l with
  | nil => exact fun m _ => .refl _
  | cons e rest ih =>
    intro m hnew
    rw [List.map_cons, List.nodup_cons] at h
    have hins := insert_perm (m := m) (v := e.2) (hnew e (List.mem_cons_self ..))
    refine (ih h.2 (m.insert e.1 e.2) ?_).trans ?_
    · intro e' he' hmem
      rcases List.mem_cons.mp ((hins.map Prod.fst).mem_iff.mp hmem) with heq | hold
      · exact h.1 (heq ▸ List.mem_map_of_mem he')
      · exact hnew e' (List.mem_cons_of_mem _ he') hold
    · exact (hins.append_left rest).trans List.perm_middle

theorem ofList_subperm (l : List (κ × ν)) : (ofList l).entries.Subperm l := by
  suffices ∀ m : HashMap κ ν,
      (l.foldl (fun m e => m.insert e.1 e.2) m).entries.Subperm (l ++ m.entries) by
    simpa [ofList] using this empty
  induction l with
  | nil => exact fun m => .refl _
  | cons e rest ih =>
    intro m
    have hins : (m.insert e.1 e.2).entries.Subperm (e :: m.entries) :=
      (List.subperm_cons e).mpr List.filter_sublist.subperm
    exact (ih _).trans (((List.subperm_append_left rest).mpr hins).trans List.perm_middle.subperm)

theorem keys_ofList_perm {l : List κ} (h : l.Nodup) :
    (ofList (l.map fun k => (k, ()))).keys.Perm l := by
  have hkeys : (l.map fun k => (k, ())).map Prod.fst = l := by
    rw [List.map_map, Function.comp_def, List.map_id']
  have hp := (ofList_perm (l := l.map fun k => (k, ())) (hkeys.symm ▸ h)).map Prod.fst
  rwa [hkeys] at hp

end HashMap

-- ---------------------------------------------------------------------------
-- Sorting by a key
-- ---------------------------------------------------------------------------

section
variable {α : Type u} {κ : Type v} [LinearOrder κ] {f : α → κ}

def sortByKey (key : α → κ) (l : List α) : List α := l.insertionSort fun a b => key a ≤ key b

theorem sortByKey_perm (l : List α) : (sortByKey f l).Perm l := List.perm_insertionSort _ l

theorem mem_sortByKey {l : List α} : a ∈ sortByKey f l ↔ a ∈ l := List.mem_insertionSort _

theorem sortByKey_pairwise (l : List α) :
    (sortByKey f l).Pairwise fun a b => f a ≤ f b := by
  have : Std.Total fun a b : α => f a ≤ f b := ⟨fun a b => le_total (f a) (f b)⟩
  have : IsTrans α fun a b : α => f a ≤ f b := ⟨fun a b c => le_trans⟩
  exact List.pairwise_insertionSort _ l

theorem sortByKey_of_pairwise {l : List α} (h : l.Pairwise fun a b => f a ≤ f b) :
    sortByKey f l = l := List.Pairwise.insertionSort_eq h

theorem sortByKey_eq_of_perm {l l' : List α} (h : l.Perm l') (hk : (l.map f).Nodup) :
    sortByKey f l = sortByKey f l' := by
  have hp : (sortByKey f l).Perm (sortByKey f l') :=
    (sortByKey_perm l).trans (h.trans (sortByKey_perm l').symm)
  refine hp.eq_of_pairwise ?_ (sortByKey_pairwise l) (sortByKey_pairwise l')
  intro a b ha hb hab hba
  have ha' := mem_sortByKey.mp ha
  have hb' := h.mem_iff.mpr (mem_sortByKey.mp hb)
  exact List.inj_on_of_nodup_map hk ha' hb' (le_antisymm hab hba)

theorem sortByKey_map {β : Type w} {g : β → κ} {h : α → β} (hh : ∀ a, g (h a) = f a)
    (l : List α) : sortByKey g (l.map h) = (sortByKey f l).map h := by
  refine (List.map_insertionSort _ _ h l ?_).symm
  intro a _ b _
  rw [hh, hh]

theorem sortByKey_pairwise_lt {l : List α} (h : (l.map f).Nodup) :
    (sortByKey f l).Pairwise fun a b => f a < f b := by
  have hne : (sortByKey f l).Pairwise fun a b => f a ≠ f b :=
    List.pairwise_map.mp (((sortByKey_perm l).map f).nodup_iff.mpr h)
  exact (sortByKey_pairwise l).imp₂ (fun _ _ => lt_of_le_of_ne) hne

theorem nodup_sortByKey_map {γ : Type w} {g : α → γ} {l : List α} (h : (l.map g).Nodup) :
    ((sortByKey f l).map g).Nodup :=
  ((sortByKey_perm l).map g).nodup_iff.mpr h

end

end EdgeLibos.Lib
