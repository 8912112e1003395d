import EdgeLibos.Mm.LinearAllocator

/-!
# Where the arenas lie, and what is handed out

`LinearAllocator.Ok` says that the arenas are disjoint, in order, below the
high-water mark, and each keeps its own invariant. `handedOut` is the set of
addresses inside some arena that are in none of its holes and not in its
tail. Each call is described by what it does to that set: `mmap` and a growing
`growInPlace` add a range that was not in it, `munmap` takes a range away.
-/

namespace EdgeLibos.Mm

open Lib

structure LinearAllocator.Ok (mm : LinearAllocator) : Prop where
  arenas : ∀ a ∈ mm.arenas, a.Ok
  ordered : mm.arenas.Pairwise fun a b => a.base + ARENA_SIZE ≤ b.base
  first : ∀ a ∈ mm.arenas, FIRST_ARENA_BASE ≤ a.base
  below : ∀ a ∈ mm.arenas, a.base + ARENA_SIZE ≤ mm.highWater
  aligned : ∀ a ∈ mm.arenas, ARENA_SIZE ∣ a.base
  topFirst : FIRST_ARENA_BASE ≤ mm.highWater
  topAligned : ARENA_SIZE ∣ mm.highWater
  top : mm.highWater < 2 ^ 32

/-- `x` lies in `a` and is neither in a hole nor beyond the bump pointer. -/
def Arena.Holds (a : Arena) (x : Nat) : Prop :=
  a.base ≤ x ∧ x < a.base + ARENA_SIZE ∧ x - a.base ∉ a.spare

def LinearAllocator.handedOut (mm : LinearAllocator) : Set Nat := { x | ∃ a ∈ mm.arenas, a.Holds x }

theorem LinearAllocator.new_ok : LinearAllocator.new.Ok where
  arenas := by simp [LinearAllocator.new]
  ordered := .nil
  first := by simp [LinearAllocator.new]
  below := by simp [LinearAllocator.new]
  aligned := by simp [LinearAllocator.new]
  topFirst := Nat.le_refl _
  topAligned := by decide
  top := by decide

section
variable {mm : LinearAllocator} {pre post : List Arena} {a a' : Arena}

theorem LinearAllocator.Ok.replace (h : mm.Ok) (hl : mm.arenas = pre ++ a :: post)
    (hbase : a'.base = a.base) (ha' : a'.Ok) :
    LinearAllocator.Ok { mm with arenas := pre ++ a' :: post } := by
  have hmem : a ∈ mm.arenas := by simp [hl]
  refine ⟨?_, ?_, ?_, ?_, ?_, h.topFirst, h.topAligned, h.top⟩
  · exact forall_mem_replace (hl ▸ h.arenas) ha'
  · have ho := h.ordered
    rw [hl] at ho
    simp only [List.pairwise_append, List.pairwise_cons, List.mem_cons, forall_eq_or_imp, hbase]
      at ho ⊢
    exact ho
  · exact forall_mem_replace (hl ▸ h.first) (hbase ▸ h.first a hmem)
  · exact forall_mem_replace (hl ▸ h.below) (hbase ▸ h.below a hmem)
  · exact forall_mem_replace (hl ▸ h.aligned) (hbase ▸ h.aligned a hmem)

theorem LinearAllocator.Ok.unique (h : mm.Ok) {b c : Arena} (hb : b ∈ mm.arenas)
    (hc : c ∈ mm.arenas) (hbx : b.base ≤ x) (hbx' : x < b.base + ARENA_SIZE) (hcx : c.base ≤ x)
    (hcx' : x < c.base + ARENA_SIZE) : b = c := by
  by_contra hne
  have hsym : Std.Symm fun b c : Arena =>
      b.base + ARENA_SIZE ≤ c.base ∨ c.base + ARENA_SIZE ≤ b.base := ⟨fun _ _ => Or.symm⟩
  have hp := h.ordered.imp (S := fun b c : Arena =>
    b.base + ARENA_SIZE ≤ c.base ∨ c.base + ARENA_SIZE ≤ b.base) Or.inl
  have := hp.forall hb hc hne
  omega

theorem Arena.used_of_not_spare (hx : o ∉ a.spare) (hsz : o < ARENA_SIZE) : o < a.used := by
  by_contra hlt
  exact hx (.inr ⟨by omega, hsz⟩)

-- ---------------------------------------------------------------------------
-- Replacing one arena, as seen by the set
-- ---------------------------------------------------------------------------

theorem handedOut_split (hl : mm.arenas = pre ++ a :: post) :
    x ∈ mm.handedOut ↔ (∃ b ∈ pre ++ post, b.Holds x) ∨ a.Holds x := by
  unfold LinearAllocator.handedOut
  rw [hl]
  simp only [Set.mem_ofPred_eq, List.mem_append, List.mem_cons]
  constructor
  · rintro ⟨b, hb | rfl | hb, hx⟩
    · exact .inl ⟨b, .inl hb, hx⟩
    · exact .inr hx
    · exact .inl ⟨b, .inr hb, hx⟩
  · rintro (⟨b, hb | hb, hx⟩ | hx)
    · exact ⟨b, .inl hb, hx⟩
    · exact ⟨b, .inr (.inr hb), hx⟩
    · exact ⟨a, .inr (.inl rfl), hx⟩

/-- A range of `a` that was spare was not handed out by any arena. -/
theorem LinearAllocator.Ok.disjoint_spare (h : mm.Ok) (hl : mm.arenas = pre ++ a :: post)
    (hs : Set.Ico off (off + len) ⊆ a.spare) (hsz : off + len ≤ ARENA_SIZE) :
    Disjoint (Set.Ico (a.base + off) (a.base + off + len)) mm.handedOut := by
  rw [Set.disjoint_left]
  rintro x hx ⟨b, hb, hbx⟩
  simp only [Set.mem_Ico] at hx
  have ha : a ∈ mm.arenas := by simp [hl]
  have hba : b = a := h.unique hb ha hbx.1 hbx.2.1 (by omega) (by omega)
  subst hba
  refine hbx.2.2 (hs ?_)
  simp only [Set.mem_Ico]
  omega

/-- What the old arena held is held by the new one, apart from `gone`. -/
theorem handedOut_replace (gone : Set Nat) (hl : mm.arenas = pre ++ a :: post)
    (hkeep : ∀ x, x ∉ gone → a.Holds x → a'.Holds x) :
    mm.handedOut \ gone ⊆
      LinearAllocator.handedOut { mm with arenas := pre ++ a' :: post } := by
  rintro x ⟨hx, hg⟩
  rw [handedOut_split hl] at hx
  rw [handedOut_split (rfl : LinearAllocator.arenas { mm with arenas := pre ++ a' :: post } = _)]
  exact hx.imp_right (hkeep x hg)

end

-- ---------------------------------------------------------------------------
-- `mmap`
-- ---------------------------------------------------------------------------

/-- The call does not place the arena that ends at 4 GiB, where the high-water
mark wraps. -/
def LinearAllocator.PlacesBelowTop (mm : LinearAllocator) (cur len : Nat) : Prop :=
  allocFirst len 8 mm.arenas = none → mm.highWater + ARENA_SIZE ≤ cur →
    mm.highWater + ARENA_SIZE < 2 ^ 32

section
variable {mm : LinearAllocator}

theorem LinearAllocator.Ok.addArena (h : mm.Ok) (hle : len ≤ ARENA_SIZE)
    (htop : mm.highWater + ARENA_SIZE < 2 ^ 32) :
    LinearAllocator.Ok
      { arenas := mm.arenas ++ [{ base := mm.highWater, used := len, freeList := [] }]
        highWater := mm.highWater + ARENA_SIZE } where
  arenas := List.forall_mem_append.mpr
    ⟨h.arenas, List.forall_mem_singleton.mpr ⟨hle, .nil, by simp⟩⟩
  ordered := by
    refine List.pairwise_append.mpr ⟨h.ordered, by simp, ?_⟩
    intro b hb
    exact List.forall_mem_singleton.mpr (h.below b hb)
  first := List.forall_mem_append.mpr ⟨h.first, List.forall_mem_singleton.mpr h.topFirst⟩
  below := by
    refine List.forall_mem_append.mpr ⟨?_, List.forall_mem_singleton.mpr (Nat.le_refl _)⟩
    intro b hb
    exact (h.below b hb).trans (Nat.le_add_right _ _)
  aligned := List.forall_mem_append.mpr ⟨h.aligned, List.forall_mem_singleton.mpr h.topAligned⟩
  topFirst := h.topFirst.trans (Nat.le_add_right _ _)
  topAligned := Nat.dvd_add h.topAligned (Nat.dvd_refl _)
  top := htop

theorem LinearAllocator.Ok.disjoint_top (h : mm.Ok) (len : Nat) :
    Disjoint (Set.Ico mm.highWater (mm.highWater + len)) mm.handedOut := by
  rw [Set.disjoint_left]
  rintro x hx ⟨b, hb, hbx⟩
  have hbelow := h.below b hb
  have hlt := hbx.2.1
  simp only [Set.mem_Ico] at hx
  omega

theorem handedOut_addArena (mm : LinearAllocator) (hle : len ≤ ARENA_SIZE) (top : Nat) :
    mm.handedOut ∪ Set.Ico mm.highWater (mm.highWater + len) ⊆
      LinearAllocator.handedOut
        { arenas := mm.arenas ++ [{ base := mm.highWater, used := len, freeList := [] }]
          highWater := top } := by
  rintro x (⟨b, hb, hx⟩ | hx)
  · exact ⟨b, by simp [hb], hx⟩
  · refine ⟨{ base := mm.highWater, used := len, freeList := [] }, by simp, ?_⟩
    simp only [Set.mem_Ico] at hx
    refine ⟨hx.1, by simp only; omega, ?_⟩
    rintro (⟨r, hr, -⟩ | hy)
    · simp at hr
    · simp only [Set.mem_Ico] at hy
      omega

/-- An arena that hands out more holds what it held and the new bytes. -/
theorem handedOut_alloc (hl : mm.arenas = pre ++ a :: post) (hbase : a'.base = a.base)
    (hsz : off + len ≤ ARENA_SIZE) (hspare : a'.spare ⊆ a.spare \ Set.Ico off (off + len)) :
    mm.handedOut ∪ Set.Ico (a.base + off) (a.base + off + len) ⊆
      LinearAllocator.handedOut { mm with arenas := pre ++ a' :: post } := by
  rintro x (hx | hx)
  · refine handedOut_replace ∅ hl ?_ ⟨hx, id⟩
    rintro y - ⟨h1, h2, h3⟩
    refine ⟨hbase ▸ h1, hbase ▸ h2, fun hy => h3 ?_⟩
    rw [hbase] at hy
    exact (hspare hy).1
  · refine ⟨a', by simp, ?_⟩
    simp only [Set.mem_Ico] at hx
    refine ⟨by omega, by omega, fun hy => (hspare hy).2 ?_⟩
    simp only [Set.mem_Ico]
    omega

theorem LinearAllocator.mmap_ok (h : mm.Ok) (hroom : mm.PlacesBelowTop cur len)
    (hr : mm.mmap cur len prot flags fd off = (.ok addr, mm')) :
    mm'.Ok ∧ 8 ∣ addr ∧ FIRST_ARENA_BASE ≤ addr ∧ 0 < len ∧
      Disjoint (Set.Ico addr (addr + len)) mm.handedOut ∧
      mm.handedOut ∪ Set.Ico addr (addr + len) ⊆ mm'.handedOut ∧
      ∀ b ∈ mm'.arenas, b.base + ARENA_SIZE ≤ cur ∨ ∃ c ∈ mm.arenas, c.base = b.base := by
  have h8 : 8 ∣ ARENA_SIZE := by decide
  rcases LinearAllocator.mmap_cases hr with
    ⟨addr', pre, a, a', post, haddr, hpos, -, hl, halloc, rfl⟩ |
    ⟨haddr, hpos, hle, hnone, hcur, rfl⟩ | ⟨hno, -⟩
  · obtain rfl := MmapResult.ok.inj haddr
    have hamem : a ∈ mm.arenas := by simp [hl]
    obtain ⟨hok', off', rfl, hdvd, hsz, hsub, hspare⟩ := Arena.alloc_ok (h.arenas a hamem) halloc
    have hb := h.below a hamem
    have hf := h.first a hamem
    have ht := h.top
    have hbase := Arena.alloc_base halloc
    rw [Nat.mod_eq_of_lt (by omega)]
    refine ⟨h.replace hl hbase hok', ?_, by omega, hpos, h.disjoint_spare hl hsub hsz,
      handedOut_alloc hl hbase hsz hspare, ?_⟩
    · exact Nat.dvd_add (Nat.dvd_trans h8 (h.aligned a hamem)) hdvd
    · intro b hb
      simp only [List.mem_append, List.mem_cons] at hb
      right
      rcases hb with hb | rfl | hb
      · exact ⟨b, by simp [hl, hb], rfl⟩
      · exact ⟨a, hamem, hbase.symm⟩
      · exact ⟨b, by simp [hl, hb], rfl⟩
  · obtain rfl := MmapResult.ok.inj haddr
    have hbelow := hroom hnone hcur
    rw [Nat.mod_eq_of_lt h.top, Nat.mod_eq_of_lt hbelow]
    refine ⟨h.addArena hle hbelow, Nat.dvd_trans h8 h.topAligned, h.topFirst, hpos,
      h.disjoint_top len, handedOut_addArena mm hle _, ?_⟩
    intro b hb
    simp only [List.mem_append, List.mem_singleton] at hb
    rcases hb with hb | rfl
    · exact .inr ⟨b, hb, rfl⟩
    · exact .inl hcur
  · exact absurd rfl (hno addr)

end

theorem LinearAllocator.mmap_not_ok {mm : LinearAllocator}
    (hr : mm.mmap cur len prot flags fd off = (r, mm')) (hno : ∀ addr, r ≠ .ok addr) : mm' = mm := by
  rcases LinearAllocator.mmap_cases hr with ⟨addr, _, _, _, _, rfl, _⟩ | ⟨rfl, _⟩ | ⟨-, h⟩
  · exact absurd rfl (hno addr)
  · exact absurd rfl (hno _)
  · exact h

-- ---------------------------------------------------------------------------
-- `munmap`
-- ---------------------------------------------------------------------------

/-- In the arena the range lies in, it is below the bump pointer and touches
no hole. -/
def LinearAllocator.Unmappable (mm : LinearAllocator) (addr len : Nat) : Prop :=
  0 < len → ∀ a ∈ mm.arenas, a.base ≤ addr → addr + len ≤ a.base + ARENA_SIZE →
    a.Freeable (addr - a.base) len

theorem LinearAllocator.munmap_ok {mm : LinearAllocator} (h : mm.Ok) (hu : mm.Unmappable addr len)
    (hr : mm.munmap addr len = (r, mm')) :
    mm'.Ok ∧ mm.handedOut \ Set.Ico addr (addr + len) ⊆ mm'.handedOut ∧
      (r ≠ 0 → mm' = mm) ∧ mm'.arenas.map (·.base) = mm.arenas.map (·.base) := by
  rcases LinearAllocator.munmap_cases hr with ⟨pre, a, post, rfl, hpos, hl, hc, rfl⟩ | ⟨-, rfl⟩
  · have hamem : a ∈ mm.arenas := by simp [hl]
    have ha := h.arenas a hamem
    have hbelow := h.below a hamem
    have ht := h.top
    obtain ⟨hbase, -⟩ := (Arena.contains_iff (by omega)).mp hc
    have hmap : (pre ++ (a.free addr len).2 :: post).map (·.base) = mm.arenas.map (·.base) := by
      rw [hl]
      simp only [List.map_append, List.map_cons, Arena.free_base]
    by_cases hend : addr + len ≤ a.base + ARENA_SIZE
    · obtain ⟨hok, hused, hcov⟩ := Arena.free_ok ha hpos hbase (hu hpos a hamem hbase hend)
      refine ⟨h.replace hl (Arena.free_base ..) hok, ?_, by simp, hmap⟩
      refine handedOut_replace _ hl ?_
      rintro x hx ⟨h1, h2, h3⟩
      refine ⟨by rwa [Arena.free_base], by rwa [Arena.free_base], ?_⟩
      rw [Arena.free_base]
      rintro (hy | hy)
      · rw [hcov] at hy
        rcases hy with hy | hy
        · exact h3 (.inl hy)
        · refine hx ?_
          simp only [Set.mem_Ico] at hy ⊢
          omega
      · exact h3 (.inr (by rwa [hused] at hy))
    · -- `contains` saw the truncated length; `free` refuses the real one.
      have hfree : a.free addr len = (false, a) := Arena.free_refused (by omega)
      rw [hfree]
      rw [← hl]
      exact ⟨h, Set.sdiff_subset, by simp, rfl⟩
  · exact ⟨h, Set.sdiff_subset, fun _ => rfl, rfl⟩

-- ---------------------------------------------------------------------------
-- `growInPlace`
-- ---------------------------------------------------------------------------

theorem LinearAllocator.growInPlace_ok {mm : LinearAllocator} (h : mm.Ok) (hfits : mm.NoWrap old oldLen newLen)
    (hr : mm.growInPlace old oldLen newLen = (r, mm')) :
    mm'.Ok ∧ mm'.arenas.map (·.base) = mm.arenas.map (·.base) ∧
      (∀ e, r = .error e → mm' = mm) ∧
      (∀ addr, r = .ok addr →
        Disjoint (Set.Ico (old + oldLen) (old + newLen)) mm.handedOut ∧
        mm.handedOut ∪ Set.Ico (old + oldLen) (old + newLen) ⊆ mm'.handedOut) := by
  rcases LinearAllocator.growInPlace_exact hfits hr with
    ⟨pre, a, post, rfl, hlt, hl, hbase, hused, hroom, rfl⟩ | ⟨hcase, rfl⟩
  · have hamem : a ∈ mm.arenas := by simp [hl]
    have ha := h.arenas a hamem
    have hok' : Arena.Ok { a with used := a.used + (newLen - oldLen) } := by
      refine ⟨hroom, ha.holes, ?_⟩
      intro r hr
      have := ha.inside r hr
      simp only
      omega
    have htail : Set.Ico a.used (a.used + (newLen - oldLen)) ⊆ a.spare := by
      intro x hx
      simp only [Set.mem_Ico] at hx
      exact .inr ⟨hx.1, by omega⟩
    have hadd : Set.Ico (old + oldLen) (old + newLen) =
        Set.Ico (a.base + a.used) (a.base + a.used + (newLen - oldLen)) := by
      have h1 : old + oldLen = a.base + a.used := by omega
      have h2 : old + newLen = a.base + a.used + (newLen - oldLen) := by omega
      rw [h1, h2]
    refine ⟨h.replace hl rfl hok', ?_, by simp, ?_⟩
    · rw [hl]
      simp only [List.map_append, List.map_cons]
    · rintro - -
      rw [hadd]
      refine ⟨h.disjoint_spare hl htail hroom, ?_⟩
      rintro x (hx | hx)
      · refine handedOut_replace ∅ hl ?_ ⟨hx, id⟩
        rintro y - ⟨h1, h2, h3⟩
        refine ⟨h1, h2, ?_⟩
        rintro (hy | hy)
        · exact h3 (.inl hy)
        · simp only [Set.mem_Ico] at hy
          exact h3 (.inr ⟨by omega, hy.2⟩)
      · refine ⟨{ a with used := a.used + (newLen - oldLen) }, by simp, ?_⟩
        simp only [Set.mem_Ico] at hx
        refine ⟨by simp only; omega, by simp only; omega, ?_⟩
        rintro (⟨q, hq, hy⟩ | hy)
        · have := ha.inside q hq
          simp only [Span.mem_points] at hy
          omega
        · simp only [Set.mem_Ico] at hy
          omega
  · refine ⟨h, rfl, fun _ _ => rfl, ?_⟩
    rintro addr rfl
    rcases hcase with ⟨hle, -⟩ | hbad
    · have hempty : Set.Ico (old + oldLen) (old + newLen) = ∅ := Set.Ico_eq_empty (by omega)
      rw [hempty]
      exact ⟨Set.empty_disjoint _, by simp⟩
    · cases hbad

end EdgeLibos.Mm
