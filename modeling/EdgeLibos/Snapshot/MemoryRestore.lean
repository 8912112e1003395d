import EdgeLibos.Snapshot.Build
import EdgeLibos.Snapshot.Pages

/-!
# What a memory restore leaves in the target

The target ends up with as many pages as it had, or as the highest page kept
needs. A page of the source that is not all zero replaces the target's page;
every other page of the target stays what it was. So the restore is exact only
when the target was zero wherever the source is, and the source does not end in
zero pages beyond the target.
-/

namespace EdgeLibos

open Lib Mm Snapshot

namespace LinearMemory

def page (m : LinearMemory) (i : Nat) : List UInt8 := chunk PAGE_SIZE i m.data

def NonZero (m : LinearMemory) (i : Nat) : Prop := i < m.pages ∧ isZeroPage (m.page i) = false

theorem data_length (m : LinearMemory) : m.data.length = m.pages * PAGE_SIZE := m.size_eq

theorem pages_le (m : LinearMemory) : m.pages ≤ m.maxPages := by
  have h := m.fits
  rw [m.data_length] at h
  exact Nat.le_of_mul_le_mul_right h (by decide)

theorem pages_lt (m : LinearMemory) (h : i < m.pages) : i < 2 ^ 32 := by
  have hle := m.pages_le
  have htop := m.top
  omega

theorem le_size_of_lt_pages (m : LinearMemory) (h : i < m.pages) :
    (i + 1) * PAGE_SIZE ≤ m.data.length := by
  rw [m.data_length]
  exact Nat.mul_le_mul_right _ h

theorem page_length (m : LinearMemory) (h : i < m.pages) : (m.page i).length = PAGE_SIZE :=
  chunk_length (m.le_size_of_lt_pages h)

theorem page_of_isZeroPage (m : LinearMemory) (h : i < m.pages) (hz : isZeroPage (m.page i) = true) :
    m.page i = List.replicate PAGE_SIZE 0 := by
  have := eq_replicate_of_isZeroPage hz
  rwa [m.page_length h] at this

theorem pages_of_size {m m' : LinearMemory} (h : m'.size = m.size) : m'.pages = m.pages := by
  rw [pages, pages, h]

theorem filled_pages : (filled b n limit h ht).pages = n := by
  rw [pages, filled_size, Nat.mul_div_cancel _ (by decide)]

theorem filled_page (hi : i < n) : (filled b n limit h ht).page i = List.replicate PAGE_SIZE b :=
  chunk_replicate b (Nat.mul_le_mul_right _ hi)

/-- A memory starts with the contents of another when each page is the same. -/
theorem take_eq_iff (source m : LinearMemory) : m.data.take source.size = source.data ↔
    source.pages ≤ m.pages ∧ ∀ i < source.pages, m.page i = source.page i := by
  rw [source.size_eq, take_eq_iff_chunks source.data_length (by decide), m.data_length]
  exact and_congr_left' ⟨fun h => Nat.le_of_mul_le_mul_right h (by decide), Nat.mul_le_mul_right _⟩

-- ---------------------------------------------------------------------------
-- Growing and writing whole pages
-- ---------------------------------------------------------------------------

theorem grow_pages {m m' : LinearMemory} (h : m.grow delta = some m') :
    m'.pages = m.pages + delta := by
  have hsize := grow_size h
  rw [m.size_eq, ← Nat.add_mul] at hsize
  rw [pages, hsize, Nat.mul_div_cancel _ (by decide)]

theorem grow_page {m m' : LinearMemory} (h : m.grow delta = some m') (hi : i < m'.pages) :
    m'.page i = if i < m.pages then m.page i else List.replicate PAGE_SIZE 0 := by
  rw [grow_pages h] at hi
  rw [page, (grow_some h).1]
  split
  · rename_i hlt
    exact chunk_append_left (m.le_size_of_lt_pages hlt) _
  · rw [chunk_append_right m.data_length (by omega)]
    exact chunk_replicate 0 (Nat.mul_le_mul_right _ (by omega))

theorem chunk_splice {data : List UInt8} (hnew : new.length = PAGE_SIZE)
    (h : j * PAGE_SIZE + new.length ≤ data.length) (i : Nat) :
    chunk PAGE_SIZE i (splice (j * PAGE_SIZE) new data) =
      if i = j then new else chunk PAGE_SIZE i data := by
  refine List.ext_getElem? fun x => ?_
  rw [chunk_getElem?, splice_getElem? h]
  by_cases hij : i = j
  · subst hij
    rw [if_pos rfl]
    split
    · rw [if_pos (by omega), Nat.add_sub_cancel_left]
    · rw [List.getElem?_eq_none (by omega)]
  · rw [if_neg hij, chunk_getElem?]
    split
    · -- Another page lies wholly before or after the one written.
      rename_i hx
      rw [if_neg]
      simp only [PAGE_SIZE] at *
      omega
    · rfl

theorem PAGE_SIZE_BYTES_eq : PAGE_SIZE_BYTES = PAGE_SIZE := rfl

theorem write_page (m : LinearMemory) (hnew : new.length = PAGE_SIZE)
    (h : j * PAGE_SIZE_BYTES + new.length ≤ m.size) (i : Nat) :
    (m.write (j * PAGE_SIZE_BYTES) new h).page i = if i = j then new else m.page i := by
  rw [PAGE_SIZE_BYTES_eq] at h
  simp only [PAGE_SIZE_BYTES_eq]
  exact chunk_splice hnew h i

end LinearMemory

namespace Snapshot

open LinearMemory

-- ---------------------------------------------------------------------------
-- The pages of a memory
-- ---------------------------------------------------------------------------

theorem collectPages_eq (m : LinearMemory) : collectPages m.data =
    ((List.range m.pages).filter fun i => !isZeroPage (m.page i)).map
      fun i => { pageIndex := UInt32.ofNat i, bytes := m.page i } := by
  have hlen := m.data_length
  rw [← PAGE_SIZE_BYTES_eq] at hlen
  have hn : m.data.length / PAGE_SIZE_BYTES = m.pages := by
    rw [hlen, Nat.mul_div_cancel _ (by decide)]
  rw [collectPages, hn, collectChunks_eq hlen]
  simp only [UInt32.zero_add, PAGE_SIZE_BYTES_eq, page]

theorem mem_collectPages {m : LinearMemory} : p ∈ collectPages m.data ↔
    ∃ i, m.NonZero i ∧ p = { pageIndex := UInt32.ofNat i, bytes := m.page i } := by
  rw [collectPages_eq]
  simp only [List.mem_map, List.mem_filter, List.mem_range, NonZero, Bool.not_eq_true']
  constructor
  · rintro ⟨i, hi, rfl⟩
    exact ⟨i, hi, rfl⟩
  · rintro ⟨i, hi, rfl⟩
    exact ⟨i, hi, rfl⟩

theorem NonZero.toNat_ofNat {m : LinearMemory} (h : m.NonZero i) : (UInt32.ofNat i).toNat = i :=
  UInt32.toNat_ofNat_of_lt' (m.pages_lt h.1)

theorem collectPages_nodup (m : LinearMemory) :
    ((collectPages m.data).map (·.pageIndex.toNat)).Nodup := by
  rw [collectPages_eq, List.map_map]
  refine List.Nodup.map_on ?_ (List.nodup_range.filter _)
  intro i hi j hj hij
  have hi := m.pages_lt (List.mem_range.mp (List.mem_filter.mp hi).1)
  have hj := m.pages_lt (List.mem_range.mp (List.mem_filter.mp hj).1)
  simp only [Function.comp_apply] at hij
  rwa [UInt32.toNat_ofNat_of_lt' hi, UInt32.toNat_ofNat_of_lt' hj] at hij

theorem length_of_mem_collectPages {m : LinearMemory} (h : p ∈ collectPages m.data) :
    p.bytes.length = PAGE_SIZE := by
  obtain ⟨i, hi, rfl⟩ := mem_collectPages.mp h
  exact m.page_length hi.1

-- ---------------------------------------------------------------------------
-- The steps of a restore
-- ---------------------------------------------------------------------------

theorem targetPages_ok (h : targetPages ps = .ok n) :
    (∀ p ∈ ps, p.pageIndex.toNat < n) ∧ ∃ p ∈ ps, n = p.pageIndex.toNat + 1 := by
  unfold targetPages at h
  split at h
  · rename_i maxIdx hmax
    cases h
    obtain ⟨hmem, hle⟩ := List.max?_eq_some_iff.mp hmax
    obtain ⟨p, hp, rfl⟩ := List.mem_map.mp hmem
    refine ⟨fun q hq => Nat.lt_succ_of_le (hle _ (List.mem_map_of_mem hq)), p, hp, rfl⟩
  · cases h

theorem growTo_ok (h : growTo n m msg ctx = .ok m') :
    m'.pages = max m.pages n ∧ m'.maxPages = m.maxPages ∧
      ∀ i < m'.pages, m'.page i = if i < m.pages then m.page i else List.replicate PAGE_SIZE 0 := by
  unfold growTo at h
  split at h
  · rename_i hgt
    split at h
    · rename_i m₁ hg
      cases h
      refine ⟨?_, (grow_some hg).2.1, fun i hi => grow_page hg hi⟩
      rw [grow_pages hg]
      omega
    · cases h
  · rename_i hle
    cases h
    exact ⟨by omega, rfl, fun i hi => (if_pos hi).symm⟩

theorem copyPages_ok (hlen : ∀ p ∈ ps, p.bytes.length = PAGE_SIZE)
    (hnodup : (ps.map (·.pageIndex.toNat)).Nodup) (h : copyPages ctx ps m = .ok m') :
    m'.size = m.size ∧ m'.maxPages = m.maxPages ∧
      (∀ p ∈ ps, m'.page p.pageIndex.toNat = p.bytes) ∧
      ∀ i, (∀ p ∈ ps, p.pageIndex.toNat ≠ i) → m'.page i = m.page i := by
  induction ps generalizing m with
  | nil =>
    cases h
    exact ⟨rfl, rfl, by simp, fun _ _ => rfl⟩
  | cons p ps ih =>
    rw [List.map_cons, List.nodup_cons] at hnodup
    by_cases hfits : p.pageIndex.toNat * PAGE_SIZE_BYTES + p.bytes.length ≤ m.size
    · rw [copyPages, dif_pos hfits] at h
      have hp := hlen p (List.mem_cons_self ..)
      have hwrite := m.write_page hp hfits
      obtain ⟨hsize, hmax, hin, hout⟩ := ih (fun q hq => hlen q (List.mem_cons_of_mem _ hq))
        hnodup.2 h
      refine ⟨hsize.trans (write_size m hfits), hmax.trans (write_maxPages m hfits), ?_, ?_⟩
      · intro q hq
        rcases List.mem_cons.mp hq with rfl | hq
        · -- No later page has this index, so the write stays.
          rw [hout _ fun r hr heq => hnodup.1 (List.mem_map.mpr ⟨r, hr, heq⟩), hwrite, if_pos rfl]
        · exact hin q hq
      · intro i hi
        rw [hout i fun q hq => hi q (List.mem_cons_of_mem _ hq), hwrite,
          if_neg (hi p (List.mem_cons_self ..)).symm]
    · rw [copyPages, dif_neg hfits] at h
      cases h

theorem copyPages_exists (hlen : ∀ p ∈ ps, p.bytes.length = PAGE_SIZE)
    (hfits : ∀ p ∈ ps, p.pageIndex.toNat < m.pages) : ∃ m', copyPages ctx ps m = .ok m' := by
  induction ps generalizing m with
  | nil => exact ⟨m, rfl⟩
  | cons p ps ih =>
    have hp := hlen p (List.mem_cons_self ..)
    have hle : p.pageIndex.toNat * PAGE_SIZE_BYTES + p.bytes.length ≤ m.size := by
      have := m.le_size_of_lt_pages (hfits p (List.mem_cons_self ..))
      rw [Nat.add_mul, Nat.one_mul] at this
      rw [hp, PAGE_SIZE_BYTES_eq]
      exact this
    rw [copyPages, dif_pos hle]
    refine ih (fun q hq => hlen q (List.mem_cons_of_mem _ hq)) fun q hq => ?_
    rw [pages_of_size (write_size m hle)]
    exact hfits q (List.mem_cons_of_mem _ hq)

-- ---------------------------------------------------------------------------
-- The whole restore
-- ---------------------------------------------------------------------------

structure Restored (source target m : LinearMemory) : Prop where
  target_le : target.pages ≤ m.pages
  lt_pages : ∀ i, source.NonZero i → i < m.pages
  pages_eq : m.pages = target.pages ∨ ∃ i, source.NonZero i ∧ m.pages = i + 1
  nonZero : ∀ i, source.NonZero i → m.page i = source.page i
  kept : ∀ i < m.pages, ¬ source.NonZero i →
    m.page i = if i < target.pages then target.page i else List.replicate PAGE_SIZE 0

theorem restored_of_steps {source : LinearMemory} (ht : targetPages (collectPages source.data) = .ok n)
    (hg : growTo n target msg ctx = .ok m₁)
    (hc : copyPages ctx' (collectPages source.data) m₁ = .ok m) : Restored source target m := by
  obtain ⟨hlt, p, hp, hn⟩ := targetPages_ok ht
  obtain ⟨hpages, -, hgrown⟩ := growTo_ok hg
  obtain ⟨hsize, -, hin, hout⟩ := copyPages_ok (fun _ => length_of_mem_collectPages)
    (collectPages_nodup source) hc
  have heq : m.pages = m₁.pages := pages_of_size hsize
  have hidx (i : Nat) (hi : source.NonZero i) : i < n := by
    have := hlt _ (mem_collectPages.mpr ⟨i, hi, rfl⟩)
    rwa [NonZero.toNat_ofNat hi] at this
  refine ⟨by omega, fun i hi => ?_, ?_, fun i hi => ?_, fun i hi hno => ?_⟩
  · have := hidx i hi
    omega
  · obtain ⟨i, hi, rfl⟩ := mem_collectPages.mp hp
    rw [NonZero.toNat_ofNat hi] at hn
    rcases Nat.le_total n target.pages with hle | hle
    · exact .inl (by omega)
    · exact .inr ⟨i, hi, by omega⟩
  · have := hin _ (mem_collectPages.mpr ⟨i, hi, rfl⟩)
    rwa [NonZero.toNat_ofNat hi] at this
  · rw [hout i ?_, hgrown i (heq ▸ hi)]
    intro q hq hqi
    obtain ⟨j, hj, rfl⟩ := mem_collectPages.mp hq
    rw [NonZero.toNat_ofNat hj] at hqi
    exact hno (hqi ▸ hj)

theorem restored_of_isEmpty {source : LinearMemory} (h : (collectPages source.data).isEmpty = true)
    (m : LinearMemory) : Restored source m m := by
  have hno (i : Nat) : ¬ source.NonZero i := by
    intro hi
    have := mem_collectPages.mpr ⟨i, hi, rfl⟩
    rw [List.isEmpty_iff.mp h] at this
    cases this
  exact ⟨Nat.le_refl _, fun i hi => absurd hi (hno i), .inl rfl, fun i hi => absurd hi (hno i),
    fun i hi _ => (if_pos hi).symm⟩

theorem applySnapshotToSharedMemory_ok (hp : snap.pages = collectPages source.data)
    (h : applySnapshotToSharedMemory snap target = .ok m) : Restored source target m := by
  simp only [applySnapshotToSharedMemory, hp] at h
  obtain ⟨n, ht, h⟩ := bind_ok h
  obtain ⟨m₁, hg, hc⟩ := bind_ok h
  exact restored_of_steps ht hg hc

theorem applySnapshotToMemory_ok (hp : snap.pages = collectPages source.data)
    (h : applySnapshotToMemory snap target = .ok m) : Restored source target m := by
  simp only [applySnapshotToMemory, hp] at h
  split at h
  · rename_i hempty
    cases h
    exact restored_of_isEmpty hempty _
  · obtain ⟨n, ht, h⟩ := bind_ok h
    obtain ⟨m₁, hg, hc⟩ := bind_ok h
    exact restored_of_steps ht hg hc

-- ---------------------------------------------------------------------------
-- When the restore is exact
-- ---------------------------------------------------------------------------

/-- Each all-zero page of the source is all zero in the target too, or lies
beyond the target and below a page that is not all zero. -/
def RestoresExactly (source target : LinearMemory) : Prop :=
  ∀ i < source.pages, isZeroPage (source.page i) = true →
    i < target.pages ∧ isZeroPage (target.page i) = true ∨
      target.pages ≤ i ∧ ∃ j, i < j ∧ source.NonZero j

theorem Restored.exact_of_take_eq (h : Restored source target m)
    (heq : m.data.take source.size = source.data) : RestoresExactly source target := by
  obtain ⟨hle, hpages⟩ := (take_eq_iff _ _).mp heq
  intro i hi hz
  have hno : ¬ source.NonZero i := fun hn => by simp [NonZero, hz] at hn
  have hm := h.kept i (by omega) hno
  split at hm
  · rename_i hlt
    exact .inl ⟨hlt, by rwa [← hm, hpages i hi]⟩
  · rename_i hge
    refine .inr ⟨by omega, ?_⟩
    rcases h.pages_eq with hp | ⟨j, hj, hp⟩
    · omega
    · refine ⟨j, ?_, hj⟩
      have hne : i ≠ j := fun hij => hno (hij ▸ hj)
      omega

theorem Restored.take_eq_of_exact (h : Restored source target m)
    (hex : RestoresExactly source target) : m.data.take source.size = source.data := by
  have hlt (i : Nat) (hi : i < source.pages) : i < m.pages := by
    by_cases hn : source.NonZero i
    · exact h.lt_pages i hn
    · rcases hex i hi (by simpa [NonZero, hi] using hn) with ⟨ht, -⟩ | ⟨-, j, hij, hj⟩
      · exact ht.trans_le h.target_le
      · exact hij.trans (h.lt_pages j hj)
  refine (take_eq_iff _ _).mpr ⟨?_, fun i hi => ?_⟩
  · by_contra hgt
    exact absurd (hlt m.pages (by omega)) (Nat.lt_irrefl _)
  · by_cases hn : source.NonZero i
    · exact h.nonZero i hn
    · have hz : isZeroPage (source.page i) = true := by simpa [NonZero, hi] using hn
      rw [h.kept i (hlt i hi) hn, source.page_of_isZeroPage hi hz]
      rcases hex i hi hz with ⟨ht, htz⟩ | ⟨ht, -⟩
      · rw [if_pos ht, target.page_of_isZeroPage ht htz]
      · rw [if_neg (by omega)]

theorem memory_restore_exact_iff (source target m : LinearMemory) (snap : KernelSnapshot)
    (hp : snap.pages = collectPages source.data)
    (h : applySnapshotToMemory snap target = .ok m ∨ applySnapshotToSharedMemory snap target = .ok m) :
    m.data.take source.size = source.data ↔ RestoresExactly source target := by
  have hr : Restored source target m := by
    rcases h with h | h
    · exact applySnapshotToMemory_ok hp h
    · exact applySnapshotToSharedMemory_ok hp h
  exact ⟨hr.exact_of_take_eq, hr.take_eq_of_exact⟩

-- ---------------------------------------------------------------------------
-- A restore succeeds, and one that is not exact
-- ---------------------------------------------------------------------------

theorem growTo_exists (h : n ≤ m.maxPages) : ∃ m', growTo n m msg ctx = .ok m' := by
  unfold growTo
  split
  · have hle : m.pages + (n - m.pages) ≤ m.maxPages := by omega
    simp only [grow, dif_pos hle]
    exact ⟨_, rfl⟩
  · exact ⟨m, rfl⟩

theorem applySnapshotToMemory_exists {source : LinearMemory} (hp : snap.pages = collectPages source.data)
    (hmax : ∀ i, source.NonZero i → i < target.maxPages) :
    ∃ m, applySnapshotToMemory snap target = .ok m := by
  unfold applySnapshotToMemory
  split
  · exact ⟨target, rfl⟩
  · rename_i hne
    cases ht : targetPages snap.pages with
    | error e =>
      unfold targetPages at ht
      split at ht
      · cases ht
      · rename_i hnone
        simp_all
    | ok n =>
      obtain ⟨hlt, p, hmem, hn⟩ := targetPages_ok ht
      rw [hp] at hmem
      obtain ⟨i, hi, rfl⟩ := mem_collectPages.mp hmem
      rw [NonZero.toNat_ofNat hi] at hn
      have hle := hmax i hi
      obtain ⟨m₁, hg⟩ : ∃ m₁, growTo n target "memory.grow failed" "mem.grow" = .ok m₁ :=
        growTo_exists (by omega)
      have hpages := (growTo_ok hg).1
      obtain ⟨m, hc⟩ : ∃ m, copyPages "page chunk-copy" snap.pages m₁ = .ok m := by
        refine copyPages_exists (fun q hq => length_of_mem_collectPages (hp ▸ hq)) fun q hq => ?_
        have := hlt q hq
        omega
      exact ⟨m, by simp only [bind, Except.bind, hg, hc]⟩

def memorySnapshot (m : LinearMemory) : KernelSnapshot :=
  buildKernelSnapshot (.new [] [] { root := "/", cwd := "/" } (Vector.replicate 32 0))
    (collectPages m.data)

theorem memorySnapshot_pages (m : LinearMemory) : (memorySnapshot m).pages = collectPages m.data :=
  buildKernelSnapshot_pages ..

def zeroPage : LinearMemory := .filled 0 1 1 LinearMemory.one_page_fits LinearMemory.one_le_top

def onesPage : LinearMemory := .filled 1 1 1 LinearMemory.one_page_fits LinearMemory.one_le_top

theorem zeroPage_empty (i : Nat) : ¬ zeroPage.NonZero i := by
  rintro ⟨hi, hz⟩
  rw [zeroPage, filled_page (Nat.lt_of_lt_of_eq hi filled_pages), isZeroPage_replicate] at hz
  cases hz

theorem zero_page_keeps_target :
    applySnapshotToMemory (memorySnapshot zeroPage) onesPage = .ok onesPage ∧
      onesPage.data.take zeroPage.size ≠ zeroPage.data := by
  have hnone : collectPages zeroPage.data = [] := by
    refine List.eq_nil_iff_forall_not_mem.mpr fun p hp => ?_
    obtain ⟨i, hi, -⟩ := mem_collectPages.mp hp
    exact zeroPage_empty i hi
  refine ⟨?_, fun h => ?_⟩
  · rw [applySnapshotToMemory, memorySnapshot_pages, hnone]
    rfl
  · have h0 := ((take_eq_iff _ _).mp h).2 0 (by rw [zeroPage, filled_pages]; decide)
    rw [zeroPage, onesPage, filled_page (by decide), filled_page (by decide),
      List.replicate_right_inj (by decide)] at h0
    exact absurd h0 (by decide)

theorem memory_restore_exact_iff_ones :
    ∃ m, applySnapshotToMemory (memorySnapshot onesPage) zeroPage = .ok m ∧
      (m.data.take onesPage.size = onesPage.data ↔ RestoresExactly onesPage zeroPage) := by
  have hpages : onesPage.pages = 1 := filled_pages
  obtain ⟨m, hm⟩ : ∃ m, applySnapshotToMemory (memorySnapshot onesPage) zeroPage = .ok m :=
    applySnapshotToMemory_exists (memorySnapshot_pages onesPage) fun i hi =>
      Nat.lt_of_lt_of_eq hi.1 hpages
  exact ⟨m, hm, memory_restore_exact_iff onesPage zeroPage m _ (memorySnapshot_pages onesPage) (.inl hm)⟩

end Snapshot

end EdgeLibos
