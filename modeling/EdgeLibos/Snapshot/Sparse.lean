import EdgeLibos.Snapshot.Pages

/-!
# The sparse encoding

`collect_pages` leaves out the pages that are all zero, so laying what it returns over
zeros gives the bytes again. The index of a page is 32 bits wide.
-/

namespace EdgeLibos.Snapshot

open Lib
open LinearMemory (splice)

def overlayFrom (k : Nat) : List MemoryPageSnapshot → List UInt8 → List UInt8
  | [], data => data
  | page :: rest, data =>
    overlayFrom k rest (splice ((page.pageIndex.toNat - k) * PAGE_SIZE_BYTES) page.bytes data)

def overlay (pages : List MemoryPageSnapshot) (data : List UInt8) : List UInt8 := overlayFrom 0 pages data

/-- A whole page of the bytes, or the part of a page that they end with. -/
structure PageFrom (k : Nat) (data : List UInt8) (page : MemoryPageSnapshot) : Prop where
  first : k ≤ page.pageIndex.toNat
  nonZero : ∃ b ∈ page.bytes, b ≠ 0
  inside : (page.pageIndex.toNat - k) * PAGE_SIZE_BYTES + page.bytes.length ≤ data.length
  size : page.bytes.length = PAGE_SIZE_BYTES ∨
    page.pageIndex.toNat = k + data.length / PAGE_SIZE_BYTES ∧ page.bytes.length = data.length % PAGE_SIZE_BYTES

structure SparseFrom (k : Nat) (data : List UInt8) (pages : List MemoryPageSnapshot) : Prop where
  increasing : (pages.map (·.pageIndex.toNat)).Pairwise (· < ·)
  page : ∀ page ∈ pages, PageFrom k data page
  overlay : overlayFrom k pages (List.replicate data.length 0) = data

-- ---------------------------------------------------------------------------
-- Laying pages over bytes
-- ---------------------------------------------------------------------------

theorem splice_zero {new data : List UInt8} (h : new.length = data.length) : splice 0 new data = new := by
  simp [splice, h]

theorem splice_head {page zeros : List UInt8} (h : page.length = zeros.length) (rest : List UInt8) :
    splice 0 page (zeros ++ rest) = page ++ rest := by
  simp [splice, h]

theorem splice_append (start : Nat) (new page rest : List UInt8) :
    splice (page.length + start) new (page ++ rest) = page ++ splice start new rest := by
  simp only [splice, List.take_length_add_append, Nat.add_assoc, List.drop_length_add_append, List.append_assoc]

theorem overlayFrom_append {page : List UInt8} (hpage : page.length = PAGE_SIZE_BYTES)
    (hfirst : ∀ p ∈ pages, k + 1 ≤ p.pageIndex.toNat) (rest : List UInt8) :
    overlayFrom k pages (page ++ rest) = page ++ overlayFrom (k + 1) pages rest := by
  induction pages generalizing rest with
  | nil => rfl
  | cons p pages ih =>
    have hp := hfirst p List.mem_cons_self
    have hstart : (p.pageIndex.toNat - k) * PAGE_SIZE_BYTES =
        page.length + (p.pageIndex.toNat - (k + 1)) * PAGE_SIZE_BYTES := by
      have hindex : p.pageIndex.toNat - k = 1 + (p.pageIndex.toNat - (k + 1)) := by omega
      rw [hpage, hindex, Nat.add_mul, Nat.one_mul]
    rw [overlayFrom, overlayFrom, hstart, splice_append, ih fun q hq => hfirst q (List.mem_cons_of_mem _ hq)]

-- ---------------------------------------------------------------------------
-- One page more
-- ---------------------------------------------------------------------------

theorem PageFrom.shift {head : List UInt8} (hhead : head.length = PAGE_SIZE_BYTES) (h : PageFrom (k + 1) data page) :
    PageFrom k (head ++ data) page := by
  obtain ⟨hfirst, hnonZero, hinside, hsize⟩ := h
  have hlength : (head ++ data).length = data.length + PAGE_SIZE_BYTES := by
    rw [List.length_append, hhead, Nat.add_comm]
  have hindex : page.pageIndex.toNat - k = page.pageIndex.toNat - (k + 1) + 1 := by omega
  refine ⟨by omega, hnonZero, ?_, ?_⟩
  · rw [hindex, hlength, Nat.succ_mul]
    omega
  · rw [hlength, Nat.add_div_right _ (by decide), Nat.add_mod_right]
    rcases hsize with hwhole | ⟨hlast, hpart⟩
    · exact .inl hwhole
    · exact .inr ⟨by omega, hpart⟩

theorem SparseFrom.skip {head : List UInt8} (hhead : head.length = PAGE_SIZE_BYTES) (hz : isZeroPage head = true)
    (h : SparseFrom (k + 1) data pages) : SparseFrom k (head ++ data) pages := by
  refine ⟨h.increasing, fun p hp => (h.page p hp).shift hhead, ?_⟩
  rw [List.length_append, List.replicate_add, overlayFrom_append (by simpa using hhead) fun p hp => (h.page p hp).first,
    h.overlay, ← eq_replicate_of_isZeroPage hz]

theorem nonZero_of_isZeroPage (h : isZeroPage page = false) : ∃ b ∈ page, b ≠ 0 := by
  have hnot : ¬ isZeroPage page = true := by simp [h]
  simpa [isZeroPage_iff] using hnot

theorem SparseFrom.cons {i : UInt32} {head : List UInt8} (hhead : head.length = PAGE_SIZE_BYTES)
    (hz : isZeroPage head = false) (h : SparseFrom (i.toNat + 1) data pages) :
    SparseFrom i.toNat (head ++ data) ({ pageIndex := i, bytes := head } :: pages) := by
  have hfirst : ∀ p ∈ pages, i.toNat + 1 ≤ p.pageIndex.toNat := fun p hp => (h.page p hp).first
  refine ⟨?_, ?_, ?_⟩
  · refine List.pairwise_cons.mpr ⟨?_, h.increasing⟩
    intro j hj
    obtain ⟨p, hp, rfl⟩ := List.mem_map.mp hj
    exact hfirst p hp
  · intro p hp
    rcases List.mem_cons.mp hp with rfl | hp
    · exact ⟨le_refl _, nonZero_of_isZeroPage hz, by simp, .inl hhead⟩
    · exact (h.page p hp).shift hhead
  · rw [List.length_append, List.replicate_add, overlayFrom, Nat.sub_self, Nat.zero_mul,
      splice_head List.length_replicate.symm, overlayFrom_append hhead hfirst, h.overlay]

theorem SparseFrom.remainder {i : UInt32} (hlen : data.length < PAGE_SIZE_BYTES)
    (hz : isZeroPage data = false) : SparseFrom i.toNat data [{ pageIndex := i, bytes := data }] := by
  refine ⟨by simp, ?_, ?_⟩
  · intro p hp
    obtain rfl := List.mem_singleton.mp hp
    refine ⟨le_refl _, nonZero_of_isZeroPage hz, by simp, .inr ⟨?_, ?_⟩⟩
    · rw [Nat.div_eq_of_lt hlen, Nat.add_zero]
    · rw [Nat.mod_eq_of_lt hlen]
  · rw [overlayFrom, Nat.sub_self, Nat.zero_mul, splice_zero List.length_replicate.symm]
    rfl

theorem SparseFrom.nothing (hz : isZeroPage data = true) : SparseFrom k data [] :=
  ⟨.nil, by simp, (eq_replicate_of_isZeroPage hz).symm⟩

/-- The loop, from a chunk on whose index and all later ones are in range. -/
theorem collectChunks_sparse {i : UInt32} (hn : data.length / PAGE_SIZE_BYTES = n) (hi : i.toNat + n < 2 ^ 32) :
    SparseFrom i.toNat data (collectChunks n i data) := by
  induction n generalizing i data with
  | zero =>
    have hlen : data.length < PAGE_SIZE_BYTES := Nat.lt_of_div_eq_zero (by decide) hn
    rw [collectChunks]
    split
    · rename_i hnonZero
      simp only [Bool.and_eq_true, Bool.not_eq_true'] at hnonZero
      exact .remainder hlen hnonZero.2
    · rename_i hzero
      refine .nothing ?_
      rw [Bool.and_eq_true, not_and, Bool.not_eq_true', Bool.not_eq_true', Bool.not_eq_false] at hzero
      cases data with
      | nil => rfl
      | cons b data => exact hzero rfl
  | succ n ih =>
    have hle : PAGE_SIZE_BYTES ≤ data.length := by
      rw [← Nat.one_le_div_iff (by decide), hn]
      omega
    have hhead : (data.take PAGE_SIZE_BYTES).length = PAGE_SIZE_BYTES := List.length_take_of_le hle
    have hrest : (data.drop PAGE_SIZE_BYTES).length / PAGE_SIZE_BYTES = n := by
      have hdiv := Nat.sub_mul_div data.length PAGE_SIZE_BYTES 1
      rw [Nat.mul_one, hn] at hdiv
      rw [List.length_drop, hdiv, Nat.add_sub_cancel]
    have hnext : (i + 1).toNat = i.toNat + 1 := by
      rw [UInt32.toNat_add, UInt32.toNat_one, Nat.mod_eq_of_lt (by omega)]
    have hsparse := ih hrest (i := i + 1) (by omega)
    rw [hnext] at hsparse
    cases hz : isZeroPage (data.take PAGE_SIZE_BYTES) with
    | true =>
      have hskip := hsparse.skip hhead hz
      rw [List.take_append_drop] at hskip
      simpa only [collectChunks, hz, if_true] using hskip
    | false =>
      have hcons := hsparse.cons hhead hz
      rw [List.take_append_drop] at hcons
      simpa only [collectChunks, hz, Bool.false_eq_true, if_false] using hcons

theorem overlay_zeros {data : List UInt8} (h : SparseFrom 0 data pages) :
    overlay pages (List.replicate data.length 0) = data := h.overlay

/-- Below 2 ^ 32 pages the encoding is faithful, and bytes of one length have the same one
only when they are the same. -/
theorem collect_pages_faithful (hlen : data.length < 2 ^ 48) : SparseFrom 0 data (collectPages data) ∧
    ∀ other : List UInt8, other.length = data.length → collectPages other = collectPages data → other = data := by
  have hsparse {bytes : List UInt8} (hbytes : bytes.length < 2 ^ 48) : SparseFrom 0 bytes (collectPages bytes) := by
    have hn : bytes.length / PAGE_SIZE_BYTES < 2 ^ 32 := by
      simp only [PAGE_SIZE_BYTES]
      omega
    exact collectChunks_sparse (i := 0) rfl (by rwa [UInt32.toNat_zero, Nat.zero_add])
  refine ⟨hsparse hlen, fun other hother hsame => ?_⟩
  calc other = overlay (collectPages other) (List.replicate other.length 0) :=
        (overlay_zeros (hsparse (hother ▸ hlen))).symm
    _ = overlay (collectPages data) (List.replicate data.length 0) := by rw [hsame, hother]
    _ = data := overlay_zeros (hsparse hlen)

-- ---------------------------------------------------------------------------
-- More pages than the index can number
-- ---------------------------------------------------------------------------

theorem collectChunks_zeros (n : Nat) (i : UInt32) (rest : List UInt8) :
    collectChunks n i (List.replicate (n * PAGE_SIZE_BYTES) 0 ++ rest) = collectChunks 0 (i + UInt32.ofNat n) rest := by
  induction n generalizing i with
  | zero => simp
  | succ n ih =>
    have hzeros : List.replicate ((n + 1) * PAGE_SIZE_BYTES) (0 : UInt8) ++ rest =
        List.replicate PAGE_SIZE_BYTES 0 ++ (List.replicate (n * PAGE_SIZE_BYTES) 0 ++ rest) := by
      rw [Nat.succ_mul, Nat.add_comm, List.replicate_add, List.append_assoc]
    have hnext : i + 1 + UInt32.ofNat n = i + UInt32.ofNat (n + 1) := by
      rw [UInt32.ofNat_add, UInt32.add_assoc, UInt32.add_comm 1]
      rfl
    rw [hzeros, ← hnext, ← ih]
    conv => lhs; rw [collectChunks]
    rw [List.take_left' List.length_replicate, List.drop_left' List.length_replicate]
    exact if_pos (isZeroPage_replicate _)

theorem collectPages_zeros (n : Nat) (b : UInt8) (hb : b ≠ 0) :
    collectPages (List.replicate (n * PAGE_SIZE_BYTES) 0 ++ [b]) = [{ pageIndex := UInt32.ofNat n, bytes := [b] }] := by
  have hdiv : (List.replicate (n * PAGE_SIZE_BYTES) (0 : UInt8) ++ [b]).length / PAGE_SIZE_BYTES = n := by
    rw [List.length_append, List.length_replicate, List.length_singleton, Nat.mul_comm,
      Nat.mul_add_div (by decide), Nat.div_eq_of_lt (by decide), Nat.add_zero]
  rw [collectPages, hdiv, collectChunks_zeros, UInt32.zero_add]
  simp [collectChunks, isZeroPage, hb]

def zerosThenSeven : List UInt8 := List.replicate (1 * PAGE_SIZE_BYTES) 0 ++ [7]

theorem collect_pages_faithful_sparse :
    collectPages zerosThenSeven = [{ pageIndex := 1, bytes := [7] }] ∧
      SparseFrom 0 zerosThenSeven (collectPages zerosThenSeven) ∧
      ∀ other : List UInt8, other.length = zerosThenSeven.length →
        collectPages other = collectPages zerosThenSeven → other = zerosThenSeven := by
  have hlen : zerosThenSeven.length < 2 ^ 48 := by
    rw [zerosThenSeven, List.length_append, List.length_replicate]
    decide
  exact ⟨collectPages_zeros 1 7 (by decide), collect_pages_faithful hlen⟩

/-- After 2 ^ 32 zero pages the next byte is recorded at index 0. -/
theorem page_index_wraps :
    collectPages (List.replicate (2 ^ 32 * PAGE_SIZE_BYTES) 0 ++ [1]) = [{ pageIndex := 0, bytes := [1] }] ∧
      ¬ SparseFrom 0 (List.replicate (2 ^ 32 * PAGE_SIZE_BYTES) 0 ++ [1])
        (collectPages (List.replicate (2 ^ 32 * PAGE_SIZE_BYTES) 0 ++ [1])) := by
  have hpages := collectPages_zeros (2 ^ 32) 1 (by decide)
  have hindex : UInt32.ofNat (2 ^ 32) = 0 := by decide
  rw [hindex] at hpages
  refine ⟨hpages, fun hsparse => ?_⟩
  rw [hpages] at hsparse
  rcases (hsparse.page _ List.mem_cons_self).size with hwhole | ⟨hlast, -⟩
  · cases hwhole
  · rw [List.length_append, List.length_replicate] at hlast
    revert hlast
    decide

end EdgeLibos.Snapshot
