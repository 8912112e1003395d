import EdgeLibos.Lib.Chunks
import EdgeLibos.Snapshot.Types

/-!
# Pages of linear memory

`collect_pages` keeps the pages that are not all zero. The two restore drivers
grow the target up to the highest page kept and copy each page into its slot;
they clear nothing, and they differ only when there is no page at all.
-/

namespace EdgeLibos.Snapshot

open Lib

def isZeroPage (page : List UInt8) : Bool := !page.any (· ≠ 0)

def collectChunks : Nat → UInt32 → List UInt8 → List MemoryPageSnapshot
  | 0, pageIndex, remainder =>
    if !remainder.isEmpty && !isZeroPage remainder then [{ pageIndex, bytes := remainder }] else []
  | n + 1, pageIndex, data =>
    let page := data.take PAGE_SIZE_BYTES
    let rest := collectChunks n (pageIndex + 1) (data.drop PAGE_SIZE_BYTES)
    if isZeroPage page then rest else { pageIndex, bytes := page } :: rest

def collectPages (data : List UInt8) : List MemoryPageSnapshot :=
  collectChunks (data.length / PAGE_SIZE_BYTES) 0 data

-- ---------------------------------------------------------------------------
-- Restoring
-- ---------------------------------------------------------------------------

/-- One more than the highest page index, when there is a page. -/
def targetPages (pages : List MemoryPageSnapshot) : Except SnapshotError Nat :=
  match (pages.map (·.pageIndex.toNat)).max? with
  | some maxIdx => .ok (maxIdx + 1)
  | none => .error (.invalid "empty pages in snapshot")

/-- Growing failed: the prefix of the message, without the runtime's own text. -/
def growTo (pages : Nat) (mem : LinearMemory) (message ctx : String) :
    Except SnapshotError LinearMemory :=
  if pages > mem.pages then
    match mem.grow (pages - mem.pages) with
    | some mem => .ok mem
    | none => .error (.ioError (.other message) ctx)
  else .ok mem

def copyPages (ctx : String) : List MemoryPageSnapshot → LinearMemory →
    Except SnapshotError LinearMemory
  | [], mem => .ok mem
  | page :: rest, mem =>
    let start := page.pageIndex.toNat * PAGE_SIZE_BYTES
    if h : start + page.bytes.length ≤ mem.size then
      copyPages ctx rest (mem.write start page.bytes h)
    else
      .error (.ioError (.other ("page " ++ toString page.pageIndex.toNat ++ " out of bounds: " ++
        toString (start + page.bytes.length) ++ " > " ++ toString mem.size)) ctx)

def applySnapshotToMemory (snap : KernelSnapshot) (mem : LinearMemory) :
    Except SnapshotError LinearMemory :=
  if snap.pages.isEmpty then .ok mem
  else do
    let target ← targetPages snap.pages
    let mem ← growTo target mem "memory.grow failed" "mem.grow"
    copyPages "page chunk-copy" snap.pages mem

def applySnapshotToSharedMemory (snap : KernelSnapshot) (mem : LinearMemory) :
    Except SnapshotError LinearMemory := do
  let target ← targetPages snap.pages
  let mem ← growTo target mem "SharedMemory::grow failed" "shared mem.grow"
  copyPages "page chunk-copy (shared)" snap.pages mem

-- ---------------------------------------------------------------------------
-- Zero pages
-- ---------------------------------------------------------------------------

theorem isZeroPage_iff : isZeroPage page = true ↔ ∀ b ∈ page, b = 0 := by
  simp [isZeroPage]

theorem eq_replicate_of_isZeroPage (h : isZeroPage page = true) :
    page = List.replicate page.length 0 :=
  List.eq_replicate_of_mem (isZeroPage_iff.mp h)

theorem isZeroPage_replicate (n : Nat) : isZeroPage (List.replicate n 0) = true := by
  rw [isZeroPage_iff]
  intro b hb
  exact List.eq_of_mem_replicate hb

theorem collectChunks_eq {data : List UInt8} (hlen : data.length = n * PAGE_SIZE_BYTES) (i : UInt32) :
    collectChunks n i data =
      ((List.range n).filter fun j => !isZeroPage (chunk PAGE_SIZE_BYTES j data)).map
        fun j => { pageIndex := i + UInt32.ofNat j, bytes := chunk PAGE_SIZE_BYTES j data } := by
  induction n generalizing i data with
  | zero =>
    rw [Nat.zero_mul, List.length_eq_zero_iff] at hlen
    simp [collectChunks, hlen]
  | succ n ih =>
    have hdrop : (data.drop PAGE_SIZE_BYTES).length = n * PAGE_SIZE_BYTES := by
      rw [List.length_drop, hlen, Nat.add_mul, Nat.one_mul, Nat.add_sub_cancel]
    have hzero : data.take PAGE_SIZE_BYTES = chunk PAGE_SIZE_BYTES 0 data := by simp [chunk]
    have hidx (j : Nat) : i + (UInt32.ofNat j + 1) = i + 1 + UInt32.ofNat j := by
      rw [UInt32.add_comm (UInt32.ofNat j), UInt32.add_assoc]
    rw [collectChunks, ih hdrop, hzero, List.range_succ_eq_map, List.filter_cons, List.filter_map]
    cases hz : isZeroPage (chunk PAGE_SIZE_BYTES 0 data) with
    | true => simp [chunk_succ, Function.comp_def, hidx]
    | false => simp [chunk_succ, Function.comp_def, hidx]

end EdgeLibos.Snapshot
