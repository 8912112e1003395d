import EdgeLibos.Snapshot.AllocatorRestore

/-!
# The two memory restore drivers

`apply_snapshot_to_memory` and `apply_snapshot_to_shared_memory` restore the same memory
or both fail, whatever the pages are, as long as there is a page. Without pages the first
leaves the memory and the second refuses; the caller of both looks at neither then.
-/

namespace EdgeLibos.Snapshot

open Lib

/-- Both succeed, with related values, or both fail. -/
def SameOutcome (R : α → β → Prop) : Except ε α → Except ε β → Prop
  | .ok a, .ok b => R a b
  | .error _, .error _ => True
  | _, _ => False

theorem SameOutcome.bind {R : α → β → Prop} {S : γ → δ → Prop} {r : Except ε α} {r' : Except ε β}
    {f : α → Except ε γ} {f' : β → Except ε δ} (h : SameOutcome R r r')
    (hf : ∀ a b, R a b → SameOutcome S (f a) (f' b)) : SameOutcome S (r >>= f) (r' >>= f') := by
  cases r with
  | ok a =>
    cases r' with
    | ok b => exact hf a b h
    | error e => cases h
  | error e =>
    cases r' with
    | ok b => cases h
    | error e' => trivial

-- ---------------------------------------------------------------------------
-- The steps of a driver
-- ---------------------------------------------------------------------------

theorem growTo_same (n : Nat) (mem : LinearMemory) (msg msg' ctx ctx' : String) :
    SameOutcome (· = ·) (growTo n mem msg ctx) (growTo n mem msg' ctx') := by
  unfold growTo
  split
  · cases mem.grow (n - mem.pages) with
    | some mem => rfl
    | none => trivial
  · rfl

theorem copyPages_same (ctx ctx' : String) (pages : List MemoryPageSnapshot) (mem : LinearMemory) :
    SameOutcome (· = ·) (copyPages ctx pages mem) (copyPages ctx' pages mem) := by
  induction pages generalizing mem with
  | nil => rfl
  | cons page rest ih =>
    by_cases hfits : page.pageIndex.toNat * PAGE_SIZE_BYTES + page.bytes.length ≤ mem.size
    · simp only [copyPages, dif_pos hfits]
      exact ih _
    · simp only [copyPages, dif_neg hfits]
      trivial

-- ---------------------------------------------------------------------------
-- The drivers
-- ---------------------------------------------------------------------------

theorem drivers_same (snap : KernelSnapshot) (mem : LinearMemory) (h : snap.pages ≠ []) :
    SameOutcome (· = ·) (applySnapshotToMemory snap mem) (applySnapshotToSharedMemory snap mem) := by
  have hempty : ¬ snap.pages.isEmpty := by simpa using h
  rw [applySnapshotToMemory, if_neg hempty, applySnapshotToSharedMemory]
  cases targetPages snap.pages with
  | error e => trivial
  | ok n =>
    refine (growTo_same n mem ..).bind ?_
    rintro grown _ rfl
    exact copyPages_same _ _ _ grown

theorem drivers_without_pages (snap : KernelSnapshot) (mem : LinearMemory) (h : snap.pages = []) :
    applySnapshotToMemory snap mem = .ok mem ∧
      applySnapshotToSharedMemory snap mem = .error (.invalid "empty pages in snapshot") := by
  constructor
  · rw [applySnapshotToMemory, h]
    rfl
  · rw [applySnapshotToSharedMemory, h]
    rfl

/-- Two kernels with the same linear memory, owned or shared. -/
def SameMemory (k k' : Kernel) : Prop := k.memory.map MemoryKind.mem = k'.memory.map MemoryKind.mem

theorem dispatch_same (snap : KernelSnapshot) (mem : LinearMemory) (kernel : Kernel) :
    SameOutcome SameMemory (dispatchMemoryApply snap { kernel with memory := some (.owned mem) })
      (dispatchMemoryApply snap { kernel with memory := some (.shared mem) }) := by
  unfold dispatchMemoryApply
  split
  · exact rfl
  · rename_i hempty
    have hsome : snap.pages ≠ [] := by simpa using hempty
    refine (drivers_same snap mem hsome).bind ?_
    rintro restored _ rfl
    exact rfl

/-- The two drivers agree exactly when there are pages, and a dispatch always agrees. -/
theorem drivers_agree_iff (snap : KernelSnapshot) (mem : LinearMemory) (kernel : Kernel) :
    (SameOutcome (· = ·) (applySnapshotToMemory snap mem) (applySnapshotToSharedMemory snap mem) ↔ snap.pages ≠ []) ∧
    (applySnapshotToMemory { snap with pages := [] } mem = .ok mem ∧
      applySnapshotToSharedMemory { snap with pages := [] } mem = .error (.invalid "empty pages in snapshot")) ∧
    SameOutcome SameMemory (dispatchMemoryApply snap { kernel with memory := some (.owned mem) })
      (dispatchMemoryApply snap { kernel with memory := some (.shared mem) }) := by
  refine ⟨⟨?_, drivers_same snap mem⟩, drivers_without_pages _ mem rfl, dispatch_same snap mem kernel⟩
  intro hsame hnil
  obtain ⟨howned, hshared⟩ := drivers_without_pages snap mem hnil
  rw [howned, hshared] at hsame
  exact hsame

/-- A snapshot of a memory that nothing was written to. -/
theorem empty_pages_refused :
    applySnapshotToMemory (buildKernelSnapshot otherKernel []) zeroPage = .ok zeroPage ∧
      ¬ SameOutcome (· = ·) (applySnapshotToMemory (buildKernelSnapshot otherKernel []) zeroPage)
        (applySnapshotToSharedMemory (buildKernelSnapshot otherKernel []) zeroPage) := by
  obtain ⟨howned, hshared⟩ := drivers_without_pages (buildKernelSnapshot otherKernel []) zeroPage rfl
  refine ⟨howned, fun hsame => ?_⟩
  rw [howned, hshared] at hsame
  exact hsame

end EdgeLibos.Snapshot
