import EdgeLibos.Lib.Runs
import EdgeLibos.Process.Children
import EdgeLibos.Sys.FdSets

/-!
# Thread numbers

`clone` takes a number from `next_pid`, enters it in the registry of the process and then
writes it to the two places its flags ask for. Either write can fail, and nothing is
taken back. The calls stand in runs, with the numbers that were returned: `fork` takes its
numbers from the same counter, which wraps at 32 bits.
-/

namespace EdgeLibos.Process

open Errno Lib
open Sys (byteAt Span guestCopy_byteAt)
open Sys.FdSets (Fits fits_iff guestCopy_fits guestCopy_fitted)

def CLONE_CHILD_SETTID : BitVec 64 := 0x01000000

def CLONE_PARENT_SETTID : BitVec 64 := 0x08000000

def CLONE_VM : BitVec 64 := 0x100

def CLONE_THREAD : BitVec 64 := 0x10000

def CLONE_SUPPORTED_V2 : BitVec 64 := CLONE_CHILD_SETTID ||| CLONE_PARENT_SETTID ||| CLONE_VM ||| CLONE_THREAD

/-- The process state that `clone` and `fork` use, and the caller's memory. -/
structure Threads where
  nextPid : Int32
  tgidRegistry : List Int32
  children : Children
  memory : Option MemoryKind

/-- `next_pid.fetch_add(1)`, and the number's entry in the registry. -/
def Threads.register (t : Threads) : Threads :=
  { t with nextPid := t.nextPid + 1, tgidRegistry := t.tgidRegistry.insert t.nextPid }

def writeTid (memory : Option MemoryKind) (flags flag : BitVec 64) (ptr : Int) (tid : Int32) :
    Except Int (Option MemoryKind) :=
  if flags &&& flag ≠ 0 then guestCopy memory ptr 4 (le32 tid.toUInt32) else .ok memory

/-- A flag outside the supported ones, or none that tells where the number goes. -/
def Refused (flags : BitVec 64) : Prop :=
  flags &&& ~~~CLONE_SUPPORTED_V2 ≠ 0 ∨ flags &&& (CLONE_CHILD_SETTID ||| CLONE_PARENT_SETTID) = 0

instance (flags : BitVec 64) : Decidable (Refused flags) := inferInstanceAs (Decidable (_ ∨ _))

def clone (t : Threads) (flags : BitVec 64) (ptid ctid : Int) : Int × Threads :=
  if Refused flags then (-EINVAL, t)
  else
    let childTid := t.nextPid
    let t := t.register
    match ownedOf t.memory with
    | .error e => (e, t)
    | .ok _ =>
      match writeTid t.memory flags CLONE_PARENT_SETTID ptid childTid with
      | .error e => (e, t)
      | .ok memory =>
        match writeTid memory flags CLONE_CHILD_SETTID ctid childTid with
        | .error e => (e, { t with memory })
        | .ok memory => (childTid.toInt, { t with memory })

/-- `notify` is the new entry's. -/
def Threads.fork (t : Threads) (notify : Nat) : Int × Threads :=
  (t.nextPid.toInt, { t.register with children := t.children.insert t.nextPid (.new 0 notify) })

-- ---------------------------------------------------------------------------
-- Runs
-- ---------------------------------------------------------------------------

/-- A process with the numbers its calls have returned and how many have been taken. -/
structure Numbering where
  threads : Threads
  returned : List Int32
  taken : Nat

inductive Numbers
  | clone (flags : BitVec 64) (ptid ctid : Int)
  | fork (notify : Nat)
  /-- What other calls and the guest itself do. -/
  | other (children : Children) (memory : Option MemoryKind)

/-- A call took the number `tid` and returned `value`. -/
def Numbering.took (r : Numbering) (value : Int) (t : Threads) : Numbering where
  threads := t
  returned := if 0 ≤ value then r.threads.nextPid :: r.returned else r.returned
  taken := r.taken + 1

def Numbering.next (r : Numbering) : Numbers → Option Numbering
  | .clone flags ptid ctid =>
    let (value, t) := clone r.threads flags ptid ctid
    some (if Refused flags then r else r.took value t)
  | .fork notify => some (r.took (r.threads.fork notify).1 (r.threads.fork notify).2)
  | .other children memory => some { r with threads := { r.threads with children, memory } }

def Numbering.start (children : Children) (memory : Option MemoryKind) : Numbering where
  threads := { nextPid := 2, tgidRegistry := [1], children, memory }
  returned := []
  taken := 0

-- ---------------------------------------------------------------------------
-- A failed call leaves no trace
-- ---------------------------------------------------------------------------

/-- `tid` is at the places that the flags ask for, and no other byte has changed. -/
def WrittenTo (flags : BitVec 64) (ptid ctid : Int) (tid : Int32) (memory memory' : Option MemoryKind) : Prop :=
  ∀ i, byteAt memory' i =
    if flags &&& CLONE_CHILD_SETTID ≠ 0 ∧ Span ctid 4 i then (le32 tid.toUInt32)[i - ctid.toNat]?
    else if flags &&& CLONE_PARENT_SETTID ≠ 0 ∧ Span ptid 4 i then (le32 tid.toUInt32)[i - ptid.toNat]?
    else byteAt memory i

structure Traceless (r : Numbering) (flags : BitVec 64) (ptid ctid : Int) : Prop where
  failed : (clone r.threads flags ptid ctid).1 < 0 → (clone r.threads flags ptid ctid).2 = r.threads
  told : 0 ≤ (clone r.threads flags ptid ctid).1 → ∃ tid : Int32,
    (clone r.threads flags ptid ctid).1 = tid.toInt ∧ tid ∉ r.returned ∧
      WrittenTo flags ptid ctid tid r.threads.memory (clone r.threads flags ptid ctid).2.memory

def GoodPointers (flags : BitVec 64) (ptid ctid : Int) (memory : Option MemoryKind) : Prop :=
  (flags &&& CLONE_PARENT_SETTID ≠ 0 → Fits memory ptid 4) ∧
    (flags &&& CLONE_CHILD_SETTID ≠ 0 → Fits memory ctid 4)

variable {r r' : Numbering} {t : Threads} {flags : BitVec 64} {ptid ctid : Int}
  {memory memory' : Option MemoryKind}

theorem writeTid_error (h : writeTid memory flags flag ptr tid = .error e) :
    e < 0 ∧ ¬ (flags &&& flag ≠ 0 → Fits memory ptr 4) := by
  unfold writeTid at h
  split at h
  · rename_i hflag
    refine ⟨guestCopy_error_neg h, fun hfits => ?_⟩
    obtain ⟨memory', hcopy⟩ := guestCopy_fits (le32 tid.toUInt32) (hfits hflag) rfl
    rw [hcopy] at h
    cases h
  · cases h

theorem writeTid_ok (h : writeTid memory flags flag ptr tid = .ok memory') :
    (flags &&& flag ≠ 0 → Fits memory ptr 4) ∧ (∀ p n, Fits memory' p n ↔ Fits memory p n) ∧
      ∀ i, byteAt memory' i =
        if flags &&& flag ≠ 0 ∧ Span ptr 4 i then (le32 tid.toUInt32)[i - ptr.toNat]? else byteAt memory i := by
  unfold writeTid at h
  split at h
  · rename_i hflag
    obtain ⟨hfits, -, hsize⟩ := guestCopy_fitted h
    refine ⟨fun _ => hfits, hsize, fun i => ?_⟩
    rw [guestCopy_byteAt h, le32_length]
    simp only [hflag, not_false_eq_true, ne_eq, true_and]
  · rename_i hflag
    cases h
    refine ⟨fun hset => absurd hset hflag, fun _ _ => Iff.rfl, fun i => ?_⟩
    rw [if_neg fun hset => hflag hset.1]

theorem clone_cases (hflags : ¬ Refused flags) (t : Threads) (ptid ctid : Int) :
    ((clone t flags ptid ctid).1 < 0 ∧ ¬ GoodPointers flags ptid ctid t.memory ∧
        (clone t flags ptid ctid).2.nextPid = t.nextPid + 1) ∨
      ((clone t flags ptid ctid).1 = t.nextPid.toInt ∧ GoodPointers flags ptid ctid t.memory ∧
        (clone t flags ptid ctid).2.nextPid = t.nextPid + 1 ∧
        WrittenTo flags ptid ctid t.nextPid t.memory (clone t flags ptid ctid).2.memory) := by
  unfold clone
  rw [if_neg hflags]
  dsimp only [Threads.register]
  cases howned : ownedOf t.memory with
  | error e =>
    refine .inl ⟨ownedOf_error_neg howned, fun hgood => ?_, rfl⟩
    have hsome : flags &&& CLONE_PARENT_SETTID ≠ 0 ∨ flags &&& CLONE_CHILD_SETTID ≠ 0 := by
      by_contra hnone
      obtain ⟨hparent, hchild⟩ := not_or.mp hnone
      apply hflags
      right
      rw [BitVec.and_or_distrib_left, not_not.mp hparent, not_not.mp hchild]
      rfl
    have hfits : ∃ ptr, Fits t.memory ptr 4 := by
      rcases hsome with hset | hset
      · exact ⟨ptid, hgood.1 hset⟩
      · exact ⟨ctid, hgood.2 hset⟩
    obtain ⟨ptr, hptr⟩ := hfits
    obtain ⟨mem, hmem, -⟩ := fits_iff.mp hptr
    rw [hmem] at howned
    cases howned
  | ok mem =>
    dsimp only
    cases hfirst : writeTid t.memory flags CLONE_PARENT_SETTID ptid t.nextPid with
    | error e =>
      obtain ⟨hneg, hbad⟩ := writeTid_error hfirst
      exact .inl ⟨hneg, fun hgood => hbad hgood.1, rfl⟩
    | ok memory =>
      obtain ⟨hptid, hsize, hbytes⟩ := writeTid_ok hfirst
      dsimp only
      cases hsecond : writeTid memory flags CLONE_CHILD_SETTID ctid t.nextPid with
      | error e =>
        obtain ⟨hneg, hbad⟩ := writeTid_error hsecond
        exact .inl ⟨hneg, fun hgood => hbad fun hset => (hsize ctid 4).mpr (hgood.2 hset), rfl⟩
      | ok memory' =>
        obtain ⟨hctid, -, hbytes'⟩ := writeTid_ok hsecond
        refine .inr ⟨rfl, ⟨hptid, fun hset => (hsize ctid 4).mp (hctid hset)⟩, rfl, fun i => ?_⟩
        rw [hbytes', hbytes]

/-- The call takes no number, or it takes one that no call has returned and can tell it. -/
def Clean (r : Numbering) (flags : BitVec 64) (ptid ctid : Int) : Prop :=
  Refused flags ∨
    (0 ≤ r.threads.nextPid.toInt ∧ r.threads.nextPid ∉ r.returned ∧
      GoodPointers flags ptid ctid r.threads.memory)

theorem traceless_iff (r : Numbering) (flags : BitVec 64) (ptid ctid : Int) :
    Traceless r flags ptid ctid ↔ Clean r flags ptid ctid := by
  by_cases hflags : Refused flags
  · have hclone : clone r.threads flags ptid ctid = (-EINVAL, r.threads) := if_pos hflags
    refine ⟨fun _ => .inl hflags, fun _ => ⟨fun _ => ?_, fun hge => ?_⟩⟩
    · rw [hclone]
    · rw [hclone] at hge
      cases hge
  have hmoved : r.threads.nextPid + 1 ≠ r.threads.nextPid := by
    intro h
    have hmod := congrArg (fun n => n.toUInt32.toNat) h
    have hone : (1 : Int32).toUInt32.toNat = 1 := rfl
    simp only [Int32.toUInt32_add, UInt32.toNat_add, hone] at hmod
    omega
  rcases clone_cases hflags r.threads ptid ctid with ⟨hneg, hbad, hnext⟩ | ⟨hvalue, hgood, hnext, hwritten⟩
  · constructor
    · intro h
      rw [h.failed hneg] at hnext
      exact absurd hnext.symm hmoved
    · rintro (h | ⟨-, -, hgood⟩)
      · exact absurd h hflags
      · exact absurd hgood hbad
  · constructor
    · intro h
      right
      by_cases hneg : r.threads.nextPid.toInt < 0
      · rw [h.failed (hvalue ▸ hneg)] at hnext
        exact absurd hnext.symm hmoved
      · have hge := Int.not_lt.mp hneg
        obtain ⟨tid, htid, hfresh, -⟩ := h.told (hvalue ▸ hge)
        obtain rfl := Int32.toInt_inj.mp (hvalue.symm.trans htid)
        exact ⟨hge, hfresh, hgood⟩
    · rintro (h | ⟨hge, hfresh, -⟩)
      · exact absurd h hflags
      · refine ⟨fun hneg => ?_, fun _ => ⟨_, hvalue, hfresh, hwritten⟩⟩
        rw [hvalue] at hneg
        omega

-- ---------------------------------------------------------------------------
-- Fresh numbers
-- ---------------------------------------------------------------------------

/-- The counter stands after the numbers taken, and only these were returned. -/
structure Numbering.Inv (r : Numbering) : Prop where
  counter : r.threads.nextPid = Int32.ofNat (2 + r.taken)
  returned : ∀ tid ∈ r.returned, ∃ i < r.taken, tid = Int32.ofNat (2 + i)

theorem Numbering.took_inv (h : r.Inv) (hnext : t.nextPid = r.threads.nextPid + 1) (value : Int) :
    (r.took value t).Inv := by
  constructor
  · simp only [took, hnext, h.counter, ← Nat.add_assoc, Int32.ofNat_add]
    rfl
  · have hold : ∀ tid ∈ r.returned, ∃ i < r.taken + 1, tid = Int32.ofNat (2 + i) := by
      intro tid htid
      obtain ⟨i, hi, htid⟩ := h.returned tid htid
      exact ⟨i, Nat.lt_succ_of_lt hi, htid⟩
    simp only [took]
    split
    · intro tid htid
      rcases List.mem_cons.mp htid with rfl | htid
      · exact ⟨r.taken, Nat.lt_succ_self _, h.counter⟩
      · exact hold tid htid
    · exact hold

theorem Numbering.next_inv (h : r.Inv) (hs : r.next a = some r') : r'.Inv := by
  cases a with
  | clone flags ptid ctid =>
    cases hs
    split
    · exact h
    · rename_i hflags
      rcases clone_cases hflags r.threads ptid ctid with ⟨-, -, hnext⟩ | ⟨-, -, hnext, -⟩
      · exact took_inv h hnext _
      · exact took_inv h hnext _
  | fork notify =>
    cases hs
    exact took_inv h rfl _
  | other children memory =>
    cases hs
    exact ⟨h.counter, h.returned⟩

theorem Numbering.Inv.fresh (h : r.Inv) (hlt : r.taken < 2 ^ 32) : r.threads.nextPid ∉ r.returned := by
  intro hmem
  obtain ⟨i, hi, heq⟩ := h.returned _ hmem
  rw [h.counter] at heq
  have hmod := congrArg (fun n => n.toUInt32.toNat) heq
  simp only [Int32.toUInt32_ofNat', UInt32.toNat_ofNat'] at hmod
  omega

/-- A call leaves no trace when it fails, and a fresh number exactly where it was asked
for when it does not, if its flags are refused or its pointers are good and the counter
stands at a number that can be told and was not yet; the latter so long as it has not gone
round. -/
theorem clone_leaves_no_trace_iff (r : Numbering) (flags : BitVec 64) (ptid ctid : Int) :
    (Traceless r flags ptid ctid ↔ Clean r flags ptid ctid) ∧
      ∀ children memory, Reaches Numbering.next (fun _ _ => True) (.start children memory) r →
        r.taken < 2 ^ 32 → r.threads.nextPid ∉ r.returned := by
  refine ⟨traceless_iff r flags ptid ctid, fun children memory h => ?_⟩
  have hstart : (Numbering.start children memory).Inv := ⟨rfl, fun tid htid => by cases htid⟩
  exact (h.invariant hstart fun _ _ _ hr _ hs => Numbering.next_inv hr hs).fresh

/-- The first thread of a process, its number asked for twice. -/
theorem clone_leaves_no_trace_first :
    Traceless (.start .empty (some (.owned .zeroPage))) (CLONE_PARENT_SETTID ||| CLONE_CHILD_SETTID) 16 32 ∧
      (clone (Numbering.start .empty (some (.owned .zeroPage))).threads
        (CLONE_PARENT_SETTID ||| CLONE_CHILD_SETTID) 16 32).1 = 2 := by
  have hflags : ¬ Refused (CLONE_PARENT_SETTID ||| CLONE_CHILD_SETTID) := by decide
  have hfits (ptr : Int) (hlow : 0 ≤ ptr) (hhigh : ptr ≤ 32) : Fits (some (.owned .zeroPage)) ptr 4 :=
    fits_iff.mpr ⟨_, rfl, hlow, by decide, by rw [LinearMemory.zeroPage_size]; omega⟩
  have hgood : GoodPointers (CLONE_PARENT_SETTID ||| CLONE_CHILD_SETTID) 16 32 (some (.owned .zeroPage)) :=
    ⟨fun _ => hfits 16 (by decide) (by decide), fun _ => hfits 32 (by decide) (by decide)⟩
  refine ⟨(clone_leaves_no_trace_iff _ _ _ _).1.mpr (.inr ⟨by decide, List.not_mem_nil, hgood⟩), ?_⟩
  rcases clone_cases hflags (Numbering.start .empty (some (.owned .zeroPage))).threads 16 32 with
    ⟨-, hbad, -⟩ | ⟨hvalue, -⟩
  · exact absurd hgood hbad
  · exact hvalue

/-- The pointer is bad; the number is used up and stays in the registry. -/
theorem failed_clone_keeps_number :
    (clone (Numbering.start .empty (some (.owned .zeroPage))).threads CLONE_PARENT_SETTID (-4) 0).1 = -EFAULT ∧
      (clone (Numbering.start .empty (some (.owned .zeroPage))).threads CLONE_PARENT_SETTID (-4) 0).2.tgidRegistry =
        [2, 1] ∧
      ¬ Traceless (.start .empty (some (.owned .zeroPage))) CLONE_PARENT_SETTID (-4) 0 := by
  have hclone : clone (Numbering.start .empty (some (.owned .zeroPage))).threads CLONE_PARENT_SETTID (-4) 0 =
      (-EFAULT, Threads.register (Numbering.start .empty (some (.owned .zeroPage))).threads) := rfl
  refine ⟨by rw [hclone], by rw [hclone]; rfl, fun h => ?_⟩
  have hsame := h.failed (by rw [hclone]; decide)
  rw [hclone] at hsame
  exact absurd (congrArg Threads.nextPid hsame) (by decide)

end EdgeLibos.Process
