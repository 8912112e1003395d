import EdgeLibos.Lib.Spans

/-!
# Arenas

One 256 KiB arena of guest linear memory: a bump pointer and a list of holes
left by `munmap`. Offsets and lengths are `usize` values and `base` is a
`u32`; both are natural numbers here, with the width written out where an
operation can leave it. The release profile has no overflow checks, so a
`u32` sum wraps.
-/

namespace EdgeLibos.Mm

open Lib

def ARENA_SIZE : Nat := 256 * 1024

structure Arena where
  /-- Offset in linear memory where this arena starts. -/
  base : Nat
  /-- Bump pointer, from `base`. -/
  used : Nat
  /-- Holes, as offsets from `base` and lengths. -/
  freeList : List Span
  deriving DecidableEq, Repr

def Arena.new (base : Nat) : Arena := { base, used := 0, freeList := [] }

/-- `(off + mask) & !mask` for `mask = align - 1`, on a 64-bit `usize`. -/
def alignUp (off align : Nat) : Nat := (off + (align - 1)) &&& (2 ^ 64 - 1 - (align - 1))

/-- The running best of the free-list search. -/
structure Fit where
  idx : Nat
  off : Nat
  waste : Nat
  deriving DecidableEq, Repr

/-- The search loop: entry `i` is the head of the list, `best` what the
entries before it gave. A later hole wins only when it wastes strictly less. -/
def bestFit (len align : Nat) : List Span → Nat → Option Fit → Option Fit
  | [], _, best => best
  | (off, hlen) :: rest, i, best =>
    let alignedOff := alignUp off align
    let slack := alignedOff - off
    if slack + len > hlen then bestFit len align rest (i + 1) best
    else
      let waste := hlen - len - slack
      match best with
      | none => bestFit len align rest (i + 1) (some ⟨i, alignedOff, waste⟩)
      | some b =>
        if waste < b.waste then bestFit len align rest (i + 1) (some ⟨i, alignedOff, waste⟩)
        else bestFit len align rest (i + 1) (some b)

/-- Carve `[allocOff, allocOff + len)` out of hole `i`. -/
def carve (l : List Span) (i allocOff len : Nat) : List Span :=
  let (holeOff, holeLen) := l.getD i (0, 0)
  let allocEnd := allocOff + len
  let holeEnd := holeOff + holeLen
  if allocOff = holeOff ∧ allocEnd = holeEnd then swapRemove l i
  else if allocOff = holeOff then l.set i (allocEnd, holeEnd - allocEnd)
  else if allocEnd = holeEnd then l.set i (holeOff, allocOff - holeOff)
  else l.set i (holeOff, allocOff - holeOff) ++ [(allocEnd, holeEnd - allocEnd)]

/-- `None` leaves the arena as it was. -/
def Arena.alloc (a : Arena) (len align : Nat) : Option (Nat × Arena) :=
  match bestFit len align a.freeList 0 none with
  | some fit =>
    some ((a.base + fit.off % 2 ^ 32) % 2 ^ 32,
      { a with freeList := carve a.freeList fit.idx fit.off len })
  | none =>
    let bumpAligned := alignUp a.used align
    let newUsed := bumpAligned + len
    if newUsed > ARENA_SIZE then none
    else some ((a.base + bumpAligned % 2 ^ 32) % 2 ^ 32, { a with used := newUsed })

/-- Push the freed range, sort the list by offset, and merge neighbours. -/
def insertHole (l : List Span) (r : Span) : List Span :=
  coalesce ((l ++ [r]).insertionSort fun r s => r.1 ≤ s.1)

/-- The `bool` of the source says whether the range was inside the arena;
otherwise nothing changes. -/
def Arena.free (a : Arena) (off len : Nat) : Bool × Arena :=
  if len = 0 then (false, a)
  else if off < a.base then (false, a)
  else
    let o := off - a.base
    if o + len ≥ 2 ^ 64 then (false, a)
    else if o + len > ARENA_SIZE then (false, a)
    else (true, { a with freeList := insertHole a.freeList (o, len) })

/-- `len as u32` truncates, and the arena's end is a `u32` sum. -/
def Arena.contains (a : Arena) (off len : Nat) : Bool :=
  if off + len % 2 ^ 32 ≥ 2 ^ 32 then false
  else off ≥ a.base && off + len % 2 ^ 32 ≤ (a.base + ARENA_SIZE) % 2 ^ 32

def Arena.available (a : Arena) : Nat :=
  ARENA_SIZE - a.used + (a.freeList.map fun r => r.2).sum

-- ---------------------------------------------------------------------------
-- Rounding up
-- ---------------------------------------------------------------------------

theorem alignUp_eq (hn : off + (2 ^ k - 1) < 2 ^ 64) (hk : k ≤ 64) :
    alignUp off (2 ^ k) = (off + (2 ^ k - 1)) / 2 ^ k * 2 ^ k := by
  have hp : 0 < 2 ^ k := Nat.two_pow_pos k
  have hle : 2 ^ k ≤ 2 ^ 64 := Nat.pow_le_pow_right (by decide) hk
  have hmask : 2 ^ 64 - 1 - (2 ^ k - 1) = 2 ^ 64 - ((2 ^ k - 1) + 1) := by omega
  unfold alignUp
  rw [hmask]
  generalize off + (2 ^ k - 1) = n at hn ⊢
  apply Nat.eq_of_testBit_eq
  intro i
  rw [Nat.testBit_and, Nat.testBit_two_pow_sub_succ (by omega), Nat.testBit_two_pow_sub_one,
    Nat.testBit_mul_two_pow]
  by_cases hi : k ≤ i
  · have hki : ¬ i < k := by omega
    by_cases h64 : i < 64
    · simp [hi, hki, h64, Nat.testBit_div_two_pow, Nat.sub_add_cancel hi]
    · have hnb : n.testBit i = false :=
        Nat.testBit_lt_two_pow (lt_of_lt_of_le hn (Nat.pow_le_pow_right (by decide) (by omega)))
      simp [hi, h64, hnb, Nat.testBit_div_two_pow, Nat.sub_add_cancel hi]
  · have hki : i < k := by omega
    simp [hi, hki]

theorem alignUp_spec (hn : off + (2 ^ k - 1) < 2 ^ 64) (hk : k ≤ 64) :
    off ≤ alignUp off (2 ^ k) ∧ alignUp off (2 ^ k) < off + 2 ^ k ∧
      2 ^ k ∣ alignUp off (2 ^ k) := by
  have hp : 0 < 2 ^ k := Nat.two_pow_pos k
  rw [alignUp_eq hn hk]
  have hdiv := Nat.div_add_mod (off + (2 ^ k - 1)) (2 ^ k)
  have hmod := Nat.mod_lt (off + (2 ^ k - 1)) hp
  rw [Nat.mul_comm] at hdiv
  refine ⟨by omega, by omega, Nat.dvd_mul_left _ _⟩

theorem alignUp_eight (hn : off ≤ ARENA_SIZE) :
    off ≤ alignUp off 8 ∧ alignUp off 8 < off + 8 ∧ 8 ∣ alignUp off 8 := by
  have h : off + (2 ^ 3 - 1) < 2 ^ 64 := by
    unfold ARENA_SIZE at hn
    omega
  exact alignUp_spec (k := 3) h (by decide)

end EdgeLibos.Mm
