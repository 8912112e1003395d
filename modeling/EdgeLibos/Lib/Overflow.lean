import EdgeLibos.Lib.Words
import Mathlib.Algebra.Ring.Int.Defs

/-!
# Arithmetic that can overflow

The result of an operation on words of `w` bits, from its exact value. A build with
overflow checks panics when the value does not fit; one without them wraps. A signed
64-bit word in its eight bytes stands beside it.
-/

namespace EdgeLibos.Lib

/-- `none` is a panic. -/
def unsigned (checks : Bool) (w n : Nat) : Option Nat :=
  if n < 2 ^ w then some n else if checks then none else some (n % 2 ^ w)

def signed (checks : Bool) (w : Nat) (n : Int) : Option Int :=
  if -2 ^ (w - 1) ≤ n ∧ n < 2 ^ (w - 1) then some n
  else if checks then none else some (Int.bmod n (2 ^ w))

/-- The largest unsigned word stands for all that do not fit. -/
def saturating (w n : Nat) : Nat := min n (2 ^ w - 1)

theorem unsigned_of_lt (checks : Bool) (h : n < 2 ^ w) : unsigned checks w n = some n := if_pos h

theorem unsigned_checked (h : ¬ n < 2 ^ w) : unsigned true w n = none := by
  rw [unsigned, if_neg h]
  rfl

theorem unsigned_unchecked (w n : Nat) : unsigned false w n = some (n % 2 ^ w) := by
  unfold unsigned
  split
  · rename_i h
    rw [Nat.mod_eq_of_lt h]
  · rfl

theorem signed_of_fits (checks : Bool) (h : -2 ^ (w - 1) ≤ n ∧ n < 2 ^ (w - 1)) :
    signed checks w n = some n := if_pos h

theorem signed_checked (h : ¬ (-2 ^ (w - 1) ≤ n ∧ n < 2 ^ (w - 1))) : signed true w n = none := by
  rw [signed, if_neg h]
  rfl

theorem signed_unchecked (n : Int) : signed false 64 n = some (Int.bmod n (2 ^ 64)) := by
  unfold signed
  split
  · rename_i h
    rw [Int.bmod_eq_of_le (by omega) (by omega)]
  · rfl

/-- Both builds agree on a result exactly when it is the exact value. -/
theorem unsigned_iff : (∀ checks, unsigned checks w n = some m) ↔ n < 2 ^ w ∧ n = m := by
  constructor
  · intro h
    have hfits : n < 2 ^ w := by
      by_contra hn
      cases (unsigned_checked hn).symm.trans (h true)
    exact ⟨hfits, Option.some.inj ((unsigned_of_lt true hfits).symm.trans (h true))⟩
  · rintro ⟨hfits, rfl⟩ checks
    exact unsigned_of_lt checks hfits

theorem signed_iff : (∀ checks, signed checks w n = some m) ↔
    (-2 ^ (w - 1) ≤ n ∧ n < 2 ^ (w - 1)) ∧ n = m := by
  constructor
  · intro h
    have hfits : -2 ^ (w - 1) ≤ n ∧ n < 2 ^ (w - 1) := by
      by_contra hn
      cases (signed_checked hn).symm.trans (h true)
    exact ⟨hfits, Option.some.inj ((signed_of_fits true hfits).symm.trans (h true))⟩
  · rintro ⟨hfits, rfl⟩ checks
    exact signed_of_fits checks hfits

-- ---------------------------------------------------------------------------
-- Signed words in bytes
-- ---------------------------------------------------------------------------

def leI64 (n : Int) : List UInt8 := le64 (UInt64.ofBitVec (BitVec.ofInt 64 n))

@[simp] theorem leI64_length (n : Int) : (leI64 n).length = 8 := le64_length _

theorem toInt_leI64 (h : -2 ^ 63 ≤ n ∧ n < 2 ^ 63) :
    (BitVec.ofNat 64 (leValue (leI64 n))).toInt = n := by
  have hword : BitVec.ofNat 64 (leValue (leI64 n)) = BitVec.ofInt 64 n := by
    have hlt : (UInt64.ofBitVec (BitVec.ofInt 64 n)).toNat < 256 ^ 8 := UInt64.toNat_lt _
    rw [leI64, le64, leValue_encLe, Nat.mod_eq_of_lt hlt]
    exact BitVec.ofNat_toNat ..
  rw [hword, BitVec.toInt_ofInt, Int.bmod_eq_of_le (by omega) (by omega)]

end EdgeLibos.Lib
