import Mathlib.Data.List.Basic

/-!
# Sets of bits

A word as a set of bits: `Within a m` says that every bit of `a` is one of `m`.
-/

namespace EdgeLibos.Lib

def Within (a m : UInt32) : Prop := a &&& m = a

namespace Within

variable {a b m : UInt32}

theorem zero (m : UInt32) : Within 0 m := UInt32.zero_and

theorem or (ha : Within a m) (hb : Within b m) : Within (a ||| b) m := by
  unfold Within at *
  rw [← UInt32.toBitVec_inj] at *
  rw [UInt32.toBitVec_and, UInt32.toBitVec_or, BitVec.and_or_distrib_right, ← UInt32.toBitVec_and, ha,
    ← UInt32.toBitVec_and, hb]

theorem left (h : Within a m) (n : UInt32) : Within a (m ||| n) := by
  unfold Within at *
  rw [← UInt32.toBitVec_inj] at *
  rw [UInt32.toBitVec_and, UInt32.toBitVec_or, BitVec.and_or_distrib_left, ← UInt32.toBitVec_and, h]
  ext i hi
  rw [BitVec.getElem_or, BitVec.getElem_and]
  cases a.toBitVec[i] <;> rfl

theorem right (h : Within a m) (n : UInt32) : Within a (n ||| m) := by
  rw [UInt32.or_comm]
  exact h.left n

theorem bit (i : Nat) (hb : b.toBitVec = BitVec.twoPow 32 i) (h : m &&& b ≠ 0) : Within b m := by
  unfold Within
  rw [UInt32.and_comm, ← UInt32.toBitVec_inj]
  rw [Ne, ← UInt32.toBitVec_inj] at h
  rw [UInt32.toBitVec_and, hb, BitVec.and_twoPow] at *
  split
  · rfl
  · rename_i hbit
    rw [if_neg hbit] at h
    exact absurd rfl h

end Within

end EdgeLibos.Lib
