import EdgeLibos.Lib.Words

/-!
# Bits in bytes

A bitmap kept in bytes, bit `i` of it in byte `i / 8`, the same bits looked at through
little-endian words of eight bytes, and how many members a bitmap has.
-/

namespace EdgeLibos.Lib

def bitOf (bytes : List UInt8) (i : Nat) : Bool := (bytes.getD (i / 8) 0).toNat.testBit (i % 8)

theorem bitOf_cons_lt (bytes : List UInt8) (h : i < 8) : bitOf (b :: bytes) i = b.toNat.testBit i := by
  rw [bitOf, Nat.div_eq_of_lt h, Nat.mod_eq_of_lt h, List.getD_cons_zero]

theorem bitOf_cons_ge (bytes : List UInt8) (h : 8 ≤ i) : bitOf (b :: bytes) i = bitOf bytes (i - 8) := by
  have hdiv : i / 8 = (i - 8) / 8 + 1 := by omega
  have hmod : (i - 8) % 8 = i % 8 := by omega
  rw [bitOf, bitOf, hdiv, hmod, List.getD_cons_succ]

theorem testBit_leValue (bytes : List UInt8) (i : Nat) : (leValue bytes).testBit i = bitOf bytes i := by
  induction bytes generalizing i with
  | nil => rw [bitOf, List.getD_nil, leValue, List.foldr_nil, Nat.zero_testBit, UInt8.toNat_zero, Nat.zero_testBit]
  | cons b bytes ih =>
    have hcons : leValue (b :: bytes) = 2 ^ 8 * leValue bytes + b.toNat := Nat.add_comm ..
    rw [hcons, Nat.testBit_two_pow_mul_add _ b.toNat_lt, ih]
    by_cases hi : i < 8
    · rw [if_pos hi, bitOf_cons_lt bytes hi]
    · rw [if_neg hi, bitOf_cons_ge bytes (Nat.le_of_not_lt hi)]

theorem bitOf_of_le {bytes : List UInt8} (h : 8 * bytes.length ≤ i) : bitOf bytes i = false := by
  have hlen : bytes.length ≤ i / 8 := by omega
  rw [bitOf, List.getD_eq_getElem?_getD, List.getElem?_eq_none hlen, Option.getD_none, UInt8.toNat_zero,
    Nat.zero_testBit]

theorem leValue_lt (bytes : List UInt8) : leValue bytes < 2 ^ (8 * bytes.length) := by
  refine Nat.lt_pow_two_of_testBit _ fun i hi => ?_
  rw [testBit_leValue, bitOf_of_le hi]

theorem bitOf_word (bytes : List UInt8) (start : Nat) (h : i < 64) :
    bitOf ((bytes.drop start).take 8) i = bitOf bytes (8 * start + i) := by
  have hdiv : (8 * start + i) / 8 = start + i / 8 := by omega
  have hmod : (8 * start + i) % 8 = i % 8 := by omega
  have hget : ((bytes.drop start).take 8).getD (i / 8) 0 = bytes.getD (start + i / 8) 0 := by
    rw [List.getD_eq_getElem?_getD, List.getD_eq_getElem?_getD, List.getElem?_take_of_lt (by omega),
      List.getElem?_drop]
  rw [bitOf, bitOf, hdiv, hmod, hget]

theorem toNat_ofLe64 {bytes : List UInt8} (h : bytes.length ≤ 8) : (ofLe64 bytes).toNat = leValue bytes := by
  have hlt : leValue bytes < 2 ^ 64 :=
    Nat.lt_of_lt_of_le (leValue_lt bytes) (Nat.pow_le_pow_right (by decide) (by omega))
  rw [ofLe64, UInt64.toNat_ofNat', Nat.mod_eq_of_lt hlt]

def wordBit (v : UInt64) (i : Nat) : Bool := (v >>> UInt64.ofNat i) &&& 1 ≠ 0

theorem wordBit_eq (v : UInt64) (h : i < 64) : wordBit v i = v.toNat.testBit i := by
  have hi : (UInt64.ofNat i).toNat % 64 = i := by
    rw [UInt64.toNat_ofNat_of_lt' (by simp only [UInt64.size]; omega), Nat.mod_eq_of_lt h]
  have hvalue : ((v >>> UInt64.ofNat i) &&& 1).toNat = v.toNat / 2 ^ i % 2 := by
    rw [UInt64.toNat_and, UInt64.toNat_shiftRight, hi, UInt64.toNat_one, Nat.and_one_is_mod,
      Nat.shiftRight_eq_div_pow]
  rw [wordBit, Nat.testBit_eq_decide_div_mod_eq, ← hvalue]
  refine decide_eq_decide.mpr ⟨fun hne => ?_, fun hone hzero => ?_⟩
  · refine (Nat.mod_two_eq_zero_or_one (v.toNat / 2 ^ i)).elim (fun hzero => absurd ?_ hne) (hvalue ▸ ·)
    exact UInt64.toNat_inj.mp (hvalue.trans hzero)
  · rw [hzero] at hone
    cases hone

/-- `v |= 1 << i` -/
def setWordBit (v : UInt64) (i : Nat) : UInt64 := v ||| ((1 : UInt64) <<< UInt64.ofNat i)

theorem testBit_setWordBit (v : UInt64) (h : i < 64) (j : Nat) :
    (setWordBit v i).toNat.testBit j = (v.toNat.testBit j || decide (i = j)) := by
  have hi : (UInt64.ofNat i).toNat % 64 = i := by
    rw [UInt64.toNat_ofNat_of_lt' (by simp only [UInt64.size]; omega), Nat.mod_eq_of_lt h]
  have hlt : 2 ^ i < 2 ^ 64 := Nat.pow_lt_pow_right (by decide) h
  rw [setWordBit, UInt64.toNat_or, UInt64.toNat_shiftLeft, hi, UInt64.toNat_one, Nat.shiftLeft_eq,
    Nat.one_mul, Nat.mod_eq_of_lt hlt, Nat.testBit_or, Nat.testBit_two_pow]

theorem bitOf_setWordBit {bytes : List UInt8} (hlen : bytes.length ≤ 8) (h : i < 64) (j : Nat) :
    bitOf (le64 (setWordBit (ofLe64 bytes) i)) j = (bitOf bytes j || decide (i = j)) := by
  have hvalue : leValue (le64 (setWordBit (ofLe64 bytes) i)) = (setWordBit (ofLe64 bytes) i).toNat := by
    rw [le64, leValue_encLe]
    exact Nat.mod_eq_of_lt (UInt64.toNat_lt _)
  rw [← testBit_leValue, hvalue, testBit_setWordBit _ h, toNat_ofLe64 hlen, testBit_leValue]

-- ---------------------------------------------------------------------------
-- Members
-- ---------------------------------------------------------------------------

theorem filterMap_ite (p : α → Bool) (f : α → β) (l : List α) :
    l.filterMap (fun x => if p x then some (f x) else none) = (l.filter p).map f := by
  induction l with
  | nil => rfl
  | cons x l ih =>
    rw [List.filterMap_cons, List.filter_cons, ih]
    cases p x <;> rfl

theorem countP_range_of_lt (q : Nat → Bool) (hq : ∀ x, q x = true → x < n) (d : Nat) :
    (List.range (n + d)).countP q = (List.range n).countP q := by
  induction d with
  | zero => rfl
  | succ d ih =>
    have hout : ¬ q (n + d) = true := fun h => absurd (hq _ h) (by omega)
    rw [← Nat.add_assoc, List.range_succ, List.countP_append, ih, List.countP_singleton, if_neg hout,
      Nat.add_zero]

/-- Members of two parts of `u` are members of the one, of the other or of neither, and
those of both count twice. -/
theorem countP_parts (l : List α) (u p q : α → Bool) (hp : ∀ x, p x = true → u x = true)
    (hq : ∀ x, q x = true → u x = true) :
    l.countP u + l.countP (fun x => p x && q x) =
      l.countP p + l.countP q + l.countP (fun x => u x && !p x && !q x) := by
  induction l with
  | nil => rfl
  | cons x l ih =>
    simp only [List.countP_cons]
    cases hu : u x with
    | false =>
      have hpx : p x = false := Bool.eq_false_iff.mpr fun h => Bool.false_ne_true (hu.symm.trans (hp x h))
      have hqx : q x = false := Bool.eq_false_iff.mpr fun h => Bool.false_ne_true (hu.symm.trans (hq x h))
      simp only [hpx, hqx, Bool.and_self, Bool.false_eq_true, if_false, Bool.false_and]
      omega
    | true => cases p x <;> cases q x <;> simp <;> omega

end EdgeLibos.Lib
