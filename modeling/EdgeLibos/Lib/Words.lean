import EdgeLibos.Lib.Postcard

/-!
# Words in bytes

A machine word as its bytes in memory, the least significant first or last, and the bytes
before the first NUL.
-/

namespace EdgeLibos.Lib

open Postcard.Codec

def le32 (v : UInt32) : List UInt8 := encLe 4 v.toNat

def le16 (v : UInt16) : List UInt8 := encLe 2 v.toNat

def be16 (v : UInt16) : List UInt8 := (encLe 2 v.toNat).reverse

def leValue (bytes : List UInt8) : Nat := bytes.foldr (fun b acc => b.toNat + 256 * acc) 0

def ofLe32 (bytes : List UInt8) : UInt32 := UInt32.ofNat (leValue bytes)

def le64 (v : UInt64) : List UInt8 := encLe 8 v.toNat

def ofLe64 (bytes : List UInt8) : UInt64 := UInt64.ofNat (leValue bytes)

@[simp] theorem le32_length (v : UInt32) : (le32 v).length = 4 := encLe_length ..

@[simp] theorem le16_length (v : UInt16) : (le16 v).length = 2 := encLe_length ..

@[simp] theorem le64_length (v : UInt64) : (le64 v).length = 8 := encLe_length ..

@[simp] theorem be16_length (v : UInt16) : (be16 v).length = 2 := by
  rw [be16, List.length_reverse, encLe_length]

theorem leValue_encLe (n v : Nat) : leValue (encLe n v) = v % 256 ^ n := by
  induction n generalizing v with
  | zero => simp [encLe, leValue, Nat.mod_one]
  | succ n ih =>
    have hcons : leValue (encLe (n + 1) v) = v % 256 + 256 * (v / 256 % 256 ^ n) := by
      rw [← ih, ← UInt8.toNat_ofNat']
      rfl
    rw [hcons, Nat.pow_succ', Nat.mod_mul]

theorem leValue_le16 (v : UInt16) : leValue (le16 v) = v.toNat := by
  rw [le16, leValue_encLe]
  exact Nat.mod_eq_of_lt v.toNat_lt

theorem ofLe64_le64 (v : UInt64) : ofLe64 (le64 v) = v := by
  have hlt : v.toNat < 256 ^ 8 := v.toNat_lt
  rw [ofLe64, le64, leValue_encLe, Nat.mod_eq_of_lt hlt, UInt64.ofNat_toNat]

theorem takeWhile_nul {text tail : List UInt8} (h : 0 ∉ text) :
    (text ++ 0 :: tail).takeWhile (· ≠ 0) = text := by
  rw [List.takeWhile_append_of_pos, List.takeWhile_cons_of_neg (by decide), List.append_nil]
  intro b hb
  exact decide_eq_true fun hzero => h (hzero ▸ hb)

theorem takeWhile_plain {text : List UInt8} (h : 0 ∉ text) : text.takeWhile (· ≠ 0) = text := by
  have happend : (text ++ []).takeWhile (· ≠ 0) = text ++ [].takeWhile (· ≠ 0) :=
    List.takeWhile_append_of_pos fun b hb => decide_eq_true fun hzero => h (hzero ▸ hb)
  rwa [List.takeWhile_nil, List.append_nil] at happend

theorem eq_takeWhile_nul {bytes : List UInt8} (h : 0 ∈ bytes) :
    ∃ tail, bytes = bytes.takeWhile (· ≠ 0) ++ 0 :: tail ∧ 0 ∉ bytes.takeWhile (· ≠ 0) := by
  obtain ⟨text, tail, rfl, hplain⟩ := List.eq_append_cons_of_mem h
  exact ⟨tail, by rw [takeWhile_nul hplain], by rwa [takeWhile_nul hplain]⟩

end EdgeLibos.Lib
