import Mathlib.Data.List.Basic

/-!
# Lists in chunks of one size

`chunk p i l` is the `i`-th run of `p` elements of `l`. A list of `n * p`
elements is known by its `n` chunks.
-/

namespace EdgeLibos.Lib

variable {α : Type u}

def chunk (p i : Nat) (l : List α) : List α := (l.drop (i * p)).take p

theorem chunk_getElem? (p i x : Nat) (l : List α) :
    (chunk p i l)[x]? = if x < p then l[i * p + x]? else none := by
  rw [chunk, List.getElem?_take, List.getElem?_drop]

theorem chunk_length {l : List α} (h : (i + 1) * p ≤ l.length) : (chunk p i l).length = p := by
  rw [Nat.add_mul, Nat.one_mul] at h
  rw [chunk, List.length_take, List.length_drop]
  omega

theorem chunk_succ (p i : Nat) (l : List α) : chunk p (i + 1) l = chunk p i (l.drop p) := by
  rw [chunk, chunk, List.drop_drop, Nat.add_mul, Nat.one_mul, Nat.add_comm]

theorem chunk_append_left {l : List α} (h : (i + 1) * p ≤ l.length) (r : List α) :
    chunk p i (l ++ r) = chunk p i l := by
  rw [Nat.add_mul, Nat.one_mul] at h
  ext1 x
  rw [chunk_getElem?, chunk_getElem?]
  split
  · rw [List.getElem?_append_left (by omega)]
  · rfl

theorem chunk_append_right {l : List α} (hl : l.length = n * p) (hi : n ≤ i) (r : List α) :
    chunk p i (l ++ r) = chunk p (i - n) r := by
  have hmul : i * p = n * p + (i - n) * p := by
    rw [← Nat.add_mul]
    congr 1
    omega
  ext1 x
  rw [chunk_getElem?, chunk_getElem?]
  split
  · rw [List.getElem?_append_right (by omega)]
    congr 1
    omega
  · rfl

theorem chunk_replicate (a : α) (h : (i + 1) * p ≤ n) :
    chunk p i (List.replicate n a) = List.replicate p a := by
  rw [Nat.add_mul, Nat.one_mul] at h
  rw [chunk, List.drop_replicate, List.take_replicate]
  congr 1
  omega

/-- A list of `n` chunks is the start of another one exactly when that one has
`n` chunks and each of them is the same. -/
theorem take_eq_iff_chunks {l r : List α} (hl : l.length = n * p) (hp : 0 < p) :
    r.take (n * p) = l ↔ n * p ≤ r.length ∧ ∀ i < n, chunk p i r = chunk p i l := by
  constructor
  · intro h
    have hlen : n * p ≤ r.length := by
      have := congrArg List.length h
      rw [List.length_take, hl] at this
      omega
    refine ⟨hlen, fun i hi => ?_⟩
    have hle : (i + 1) * p ≤ l.length := hl ▸ Nat.mul_le_mul_right p hi
    rw [← List.take_append_drop (n * p) r, h, chunk_append_left hle]
  · rintro ⟨hlen, hchunks⟩
    refine List.ext_getElem? fun x => ?_
    rw [List.getElem?_take]
    split
    · rename_i hx
      have hi : x / p < n := Nat.div_lt_of_lt_mul (by rwa [Nat.mul_comm])
      have hx' : x / p * p + x % p = x := by rw [Nat.mul_comm, Nat.div_add_mod]
      have := congrArg (getElem? · (x % p)) (hchunks (x / p) hi)
      simpa only [chunk_getElem?, Nat.mod_lt x hp, if_true, hx'] using this
    · rename_i hx
      rw [List.getElem?_eq_none (by omega)]

end EdgeLibos.Lib
