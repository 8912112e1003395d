import Mathlib.Data.List.Basic

/-!
# Self-delimiting frames

A stream of frames each of which says how long it is: `size` reads the length of the
frame at the front of a list, if enough of it is there. A list is made of whole frames
when following these lengths from its start ends exactly at its end.
-/

namespace EdgeLibos.Lib

variable {α : Type u} {size : List α → Option Nat} {f rest : List α} {fs : List (List α)}

/-- The frames of a list that is made of whole ones. -/
def frames (size : List α → Option Nat) (l : List α) : Option (List (List α)) :=
  if l = [] then some []
  else
    match size l with
    | none => none
    | some n =>
      if n = 0 ∨ l.length < n then none else (frames size (l.drop n)).map (l.take n :: ·)
termination_by l.length
decreasing_by
  rw [List.length_drop]
  omega

/-- A frame that says its length, whatever follows it. -/
structure Delimits (size : List α → Option Nat) (f : List α) : Prop where
  ne : f ≠ []
  size : ∀ rest, size (f ++ rest) = some f.length

theorem frames_nil : frames size ([] : List α) = some [] := by
  rw [frames, if_pos rfl]

theorem frames_append (h : Delimits size f) (rest : List α) :
    frames size (f ++ rest) = (frames size rest).map (f :: ·) := by
  have hpos := List.length_pos_iff.mpr h.ne
  have hlen : ¬ (f.length = 0 ∨ (f ++ rest).length < f.length) := by
    rw [List.length_append]
    omega
  rw [frames, if_neg (List.append_ne_nil_of_left_ne_nil h.ne rest), h.size rest]
  simp only
  rw [if_neg hlen, List.drop_left, List.take_left]

theorem frames_flatten (h : ∀ f ∈ fs, Delimits size f) : frames size fs.flatten = some fs := by
  induction fs with
  | nil => exact frames_nil
  | cons f fs ih =>
    rw [List.flatten_cons, frames_append (h f List.mem_cons_self),
      ih fun g hg => h g (List.mem_cons_of_mem f hg), Option.map_some]

def frameEnds (start : Nat) : List (List α) → List Nat
  | [] => []
  | f :: fs => (start + f.length) :: frameEnds (start + f.length) fs

end EdgeLibos.Lib
