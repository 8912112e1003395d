/-!
# Mapped values

Values at addresses. A range is mapped with its contents where nothing is mapped, and stored to
or unmapped where all of it is. A store `shows` what is mapped when it has the same values there,
whatever it has elsewhere.
-/

namespace EdgeLibos.Lib

abbrev Mapped (α : Type u) := Nat → Option α

namespace Mapped

variable {α : Type u}

inductive Event (α : Type u)
  | map (start : Nat) (contents : List α)
  | unmap (start len : Nat)
  | store (start : Nat) (contents : List α)

def empty : Mapped α := fun _ => none

def write (m : Mapped α) (start : Nat) (new : List α) : Mapped α := fun i =>
  if start ≤ i ∧ i < start + new.length then new[i - start]? else m i

def erase (m : Mapped α) (start len : Nat) : Mapped α := fun i =>
  if start ≤ i ∧ i < start + len then none else m i

def Free (m : Mapped α) (start len : Nat) : Prop := ∀ i < len, (m (start + i)).isNone

def Held (m : Mapped α) (start len : Nat) : Prop := ∀ i < len, (m (start + i)).isSome

instance (m : Mapped α) (start len : Nat) : Decidable (m.Free start len) :=
  inferInstanceAs (Decidable (∀ i < len, _))

instance (m : Mapped α) (start len : Nat) : Decidable (m.Held start len) :=
  inferInstanceAs (Decidable (∀ i < len, _))

/-- Nothing that is mapped is mapped again, and only what is mapped is stored to or unmapped. -/
def take (m : Mapped α) : Event α → Option (Mapped α)
  | .map start contents => if m.Free start contents.length then some (m.write start contents) else none
  | .unmap start len => if m.Held start len then some (m.erase start len) else none
  | .store start contents => if m.Held start contents.length then some (m.write start contents) else none

def Shown (m f : Mapped α) : Prop := ∀ i v, m i = some v → f i = some v

section
variable {m f g : Mapped α} {start len i : Nat} {new : List α}

theorem held_iff : m.Held start len ↔ ∀ i, start ≤ i → i < start + len → (m i).isSome := by
  constructor
  · intro h i hlow hhigh
    have := h (i - start) (by omega)
    rwa [Nat.add_sub_cancel' hlow] at this
  · intro h i hi
    exact h (start + i) (Nat.le_add_right ..) (by omega)

theorem free_iff : m.Free start len ↔ ∀ i, start ≤ i → i < start + len → m i = none := by
  constructor
  · intro h i hlow hhigh
    have := h (i - start) (by omega)
    rwa [Nat.add_sub_cancel' hlow, Option.isNone_iff_eq_none] at this
  · intro h i hi
    simp [h (start + i) (Nat.le_add_right ..) (by omega)]

theorem write_of_not_mem (h : ¬ (start ≤ i ∧ i < start + new.length)) : m.write start new i = m i := if_neg h

theorem isSome_write (h : (m.write start new i).isSome) : (m i).isSome ∨ (start ≤ i ∧ i < start + new.length) := by
  unfold write at h
  split at h
  · rename_i hin
    exact .inr hin
  · exact .inl h

theorem isSome_erase (h : (m.erase start len i).isSome) : (m i).isSome ∧ ¬ (start ≤ i ∧ i < start + len) := by
  unfold erase at h
  split at h
  · cases h
  · rename_i hout
    exact ⟨h, hout⟩

theorem take_map (h : m.Free start new.length) : m.take (.map start new) = some (m.write start new) := if_pos h

theorem take_unmap (h : m.Held start len) : m.take (.unmap start len) = some (m.erase start len) := if_pos h

theorem take_store (h : m.Held start new.length) : m.take (.store start new) = some (m.write start new) := if_pos h

theorem empty_shown : Shown empty f := by
  intro i v h
  cases h

theorem Shown.trans (h : Shown m f) (h' : Shown f g) : Shown m g := fun i v hv => h' i v (h i v hv)

theorem Shown.write (h : Shown m f) (start : Nat) (new : List α) :
    Shown (m.write start new) (f.write start new) := by
  intro i v hv
  unfold Mapped.write at hv ⊢
  split
  · rename_i hin
    rwa [if_pos hin] at hv
  · rename_i hout
    rw [if_neg hout] at hv
    exact h i v hv

/-- A range can be mapped with what `f` has there. -/
theorem Shown.write_left (h : Shown m f) (hnew : ∀ i, start ≤ i → i < start + new.length → f i = new[i - start]?) :
    Shown (m.write start new) f := by
  intro i v hv
  unfold Mapped.write at hv
  split at hv
  · rename_i hin
    rw [hnew i hin.1 hin.2, hv]
  · exact h i v hv

theorem Shown.erase (h : Shown m f) (start len : Nat) : Shown (m.erase start len) f := by
  intro i v hv
  unfold Mapped.erase at hv
  split at hv
  · cases hv
  · exact h i v hv

end

end Mapped

end EdgeLibos.Lib
