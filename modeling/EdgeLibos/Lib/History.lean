import EdgeLibos.Lib.Runs

/-!
# What a run has done

The events of a run, in order. An abstract machine may follow a view of the state: where it
takes the events of every step, it takes those of a run.
-/

namespace EdgeLibos.Lib

variable {σ : Type u} {α : Type v} {ε : Type w} {β : Type x} {next : σ → α → Option σ}
  {events : σ → α → List ε} {view : σ → β} {take : β → ε → Option β}

def history (next : σ → α → Option σ) (events : σ → α → List ε) (s : σ) : List α → List ε
  | [] => []
  | a :: rest => events s a ++ (next s a).elim [] fun s' => history next events s' rest

theorem history_cons (h : next s a = some s') (rest : List α) :
    history next events s (a :: rest) = events s a ++ history next events s' rest := by
  simp [history, h]

/-- A machine that takes the events of every step from a state of the invariant takes those of
a run. -/
theorem history_taken_of {I : σ → Prop} (h₀ : I s) (hkeep : ∀ s a s', I s → next s a = some s' → I s')
    (hstep : ∀ s a s', I s → next s a = some s' → (events s a).foldlM take (view s) = some (view s'))
    (h : runFrom next s acts = some s') : (history next events s acts).foldlM take (view s) = some (view s') := by
  induction acts generalizing s with
  | nil =>
    cases h
    rfl
  | cons a rest ih =>
    obtain ⟨s₁, h₁, h⟩ := Option.bind_eq_some_iff.mp h
    rw [history_cons h₁, List.foldlM_append, hstep s a s₁ h₀ h₁]
    exact ih (hkeep s a s₁ h₀ h₁) h

theorem history_taken
    (hstep : ∀ s a s', next s a = some s' → (events s a).foldlM take (view s) = some (view s'))
    (h : runFrom next s acts = some s') : (history next events s acts).foldlM take (view s) = some (view s') :=
  history_taken_of (I := fun _ => True) trivial (fun _ _ _ _ _ => trivial) (fun s a s' _ => hstep s a s') h

/-- A system and a machine that takes the events of its steps; where the machine does not take
them, the step is not enabled. -/
def follow (next : σ → α → Option σ) (events : σ → α → List ε) (take : β → ε → Option β) (p : β × σ) (a : α) :
    Option (β × σ) :=
  (next p.2 a).bind fun s' => ((events p.2 a).foldlM take p.1).map fun b' => (b', s')

theorem follow_eq_some {p p' : β × σ} : follow next events take p a = some p' ↔
    next p.2 a = some p'.2 ∧ (events p.2 a).foldlM take p.1 = some p'.1 := by
  simp only [follow, Option.bind_eq_some_iff, Option.map_eq_some_iff, Prod.ext_iff]
  constructor
  · rintro ⟨s', hs, b', hb, rfl, rfl⟩
    exact ⟨hs, hb⟩
  · rintro ⟨hs, hb⟩
    exact ⟨p'.2, hs, p'.1, hb, rfl, rfl⟩

end EdgeLibos.Lib
