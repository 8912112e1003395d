/-!
# Runs of a transition function

A state machine is a transition function `next : σ → α → Option σ`, where
`none` says that the action is not enabled. `Reaches next ok s₀ s` says that a
run leads from `s₀` to `s`, every step of which meets the condition `ok` on the
state before it; `Reaches next (fun _ _ => True)` are all runs.

A single step is often a chain of fallible computations; `bind_ok` takes one that
succeeded apart.
-/

namespace EdgeLibos.Lib

theorem bind_ok {x : Except ε α} {f : α → Except ε β} (h : (x >>= f) = .ok r) :
    ∃ a, x = .ok a ∧ f a = .ok r := by
  cases x with
  | error e => cases h
  | ok a => exact ⟨a, rfl, h⟩

theorem bind_error {x : Except ε α} {f : α → Except ε β} (h : (x >>= f) = .error e) :
    x = .error e ∨ ∃ a, x = .ok a ∧ f a = .error e := by
  cases x with
  | error e' =>
    cases h
    exact .inl rfl
  | ok a => exact .inr ⟨a, rfl, h⟩

variable {σ : Type u} {α : Type v} {next : σ → α → Option σ} {ok : σ → α → Prop} {s₀ : σ}

inductive Reaches (next : σ → α → Option σ) (ok : σ → α → Prop) (s₀ : σ) : σ → Prop
  | start : Reaches next ok s₀ s₀
  | step {s s' : σ} {a : α} : Reaches next ok s₀ s → ok s a → next s a = some s' →
      Reaches next ok s₀ s'

/-- What holds at the start and is kept by every step that meets the
condition holds in every state reached. -/
theorem Reaches.invariant {I : σ → Prop} (h : Reaches next ok s₀ s) (h₀ : I s₀)
    (hstep : ∀ s a s', I s → ok s a → next s a = some s' → I s') : I s := by
  induction h with
  | start => exact h₀
  | step _ hok hnext ih => exact hstep _ _ _ ih hok hnext

theorem Reaches.mono {ok' : σ → α → Prop} (h : Reaches next ok s₀ s) (hok : ∀ s a, ok s a → ok' s a) :
    Reaches next ok' s₀ s := by
  induction h with
  | start => exact .start
  | step _ hs hnext ih => exact .step ih (hok _ _ hs) hnext

def runFrom (next : σ → α → Option σ) (s : σ) : List α → Option σ
  | [] => some s
  | a :: rest => (next s a).bind fun s' => runFrom next s' rest

theorem runFrom_cons (h : next s a = some s') : runFrom next s (a :: rest) = runFrom next s' rest := by
  rw [runFrom, h, Option.bind_some]

def RunMeets (next : σ → α → Option σ) (ok : σ → α → Prop) (s : σ) : List α → Prop
  | [] => True
  | a :: rest => ok s a ∧ ∀ s', next s a = some s' → RunMeets next ok s' rest

instance RunMeets.decidable [∀ s a, Decidable (ok s a)] :
    (s : σ) → (acts : List α) → Decidable (RunMeets next ok s acts)
  | _, [] => isTrue trivial
  | s, a :: rest =>
    match h : next s a with
    | none => decidable_of_iff (ok s a) ⟨fun hok => ⟨hok, by simp [h]⟩, And.left⟩
    | some s' =>
      have := RunMeets.decidable s' rest
      decidable_of_iff (ok s a ∧ RunMeets next ok s' rest)
        ⟨fun hm => ⟨hm.1, fun _ hs => Option.some.inj (h.symm.trans hs) ▸ hm.2⟩,
          fun hm => ⟨hm.1, hm.2 s' h⟩⟩

theorem runMeets_of_forall (h : ∀ s a, ok s a) : RunMeets next ok s acts := by
  induction acts generalizing s with
  | nil => trivial
  | cons a rest ih => exact ⟨h s a, fun _ _ => ih⟩

theorem Reaches.runFrom (hs : Reaches next ok s₀ s) (hm : RunMeets next ok s acts)
    (h : runFrom next s acts = some s') : Reaches next ok s₀ s' := by
  induction acts generalizing s with
  | nil =>
    obtain rfl := Option.some.inj h
    exact hs
  | cons a rest ih =>
    obtain ⟨s₁, h₁, h⟩ := Option.bind_eq_some_iff.mp h
    exact ih (.step hs hm.1 h₁) (hm.2 s₁ h₁) h

end EdgeLibos.Lib
