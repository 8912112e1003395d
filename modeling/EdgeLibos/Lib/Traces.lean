import EdgeLibos.Lib.Runs

/-!
# Traces and refinement

A machine whose steps show something: `next : σ → α → Option (ω × σ)`. The trace of a
list of actions is what its steps show, in order. A relation between the states of two
machines that every step keeps while both show the same carries over to traces.
-/

namespace EdgeLibos.Lib

variable {σ : Type u} {τ : Type u'} {α : Type v} {ω : Type w}

def traceFrom (next : σ → α → Option (ω × σ)) (s : σ) : List α → Option (List ω × σ)
  | [] => some ([], s)
  | a :: rest =>
    (next s a).bind fun (o, s) => (traceFrom next s rest).map fun (os, s) => (o :: os, s)

/-- The machine without what it shows. -/
def silent (next : σ → α → Option (ω × σ)) (s : σ) (a : α) : Option σ := (next s a).map Prod.snd

theorem traceFrom_cons {next : σ → α → Option (ω × σ)} (h : next s a = some (o, s'))
    (hrest : traceFrom next s' rest = some (os, t)) :
    traceFrom next s (a :: rest) = some (o :: os, t) := by
  simp only [traceFrom, h, Option.bind_some, hrest, Option.map_some]

theorem traceFrom_cons_some {next : σ → α → Option (ω × σ)}
    (h : traceFrom next s (a :: rest) = some (os, t)) :
    ∃ o s' os', next s a = some (o, s') ∧ traceFrom next s' rest = some (os', t) ∧ os = o :: os' := by
  obtain ⟨⟨o, s'⟩, hnext, h⟩ := Option.bind_eq_some_iff.mp h
  obtain ⟨⟨os', t'⟩, hrest, h⟩ := Option.map_eq_some_iff.mp h
  cases h
  exact ⟨o, s', os', hnext, hrest, rfl⟩

/-- Every run of the first machine whose steps meet the condition is one of the second,
with the same trace. -/
theorem trace_refines {next : σ → α → Option (ω × σ)} {next' : τ → α → Option (ω × τ)}
    {ok : σ → α → Prop} {R : σ → τ → Prop}
    (hstep : ∀ s t a o s', R s t → ok s a → next s a = some (o, s') →
      ∃ t', next' t a = some (o, t') ∧ R s' t')
    (h : R s t) (hm : RunMeets (silent next) ok s acts)
    (hrun : traceFrom next s acts = some (os, s')) :
    ∃ t', traceFrom next' t acts = some (os, t') ∧ R s' t' := by
  induction acts generalizing s t os with
  | nil =>
    cases hrun
    exact ⟨t, rfl, h⟩
  | cons a rest ih =>
    obtain ⟨o, s₁, os', hnext, hrest, rfl⟩ := traceFrom_cons_some hrun
    obtain ⟨t₁, hnext', h₁⟩ := hstep s t a o s₁ h hm.1 hnext
    have hsilent : silent next s a = some s₁ := by rw [silent, hnext, Option.map_some]
    obtain ⟨t', hrest', h'⟩ := ih h₁ (hm.2 s₁ hsilent) hrest
    exact ⟨t', traceFrom_cons hnext' hrest', h'⟩

/-- What the steps show whose actions are kept. -/
def shownBy (keep : α → Bool) : List α → List ω → List ω
  | a :: acts, o :: os => if keep a then o :: shownBy keep acts os else shownBy keep acts os
  | _, _ => []

/-- Steps that are left out keep the relation, and the others show the same without them. -/
theorem trace_filter {next : σ → α → Option (ω × σ)} {ok : σ → α → Prop} {R : σ → σ → Prop} {keep : α → Bool}
    (hkept : ∀ s t a o s', R s t → ok s a → keep a = true → next s a = some (o, s') →
      ∃ t', next t a = some (o, t') ∧ R s' t')
    (hleft : ∀ s t a o s', R s t → ok s a → keep a = false → next s a = some (o, s') → R s' t)
    (h : R s t) (hm : RunMeets (silent next) ok s acts) (hrun : traceFrom next s acts = some (os, s')) :
    ∃ t', traceFrom next t (acts.filter keep) = some (shownBy keep acts os, t') ∧ R s' t' := by
  induction acts generalizing s t os with
  | nil =>
    cases hrun
    exact ⟨t, rfl, h⟩
  | cons a rest ih =>
    obtain ⟨o, s₁, os', hnext, hrest, rfl⟩ := traceFrom_cons_some hrun
    have hsilent : silent next s a = some s₁ := by rw [silent, hnext, Option.map_some]
    cases hkeep : keep a with
    | true =>
      obtain ⟨t₁, hnext', h₁⟩ := hkept s t a o s₁ h hm.1 hkeep hnext
      obtain ⟨t', hrest', h'⟩ := ih h₁ (hm.2 s₁ hsilent) hrest
      refine ⟨t', ?_, h'⟩
      rw [shownBy, if_pos hkeep, List.filter_cons_of_pos hkeep]
      exact traceFrom_cons hnext' hrest'
    | false =>
      obtain ⟨t', hrest', h'⟩ := ih (hleft s t a o s₁ h hm.1 hkeep hnext) (hm.2 s₁ hsilent) hrest
      refine ⟨t', ?_, h'⟩
      have hskip : ¬ keep a = true := by simp [hkeep]
      rw [shownBy, if_neg hskip, List.filter_cons_of_neg hskip]
      exact hrest'

end EdgeLibos.Lib
