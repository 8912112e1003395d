/-!
# Requests to a host

A computation that asks its host for something, gets an answer and goes on from
there. `Every P` says that `P` holds of each request it can make, whatever the host
answers; `perform` runs it against a host with a state of its own.
-/

namespace EdgeLibos.Lib

inductive Requests (ρ : Type u) (α : Type v)
  | done
  | ask (request : ρ) (next : α → Requests ρ α)

namespace Requests

def last (r : ρ) : Requests ρ α := .ask r fun _ => .done

def Every (P : ρ → Prop) : Requests ρ α → Prop
  | .done => True
  | .ask r next => P r ∧ ∀ a, (next a).Every P

def perform (serve : σ → ρ → α × σ) (s : σ) : Requests ρ α → σ
  | .done => s
  | .ask r next => (next (serve s r).1).perform serve (serve s r).2

theorem every_done : (done : Requests ρ α).Every P := trivial

theorem every_last {r : ρ} : (last r : Requests ρ α).Every P ↔ P r :=
  ⟨fun h => h.1, fun h => ⟨h, fun _ => trivial⟩⟩

theorem every_ask_iff {r : ρ} {next : α → Requests ρ α} (h : P r → ∀ a, (next a).Every P) :
    (ask r next).Every P ↔ P r :=
  ⟨fun hall => hall.1, fun hr => ⟨hr, h hr⟩⟩

end Requests

end EdgeLibos.Lib
