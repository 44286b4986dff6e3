import Mathlib
import Minikura.Data.TwoRuns

/-!
# What a program preserves

A program with state that may throw preserves a property if it has it again when it returns and
when it throws. What is thrown undoes nothing, so each step has to preserve it by itself.
These are triples of the standard library, so that its verification conditions apply.

## Main definitions

* `Preserves`, `PreservesWith` — the triples, without and with what is known of the value returned.

## Main results

* `Preserves.bind`, `Preserves.map` — how the property is put together.
* `exec_preservesWith`, `exec_preserves` — from a triple to a run.
* `respondAll_preserves` — one program after another.
-/

set_option mvcgen.warning false

namespace Minikura
open Std.Do

variable {ε σ α β : Type} {I : σ → Prop} {p : Stateful ε σ α}

abbrev PreservesWith (I : σ → Prop) (p : Stateful ε σ α) (Q : α → σ → Prop) : Prop :=
  ⦃fun s => ⌜I s⌝⦄ p ⦃post⟨fun a s => ⌜I s ∧ Q a s⌝, fun _ s => ⌜I s⌝⟩⦄

abbrev Preserves (I : σ → Prop) (p : Stateful ε σ α) : Prop :=
  ⦃fun s => ⌜I s⌝⦄ p ⦃post⟨fun _ s => ⌜I s⌝, fun _ s => ⌜I s⌝⟩⦄

theorem exec_preservesWith {Q : α → σ → Prop} (h : PreservesWith I p Q) {s : σ} (hs : I s) :
    I (p.exec s).2 ∧ ∀ a, (p.exec s).1 = .ok a → Q a (p.exec s).2 := by
  have hrun := Triple.iff.mp h s hs
  simp only [wp, PredTrans.apply, PredTrans.pushExcept, PredTrans.pushArg, Id.run] at hrun
  rcases hx : p.exec s with ⟨r, t⟩
  have hexec : StateT.run (ExceptT.run p) s = (r, t) := hx
  rw [StateT.run, hexec] at hrun
  cases r with
  | ok a =>
    refine ⟨hrun.1, fun b hb => ?_⟩
    obtain rfl := Except.ok.inj hb
    exact hrun.2
  | error e =>
    refine ⟨hrun, fun b hb => ?_⟩
    cases hb

theorem Preserves.bind {Q : α → Prop} {f : α → Stateful ε σ β}
    (hp : PreservesWith I p fun a _ => Q a) (hf : ∀ a, Q a → Preserves I (f a)) :
    Preserves I (p >>= f) := by
  mvcgen [hp, hf]
  all_goals grind

theorem Preserves.map (h : Preserves I p) (f : α → β) : Preserves I (do return f (← p)) := by
  mvcgen [h]

theorem Preserves.with (h : Preserves I p) : PreservesWith I p fun _ _ => True := by
  mvcgen [h]
  exact id

theorem exec_preserves (h : Preserves I p) {s : σ} (hs : I s) : I (p.exec s).2 :=
  (exec_preservesWith h.with hs).1

/-- A run of programs one after another preserves what each of them preserves. -/
theorem respondAll_preserves {respond : Except ε α → β} {ps : List (Stateful ε σ α)}
    (h : ∀ p ∈ ps, Preserves I p) {s : σ} (hs : I s) : I (respondAll respond ps s).2 := by
  induction ps generalizing s with
  | nil => exact hs
  | cons p ps ih =>
    have hnext := exec_preserves (h p (List.mem_cons_self ..)) hs
    exact ih (fun q hq => h q (List.mem_cons_of_mem _ hq)) hnext

end Minikura
