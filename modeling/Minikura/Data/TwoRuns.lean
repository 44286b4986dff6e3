import Mathlib.Logic.Relation

/-!
# Two runs of one program

A program with state that may throw is run from two states that are alike. If it asks
for nothing in which they differ, both runs end the same way and in states that are alike
again. What is read may differ on the way, as long as the outcome does not depend on it.

## Main definitions

* `Stateful` — programs over a state; what is thrown undoes nothing.
* `TwoRuns` — two programs from states that are alike, with outcomes that are alike.

## Main results

* `TwoRuns.bind`, `TwoRuns.get` — how the property is put together.
* `respondAll_eq` — the responses of a list of programs, each run from where the last one stopped.
-/

namespace Minikura

variable {ε σ α β : Type}

abbrev Stateful (ε σ α : Type) : Type := ExceptT ε (StateM σ) α

namespace Stateful

def exec (p : Stateful ε σ α) (s : σ) : Except ε α × σ := p.run.run s

@[simp] theorem exec_pure (a : α) (s : σ) : (pure a : Stateful ε σ α).exec s = (.ok a, s) := rfl

@[simp] theorem exec_throw (e : ε) (s : σ) :
    (throw e : Stateful ε σ α).exec s = (.error e, s) := rfl

@[simp] theorem exec_get (s : σ) : (get : Stateful ε σ σ).exec s = (.ok s, s) := rfl

@[simp] theorem exec_bind (p : Stateful ε σ α) (f : α → Stateful ε σ β) (s : σ) :
    (p >>= f).exec s = match p.exec s with
      | (.ok a, t) => (f a).exec t
      | (.error e, t) => (.error e, t) := by
  rcases hx : p.exec s with ⟨r, t⟩
  have hrun : StateT.run (ExceptT.run p) s = (pure (r, t) : Id _) := hx
  rw [exec, ExceptT.run_bind, StateT.run_bind, hrun]
  cases r <;> rfl

end Stateful

/-- Both outcomes are errors and the same, or values that are alike. -/
inductive Alike (Q : α → α → Prop) : Except ε α → Except ε α → Prop where
  | ok {a b : α} (h : Q a b) : Alike Q (.ok a) (.ok b)
  | error (e : ε) : Alike Q (.error e) (.error e)

theorem Alike.eq {r r' : Except ε α} (h : Alike Eq r r') : r = r' := by
  cases h with
  | ok h => rw [h]
  | error e => rfl

/-- From states that are alike: outcomes and states that are alike. -/
def TwoRuns (R : σ → σ → Prop) (Q : α → α → Prop) (p q : Stateful ε σ α) : Prop :=
  ∀ s t, R s t → Alike Q (p.exec s).1 (q.exec t).1 ∧ R (p.exec s).2 (q.exec t).2

namespace TwoRuns

variable {R : σ → σ → Prop} {Q : α → α → Prop} {p q : Stateful ε σ α}

protected theorem pure {a b : α} (h : Q a b) : TwoRuns R Q (pure a : Stateful ε σ α) (pure b) :=
  fun _ _ hst => ⟨.ok h, hst⟩

protected theorem throw (e : ε) : TwoRuns R Q (throw e : Stateful ε σ α) (throw e) :=
  fun _ _ hst => ⟨.error e, hst⟩

protected theorem get : TwoRuns R R (get : Stateful ε σ σ) get :=
  fun _ _ hst => ⟨.ok hst, hst⟩

protected theorem bind {Q' : β → β → Prop} {f g : α → Stateful ε σ β} (hp : TwoRuns R Q p q)
    (hf : ∀ a b, Q a b → TwoRuns R Q' (f a) (g b)) : TwoRuns R Q' (p >>= f) (q >>= g) := by
  intro s t hst
  obtain ⟨hr, hst'⟩ := hp s t hst
  rw [Stateful.exec_bind, Stateful.exec_bind]
  rcases hx : p.exec s with ⟨r, s'⟩
  rcases hy : q.exec t with ⟨r', t'⟩
  rw [hx, hy] at hr hst'
  cases hr with
  | ok h => exact hf _ _ h s' t' hst'
  | error e => exact ⟨.error e, hst'⟩

/-- What is thrown first is all that counts. -/
theorem throw_bind {Q' : β → β → Prop} (e : ε) (f g : α → Stateful ε σ β) :
    TwoRuns R Q' ((throw e : Stateful ε σ α) >>= f) (throw e >>= g) :=
  fun _ _ hst => ⟨.error e, hst⟩

end TwoRuns

/-- Run the programs in turn, and collect the responses. -/
def respondAll (respond : Except ε α → β) : List (Stateful ε σ α) → σ → List β × σ
  | [], s => ([], s)
  | p :: ps, s =>
    let (r, t) := p.exec s
    let (responses, u) := respondAll respond ps t
    (respond r :: responses, u)

theorem respondAll_eq {R : σ → σ → Prop} {respond : Except ε α → β} {ps : List (Stateful ε σ α)}
    (h : ∀ p ∈ ps, TwoRuns R Eq p p) {s t : σ} (hst : R s t) :
    (respondAll respond ps s).1 = (respondAll respond ps t).1 ∧
      R (respondAll respond ps s).2 (respondAll respond ps t).2 := by
  induction ps generalizing s t with
  | nil => exact ⟨rfl, hst⟩
  | cons p ps ih =>
    obtain ⟨hr, hst'⟩ := h p (by simp) s t hst
    obtain ⟨hresponses, hst''⟩ := ih (fun q hq => h q (by simp [hq])) hst'
    simp only [respondAll]
    exact ⟨by rw [hr.eq, hresponses], hst''⟩

end Minikura
