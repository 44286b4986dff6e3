import Mathlib.Data.List.Basic
import Minikura.Data.TwoRuns

/-!
# Inputs without effect

A machine answers inputs one after another, and some of them are privileged in the state that
they find. Where no other input changes the state, the privileged ones alone bring the machine
into the same state, with the same answers.

## Main definitions

* `serveAll` — the inputs with their answers, and the state in the end.
* `purge` — the inputs that were privileged when they came.
* `ReadOnly` — programs over a state that leave it as it is.

## Main results

* `serveAll_purge` — the privileged inputs alone.
* `serveAll_induction` — what every privileged input keeps, every run keeps.
-/

namespace Minikura.Purge

variable {σ ι ο : Type} {step : σ → ι → ο × σ} {privileged : σ → ι → Bool}

/-- An input and its answer. -/
structure Served (ι ο : Type) where
  input : ι
  privileged : Bool
  answer : ο

def serveAll (step : σ → ι → ο × σ) (privileged : σ → ι → Bool) :
    List ι → σ → List (Served ι ο) × σ
  | [], s => ([], s)
  | i :: is, s =>
    let (answer, t) := step s i
    let (served, u) := serveAll step privileged is t
    (⟨i, privileged s i, answer⟩ :: served, u)

/-- The inputs that were privileged when they came. -/
def purge (served : List (Served ι ο)) : List ι := (served.filter (·.privileged)).map (·.input)

theorem serveAll_cons (i : ι) (is : List ι) (s : σ) : serveAll step privileged (i :: is) s =
    (⟨i, privileged s i, (step s i).1⟩ :: (serveAll step privileged is (step s i).2).1,
      (serveAll step privileged is (step s i).2).2) := rfl

@[simp] theorem map_input_serveAll (is : List ι) (s : σ) :
    (serveAll step privileged is s).1.map (·.input) = is := by
  induction is generalizing s with
  | nil => rfl
  | cons i is ih => rw [serveAll_cons, List.map_cons, ih]

/-- No other input than a privileged one changes the state. -/
def Guarded (step : σ → ι → ο × σ) (privileged : σ → ι → Bool) : Prop :=
  ∀ s i, privileged s i = false → (step s i).2 = s

theorem serveAll_purge (h : Guarded step privileged) (is : List ι) (s : σ) :
    serveAll step privileged (purge (serveAll step privileged is s).1) s =
      ((serveAll step privileged is s).1.filter (·.privileged),
        (serveAll step privileged is s).2) := by
  induction is generalizing s with
  | nil => rfl
  | cons i is ih =>
    rw [serveAll_cons, purge, List.filter_cons]
    cases hi : privileged s i with
    | true =>
      have hrest := ih (step s i).2
      rw [purge] at hrest
      rw [if_pos rfl, List.map_cons, serveAll_cons, hrest, hi]
    | false =>
      have hrest := ih s
      rw [purge] at hrest
      rw [if_neg Bool.false_ne_true, h s i hi, hrest]

/-- What holds of every input that may come holds of all that were served. -/
theorem forall_served {P : Served ι ο → Prop}
    (h : ∀ s i, P ⟨i, privileged s i, (step s i).1⟩) (is : List ι) (s : σ) :
    ∀ e ∈ (serveAll step privileged is s).1, P e := by
  induction is generalizing s with
  | nil => intro e he; cases he
  | cons i is ih =>
    intro e he
    rw [serveAll_cons] at he
    rcases List.mem_cons.mp he with rfl | he
    · exact h s i
    · exact ih _ e he

/-- In a run in which something is known of every privileged input, what these inputs keep is
kept. -/
theorem serveAll_induction {Q : ι → Prop} {I : σ → Prop} (h : Guarded step privileged)
    (hstep : ∀ s i, privileged s i = true → Q i → I s → I (step s i).2) {is : List ι} {s : σ}
    (hs : I s) (hQ : ∀ e ∈ (serveAll step privileged is s).1, e.privileged = true → Q e.input) :
    I (serveAll step privileged is s).2 := by
  induction is generalizing s with
  | nil => exact hs
  | cons i is ih =>
    rw [serveAll_cons] at hQ ⊢
    have hnext : I (step s i).2 := by
      cases hi : privileged s i with
      | true => exact hstep s i hi (hQ _ (List.mem_cons_self ..) hi) hs
      | false =>
        rw [h s i hi]
        exact hs
    exact ih hnext fun e he => hQ e (List.mem_cons_of_mem _ he)

/-! ## Programs that only read -/

def ReadOnly {ε α : Type} (p : Stateful ε σ α) : Prop := ∀ s, (p.exec s).2 = s

namespace ReadOnly

variable {ε α β : Type} {p : Stateful ε σ α} {f : α → Stateful ε σ β}

protected theorem pure (a : α) : ReadOnly (pure a : Stateful ε σ α) := fun _ => rfl

protected theorem throw (e : ε) : ReadOnly (throw e : Stateful ε σ α) := fun _ => rfl

protected theorem get : ReadOnly (get : Stateful ε σ σ) := fun _ => rfl

protected theorem bind (hp : ReadOnly p) (hf : ∀ a, ReadOnly (f a)) : ReadOnly (p >>= f) := by
  intro s
  have hs := hp s
  rw [Stateful.exec_bind]
  rcases hx : p.exec s with ⟨r, t⟩
  rw [hx] at hs
  subst hs
  cases r with
  | ok a => exact hf a t
  | error e => rfl

end ReadOnly
end Minikura.Purge
