import Minikura.Concurrency.RelyGuarantee

/-!
# Asynchronous computations that may throw

Every call either answers or fails, and a computation stops at the first failure
it does not catch. `allSettled` starts its computations together and waits for all of them.

## Main definitions

* `Async` — the monad; `await` makes one call, `attempt` catches.
* `Async.allSettled`, `Async.bothSettled` — concurrent computations.
* `Async.eval` — the outcome against a function that settles every call.
-/

namespace Minikura.Concurrency

variable {C : Type} {T : C → Type} {ε α β σ : Type}

/-- What a call is answered with. -/
abbrev Settled (ε : Type) (T : C → Type) (c : C) : Type := Except ε (T c)

abbrev Async (ε : Type) (T : C → Type) (α : Type) : Type :=
  ExceptT ε (Prog C (Settled ε T)) α

namespace Async

/-- Make one call and wait for its answer. -/
def await (c : C) : Async ε T (T c) := ExceptT.mk (Prog.lift c)

/-- Run to the end and hand over the outcome, thrown or not. -/
def attempt (p : Async ε T α) : Async ε T (Except ε α) :=
  ExceptT.mk (p.run.bind fun r => .pure (.ok r))

/-- Start all, wait for all, and collect every outcome. -/
def allSettled (ps : List (Async ε T α)) : Async ε T (List (Except ε α)) :=
  ExceptT.mk ((Prog.allSettled (ps.map ExceptT.run)).bind fun rs => .pure (.ok rs))

/-- The failures among the outcomes. -/
def failures (rs : List (Except ε α)) : List ε :=
  rs.filterMap fun r => match r with
    | .ok _ => none
    | .error e => some e

/-- Start both, wait for both, and hand over both outcomes. -/
def bothSettled (p : Async ε T α) (q : Async ε T β) :
    Async ε T (Except ε α × Except ε β) :=
  ExceptT.mk ((p.run.par q.run).bind fun x => .pure (.ok x))

@[simp] theorem run_attempt (p : Async ε T α) :
    p.attempt.run = p.run.bind fun r => .pure (.ok r) := rfl

@[simp] theorem run_bind (p : Async ε T α) (f : α → Async ε T β) :
    (p >>= f).run = p.run.bind fun
      | .ok a => (f a).run
      | .error e => .pure (.error e) := by
  rw [ExceptT.run_bind]
  rfl

@[simp] theorem run_pure (a : α) : (pure a : Async ε T α).run = .pure (.ok a) := rfl

@[simp] theorem run_throw (e : ε) : (throw e : Async ε T α).run = .pure (.error e) := rfl

/-- Settle every call in turn. -/
def eval (h : (c : C) → σ → Except ε (T c) × σ) (p : Async ε T α) (s : σ) : Except ε α × σ :=
  Prog.eval h p.run s

section Eval

variable {h : (c : C) → σ → Except ε (T c) × σ}

@[simp] theorem eval_pure (a : α) (s : σ) : eval h (pure a : Async ε T α) s = (.ok a, s) := rfl

@[simp] theorem eval_throw (e : ε) (s : σ) :
    eval h (throw e : Async ε T α) s = (.error e, s) := rfl

@[simp] theorem eval_await (c : C) (s : σ) : eval h (await c : Async ε T (T c)) s = h c s := rfl

@[simp] theorem eval_bind (p : Async ε T α) (f : α → Async ε T β) (s : σ) :
    eval h (p >>= f) s = match eval h p s with
      | (.ok a, t) => eval h (f a) t
      | (.error e, t) => (.error e, t) := by
  rw [eval, run_bind, Prog.eval_bind]
  cases hr : Prog.eval h p.run s with
  | mk r t => cases r <;> simp [eval, hr]

@[simp] theorem eval_attempt (p : Async ε T α) (s : σ) :
    eval h p.attempt s = (.ok (eval h p s).1, (eval h p s).2) := by
  rw [eval, run_attempt, Prog.eval_bind]
  rfl

end Eval

theorem failures_eq_nil_iff {rs : List (Except ε α)} :
    failures rs = [] ↔ ∀ r ∈ rs, ∃ a, r = .ok a := by
  rw [failures, List.filterMap_eq_nil_iff]
  refine forall₂_congr fun r _ => ?_
  cases r <;> simp

end Async

variable {R : C → Type} {H : Handler C R σ} {K : Contract C σ}

/-! ## Rules for a single step -/

/-- A call from a condition the others keep. -/
theorem wp_call {c : C} {k : R c → Prog C R α} {Q : α → σ → Prop} {s : σ} (P : σ → Prop)
    (hP : P s) (stable : ∀ s s', P s → K.rely s s' → P s')
    (h : ∀ s r s', P s → H c s r s' → K.guar c s s' ∧ wp H K (k r) Q s') :
    wp H K (.call c k) Q s :=
  fun _ ht _ _ hu => h _ _ _ (stable _ _ hP ht) hu

/-- The end of a program, with a postcondition the others keep. -/
theorem wp_pure {a : α} {Q : α → σ → Prop} {s : σ} (hQ : Q a s)
    (stable : ∀ s s', Q a s → K.rely s s' → Q a s') : wp H K (.pure a) Q s :=
  fun _ ht => stable _ _ hQ ht

/-- What follows a computation has to start from whatever the computation ends in,
and a failure ends the whole. -/
theorem wp_async_bind {H : Handler C (Settled ε T) σ} {p : Async ε T α}
    {f : α → Async ε T β} {Q : Except ε β → σ → Prop} {s : σ}
    (h : wp H K p.run (fun r s => match r with
      | .ok a => wp H K (f a).run Q s
      | .error e => wp H K (.pure (.error e)) Q s) s) :
    wp H K (p >>= f).run Q s := by
  rw [Async.run_bind, wp_bind]
  refine wp_mono h fun r s hr => ?_
  cases r <;> exact hr

/-- A loop that stops at the first failure, with an invariant of what it has done. -/
theorem wp_forM {ι : Type} {H : Handler C (Settled ε T) σ} {f : ι → Async ε T Unit}
    (P : List ι → σ → Prop) (E : σ → Prop) {l : List ι} (done : List ι) {s : σ} (h : P done s)
    (stableP : ∀ done s s', P done s → K.rely s s' → P done s')
    (stableE : ∀ s s', E s → K.rely s s' → E s')
    (step : ∀ done s, ∀ i ∈ l, P done s → wp H K (f i).run (fun r s => match r with
      | .ok _ => P (i :: done) s
      | .error _ => E s) s) :
    wp H K (l.forM f).run (fun r s => match r with
      | .ok _ => P (l.reverse ++ done) s
      | .error _ => E s) s := by
  induction l generalizing done s with
  | nil => exact fun t ht => stableP done s t h ht
  | cons i l ih =>
    refine wp_async_bind (wp_mono (step done s i (List.mem_cons_self ..) h) fun r t ht => ?_)
    cases r with
    | error e => exact fun u hu => stableE t u ht hu
    | ok _ =>
      rw [List.reverse_cons, List.append_assoc]
      exact ih _ ht fun done s j hj => step done s j (List.mem_cons_of_mem i hj)

end Minikura.Concurrency
