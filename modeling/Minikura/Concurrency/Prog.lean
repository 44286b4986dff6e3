import Mathlib.Logic.Relation

/-!
# Programs of atomic calls

A program is a tree: a call to the outside waits for an answer, and a `choose`
node leaves the next step to the scheduler. Everything between two calls is pure,
so a call is the unit of interleaving. Parallel composition is a function on
programs: it offers the scheduler every order of the calls of both sides.

## Main definitions

* `Prog` — programs over an interface of calls, with their monad structure.
* `Prog.par`, `Prog.allSettled` — all interleavings of two programs, of a list.
* `Step`, `Steps` — runs of a program against a handler and an environment.
* `Prog.runTurns` — the run picked by an explicit list of scheduler turns.
* `Prog.eval` — the run against a function that answers every call.
-/

namespace Minikura.Concurrency

/-- A program over calls `c : C`, each answered by a value of `R c`. -/
inductive Prog (C : Type) (R : C → Type) (α : Type) where
  | pure (a : α)
  | call (c : C) (k : R c → Prog C R α)
  | choose (p q : Prog C R α)

variable {C : Type} {R : C → Type} {α β γ σ : Type}

namespace Prog

def bind : Prog C R α → (α → Prog C R β) → Prog C R β
  | .pure a, f => f a
  | .call c k, f => .call c fun r => (k r).bind f
  | .choose p q, f => .choose (p.bind f) (q.bind f)

instance : Monad (Prog C R) where
  pure := .pure
  bind := bind

/-- The program that performs one call and returns its answer. -/
def lift (c : C) : Prog C R (R c) := .call c .pure

@[simp] theorem pure_eq (a : α) : (Pure.pure a : Prog C R α) = .pure a := rfl
@[simp] theorem bind_eq (p : Prog C R α) (f : α → Prog C R β) : p >>= f = p.bind f := rfl
@[simp] theorem pure_bind (a : α) (f : α → Prog C R β) : (Prog.pure a).bind f = f a := rfl
@[simp] theorem call_bind (c : C) (k : R c → Prog C R α) (f : α → Prog C R β) :
    (Prog.call c k).bind f = .call c fun r => (k r).bind f := rfl
@[simp] theorem choose_bind (p q : Prog C R α) (f : α → Prog C R β) :
    (Prog.choose p q).bind f = .choose (p.bind f) (q.bind f) := rfl
@[simp] theorem lift_bind (c : C) (f : R c → Prog C R β) :
    (lift c).bind f = .call c f := rfl

theorem bind_pure (p : Prog C R α) : p.bind .pure = p := by
  induction p with
  | pure a => rfl
  | call c k ih => exact congrArg (Prog.call c) (funext ih)
  | choose p q ihp ihq => exact congrArg₂ Prog.choose ihp ihq

theorem bind_assoc (p : Prog C R α) (f : α → Prog C R β) (g : β → Prog C R γ) :
    (p.bind f).bind g = p.bind fun a => (f a).bind g := by
  induction p with
  | pure a => rfl
  | call c k ih => exact congrArg (Prog.call c) (funext ih)
  | choose p q ihp ihq => exact congrArg₂ Prog.choose ihp ihq

instance : LawfulMonad (Prog C R) :=
  LawfulMonad.mk' (Prog C R) bind_pure (fun _ _ => rfl) bind_assoc

/-! ## Parallel composition -/

/-- Either the left side moves, as `head` says, or the right side does. -/
def moveOr (head : Prog C R β → Prog C R γ) : Prog C R β → Prog C R γ
  | .pure b => head (.pure b)
  | .call c k => .choose (head (.call c k)) (.call c fun r => moveOr head (k r))
  | .choose q q' =>
    .choose (head (.choose q q')) (.choose (moveOr head q) (moveOr head q'))

/-- Run both programs, their calls interleaved in any order. -/
def par : Prog C R α → Prog C R β → Prog C R (α × β)
  | .pure a => fun q => q.bind fun b => .pure (a, b)
  | .call c k => moveOr fun q => .call c fun r => par (k r) q
  | .choose p p' => moveOr fun q => .choose (par p q) (par p' q)

/-- Run all programs concurrently and collect what each of them returned. -/
def allSettled : List (Prog C R α) → Prog C R (List α)
  | [] => .pure []
  | p :: ps => (par p (allSettled ps)).bind fun x => .pure (x.1 :: x.2)

end Prog

/-! ## Runs -/

/-- What the outside may do when asked `c` in state `s`: the answer and the next state. -/
abbrev Handler (C : Type) (R : C → Type) (σ : Type) := (c : C) → σ → R c → σ → Prop

/-- A deterministic handler that always answers. -/
def Handler.ofFun (h : (c : C) → σ → R c × σ) : Handler C R σ :=
  fun c s r s' => h c s = (r, s')

/-- One step of a running program, or of its environment. -/
inductive Step (H : Handler C R σ) (Env : σ → σ → Prop) :
    Prog C R α × σ → Prog C R α × σ → Prop where
  | call {c k s r s'} : H c s r s' → Step H Env (.call c k, s) (k r, s')
  | left {p q s} : Step H Env (.choose p q, s) (p, s)
  | right {p q s} : Step H Env (.choose p q, s) (q, s)
  | env {p s s'} : Env s s' → Step H Env (p, s) (p, s')

abbrev Steps (H : Handler C R σ) (Env : σ → σ → Prop) :
    Prog C R α × σ → Prog C R α × σ → Prop :=
  Relation.ReflTransGen (Step H Env)

/-- The environment that leaves the state alone. -/
def Quiet : σ → σ → Prop := fun _ _ => False

variable {H : Handler C R σ} {Env : σ → σ → Prop}

theorem Step.of_call {c : C} {k : R c → Prog C R α} {r : R c} {p q : Prog C R α} {s s' : σ}
    (h : H c s r s') (hp : p = .call c k) (hq : k r = q) : Step H Env (p, s) (q, s') := by
  subst hp hq
  exact .call h

theorem Step.bind {p p' : Prog C R α} {s s' : σ} (f : α → Prog C R β)
    (h : Step H Env (p, s) (p', s')) : Step H Env (p.bind f, s) (p'.bind f, s') := by
  cases h with
  | call h => exact .call h
  | left => exact .left
  | right => exact .right
  | env h => exact .env h

/-- A run of the first part of a sequence is a run of the sequence. -/
theorem Steps.bind {p p' : Prog C R α} {s s' : σ} (f : α → Prog C R β)
    (h : Steps H Env (p, s) (p', s')) : Steps H Env (p.bind f, s) (p'.bind f, s') :=
  Relation.ReflTransGen.lift (fun x : Prog C R α × σ => (x.1.bind f, x.2))
    (fun _ _ hxy => Step.bind f hxy) _ _ h

theorem Steps.seq {p : Prog C R α} {a : α} {s s' : σ} {f : α → Prog C R β}
    {out : Prog C R β × σ} (h : Steps H Env (p, s) (.pure a, s'))
    (hf : Steps H Env (f a, s') out) : Steps H Env (p.bind f, s) out :=
  (h.bind f).trans hf

theorem Steps.moveOr {head : Prog C R β → Prog C R γ} {q : Prog C R β} {s : σ}
    {out : Prog C R γ × σ} (h : Steps H Env (head q, s) out) :
    Steps H Env (q.moveOr head, s) out := by
  cases q with
  | pure b => exact h
  | call c k => exact .head .left h
  | choose q q' => exact .head .left h

/-- The left program may run to its end before the right one starts. -/
theorem Steps.par_left {p : Prog C R α} {q : Prog C R β} {a : α} {s s' : σ}
    {out : Prog C R (α × β) × σ} (h : Steps H Env (p, s) (.pure a, s'))
    (hq : Steps H Env (q.bind fun b => .pure (a, b), s') out) :
    Steps H Env (p.par q, s) out := by
  generalize hx : (p, s) = x at h
  induction h using Relation.ReflTransGen.head_induction_on generalizing p s with
  | refl => cases hx; exact hq
  | head hxy _ ih =>
    cases hx
    cases hxy with
    | call hc => exact .moveOr (.head (.call hc) (ih rfl))
    | left => exact .moveOr (.head .left (ih rfl))
    | right => exact .moveOr (.head .right (ih rfl))
    | env he => exact .head (.env he) (ih rfl)

/-- A step of the right program is a step of the composition. -/
theorem Step.par_right {p : Prog C R α} {q q' : Prog C R β} {s s' : σ}
    (h : Step H Env (q, s) (q', s')) : Steps H Env (p.par q, s) (p.par q', s') := by
  have move : ∀ head : Prog C R β → Prog C R (α × β),
      Steps H Env (q.moveOr head, s) (q'.moveOr head, s') := by
    intro head
    cases h with
    | call hc => exact .head .right (.single (.call hc))
    | left => exact .head .right (.single .left)
    | right => exact .head .right (.single .right)
    | env he => exact .single (.env he)
  cases p with
  | pure a => exact .single (h.bind _)
  | call c k => exact move _
  | choose p p' => exact move _

/-- The right program may run to its end before the left one starts. -/
theorem Steps.par_right {p : Prog C R α} {q : Prog C R β} {b : β} {s s' : σ}
    {out : Prog C R (α × β) × σ} (h : Steps H Env (q, s) (.pure b, s'))
    (hp : Steps H Env (p.par (.pure b), s') out) : Steps H Env (p.par q, s) out := by
  generalize hx : (q, s) = x at h
  induction h using Relation.ReflTransGen.head_induction_on generalizing q s with
  | refl => cases hx; exact hp
  | head hxy _ ih =>
    cases hx
    exact (hxy.par_right).trans (ih rfl)

@[simp] theorem Prog.par_pure (p : Prog C R α) (b : β) :
    p.par (.pure b) = p.bind fun a => .pure (a, b) := by
  induction p with
  | pure a => rfl
  | call c k ih => exact congrArg (Prog.call c) (funext ih)
  | choose p p' ihp ihp' => exact congrArg₂ Prog.choose ihp ihp'

/-- Against a handler that always answers, every program has a run to its end. -/
theorem exists_run (total : ∀ c s, ∃ r s', H c s r s') (p : Prog C R α) (s : σ) :
    ∃ a s', Steps H Env (p, s) (.pure a, s') := by
  induction p generalizing s with
  | pure a => exact ⟨a, s, .refl⟩
  | call c k ih =>
    obtain ⟨r, u, hc⟩ := total c s
    obtain ⟨a, t, ht⟩ := ih r u
    exact ⟨a, t, .head (.call hc) ht⟩
  | choose p q ihp _ =>
    obtain ⟨a, t, ht⟩ := ihp s
    exact ⟨a, t, .head .left ht⟩

/-! ## Runs that wait for every answer -/

/-- Answer every call in turn; of a choice, take the left side. -/
def Prog.eval (h : (c : C) → σ → R c × σ) : Prog C R α → σ → α × σ
  | .pure a, s => (a, s)
  | .call c k, s => (k (h c s).1).eval h (h c s).2
  | .choose p _, s => p.eval h s

section Eval

variable {h : (c : C) → σ → R c × σ}

@[simp] theorem Prog.eval_pure (a : α) (s : σ) :
    (.pure a : Prog C R α).eval h s = (a, s) := rfl

@[simp] theorem Prog.eval_call (c : C) (k : R c → Prog C R α) (s : σ) :
    (Prog.call c k).eval h s = (k (h c s).1).eval h (h c s).2 := rfl

@[simp] theorem Prog.eval_bind (p : Prog C R α) (f : α → Prog C R β) (s : σ) :
    (p.bind f).eval h s = (f (p.eval h s).1).eval h (p.eval h s).2 := by
  induction p generalizing s with
  | pure a => rfl
  | call c k ih => exact ih _ _
  | choose p q ihp _ => exact ihp s

end Eval

/-! ## Chosen runs -/

/-- A turn of the scheduler: answer the pending call, or take a side of a choice. -/
inductive Turn where
  | go
  | left
  | right

/-- Follow the turns, with the answers of `h`; a turn that does not fit the program,
or a call that `h` does not answer, is skipped. -/
def Prog.runTurns (h : (c : C) → σ → Option (R c × σ)) :
    List Turn → Prog C R α → σ → Prog C R α × σ
  | [], p, s => (p, s)
  | .go :: ts, .call c k, s =>
    match h c s with
    | some (r, s') => runTurns h ts (k r) s'
    | none => runTurns h ts (.call c k) s
  | .left :: ts, .choose p _, s => runTurns h ts p s
  | .right :: ts, .choose _ q, s => runTurns h ts q s
  | _ :: ts, p, s => runTurns h ts p s

theorem steps_runTurns {h : (c : C) → σ → Option (R c × σ)}
    (hH : ∀ c s r s', h c s = some (r, s') → H c s r s') (ts : List Turn) (p : Prog C R α)
    (s : σ) : Steps H Env (p, s) (p.runTurns h ts s) := by
  fun_induction Prog.runTurns h ts p s with
  | case1 => exact .refl
  | case2 ts c k s r s' hr ih => exact .head (.call (hH c s r s' hr)) ih
  | case3 ts c k s hr ih => exact ih
  | case4 ts p q s ih => exact .head .left ih
  | case5 ts p q s ih => exact .head .right ih
  | case6 _ _ _ _ _ _ _ ih => exact ih

def Prog.result? : Prog C R α → Option α
  | .pure a => some a
  | _ => none

theorem Prog.eq_pure_of_result? {p : Prog C R α} {a : α} (h : p.result? = some a) :
    p = .pure a := by
  cases p with
  | pure b => rw [Option.some.inj h]
  | call c k => cases h
  | choose p q => cases h

/-- The turns run the program to its end. -/
theorem steps_result {h : (c : C) → σ → Option (R c × σ)}
    (hH : ∀ c s r s', h c s = some (r, s') → H c s r s') {ts : List Turn} {p : Prog C R α}
    {s : σ} {a : α} (ha : (p.runTurns h ts s).1.result? = some a) :
    Steps H Env (p, s) (.pure a, (p.runTurns h ts s).2) := by
  have run : Steps H Env (p, s) (p.runTurns h ts s) := steps_runTurns hH ts p s
  rwa [← Prog.eq_pure_of_result? ha]

end Minikura.Concurrency
