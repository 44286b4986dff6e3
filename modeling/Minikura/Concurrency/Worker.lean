import Minikura.Concurrency.RelyGuarantee

/-!
# Workers

A worker runs one program again and again, one run at a time. It may be stopped at any
point and start anew. The environment may move while the program runs, and, possibly in
other ways, while the worker is idle.

## Main results

* `WorkerSteps.good` — an invariant and the weakest precondition of the program hold
  in every state of the worker.
* `WorkerSteps.result`, `WorkerSteps.keeps` — what a run returns, what stays true.
-/

namespace Minikura.Concurrency

variable {C : Type} {R : C → Type} {α σ : Type}

/-- One step of a worker: the program it is running, if any, and the state. -/
inductive WorkerStep (H : Handler C R σ) (Env Idle : σ → σ → Prop) (p : Prog C R α) :
    Option (Prog C R α) × σ → Option (Prog C R α) × σ → Prop where
  | start {s} : WorkerStep H Env Idle p (none, s) (some p, s)
  | work {q q' s s'} : Step H Env (q, s) (q', s') →
    WorkerStep H Env Idle p (some q, s) (some q', s')
  | stop {q s} : WorkerStep H Env Idle p (some q, s) (none, s)
  | idle {s s'} : Idle s s' → WorkerStep H Env Idle p (none, s) (none, s')

abbrev WorkerSteps (H : Handler C R σ) (Env Idle : σ → σ → Prop) (p : Prog C R α) :
    Option (Prog C R α) × σ → Option (Prog C R α) × σ → Prop :=
  Relation.ReflTransGen (WorkerStep H Env Idle p)

variable {H : Handler C R σ} {Env Idle : σ → σ → Prop} {p : Prog C R α}

/-- One whole run of the program. -/
theorem WorkerSteps.of_steps {q q' : Prog C R α} {s s' : σ}
    (h : Steps H Env (q, s) (q', s')) :
    WorkerSteps H Env Idle p (some q, s) (some q', s') :=
  Relation.ReflTransGen.lift (fun x : Prog C R α × σ => (some x.1, x.2))
    (fun _ _ hxy => .work hxy) _ _ h

/-- The invariant holds, and the rest of a run is as correct as the run. -/
structure WorkerGood (H : Handler C R σ) (K : Contract C σ) (Q : α → σ → Prop) (I : σ → Prop)
    (x : Option (Prog C R α) × σ) : Prop where
  invariant : I x.2
  wp : ∀ q, x.1 = some q → wp H K q Q x.2

/-- What a worker needs for its runs to be correct from every state of the invariant. -/
structure WorkerSpec (H : Handler C R σ) (Env Idle : σ → σ → Prop) (p : Prog C R α)
    (K : Contract C σ) (Q : α → σ → Prop) (I : σ → Prop) : Prop where
  env : ∀ s s', I s → Env s s' → K.rely s s'
  rely : ∀ s s', I s → K.rely s s' → I s'
  guar : ∀ c s s', I s → K.guar c s s' → I s'
  idle : ∀ s s', I s → Idle s s' → I s'
  wp : ∀ s, I s → wp H K p Q s

variable {K : Contract C σ} {Q : α → σ → Prop} {I : σ → Prop}
  {x y : Option (Prog C R α) × σ}

/-- Whatever call a run comes to make, it keeps the guarantee and the rest stays correct. -/
theorem WorkerGood.call {c : C} {k : R c → Prog C R α} {r : R c} {s s' : σ}
    (spec : WorkerSpec H Env Idle p K Q I) (h : WorkerGood H K Q I (some (.call c k), s))
    (hc : H c s r s') : K.guar c s s' ∧ WorkerGood H K Q I (some (k r), s') := by
  obtain ⟨hg, hk⟩ := h.wp _ rfl s (K.refl s) r s' hc
  exact ⟨hg, spec.guar c s s' h.invariant hg, fun q hq => Option.some.inj hq ▸ hk⟩

theorem WorkerStep.good (spec : WorkerSpec H Env Idle p K Q I)
    (hxy : WorkerStep H Env Idle p x y) (h : WorkerGood H K Q I x) : WorkerGood H K Q I y := by
  cases hxy with
  | start => exact ⟨h.invariant, fun q hq => Option.some.inj hq ▸ spec.wp _ h.invariant⟩
  | work hs =>
    cases hs with
    | call hc => exact (h.call spec hc).2
    | left => exact ⟨h.invariant, fun q hq => Option.some.inj hq ▸ (h.wp _ rfl).1⟩
    | right => exact ⟨h.invariant, fun q hq => Option.some.inj hq ▸ (h.wp _ rfl).2⟩
    | env he =>
      have hr := spec.env _ _ h.invariant he
      exact ⟨spec.rely _ _ h.invariant hr,
        fun q hq => Option.some.inj hq ▸ wp_rely (h.wp _ rfl) hr⟩
  | stop => exact ⟨h.invariant, nofun⟩
  | idle hi => exact ⟨spec.idle _ _ h.invariant hi, nofun⟩

theorem WorkerSteps.good (spec : WorkerSpec H Env Idle p K Q I)
    (run : WorkerSteps H Env Idle p x y) (h : WorkerGood H K Q I x) :
    WorkerGood H K Q I y := by
  induction run with
  | refl => exact h
  | tail _ hstep ih => exact hstep.good spec ih

theorem WorkerGood.idle {s : σ} (h : I s) : WorkerGood H K Q I (none, s) := ⟨h, nofun⟩

/-- A run that returns meets its postcondition. -/
theorem WorkerGood.result {a : α} {s : σ} (h : WorkerGood H K Q I (some (.pure a), s)) :
    Q a s := h.wp _ rfl s (K.refl s)

/-- What neither the calls nor the environment destroy stays true. -/
theorem WorkerSteps.keeps {J : σ → Prop} (spec : WorkerSpec H Env Idle p K Q I)
    (hrely : ∀ s s', I s → J s → K.rely s s' → J s')
    (hguar : ∀ c s s', I s → J s → K.guar c s s' → J s')
    (hidle : ∀ s s', I s → J s → Idle s s' → J s')
    (run : WorkerSteps H Env Idle p x y) (h : WorkerGood H K Q I x) (hJ : J x.2) : J y.2 := by
  induction run with
  | refl => exact hJ
  | tail hxz hstep ih =>
    have hz := WorkerSteps.good spec hxz h
    cases hstep with
    | start => exact ih
    | work hs =>
      cases hs with
      | call hc => exact hguar _ _ _ hz.invariant ih (hz.call spec hc).1
      | left => exact ih
      | right => exact ih
      | env he => exact hrely _ _ hz.invariant ih (spec.env _ _ hz.invariant he)
    | stop => exact ih
    | idle hi => exact hidle _ _ hz.invariant ih hi

end Minikura.Concurrency
