import Mathlib.Logic.Function.Basic
import Minikura.Concurrency.RelyGuarantee

/-!
# Teams

A team has a program for each of its members and runs any of them at the same time, one run of
a member at a time, on one state. A run may be stopped at any point and start anew, and the
environment may move at any time. Members that tolerate each other's calls, as their contracts
say, are correct in every interleaving.

## Main definitions

* `TeamStep`, `TeamSteps` — a team at work.
* `TeamSpec` — what makes the runs of a team correct.

## Main results

* `TeamSteps.good` — the invariant and every weakest precondition hold in every state.
* `TeamSteps.guar` — every call that is ever made keeps the guarantee of its member.
-/

namespace Minikura.Concurrency

variable {C : Type} {R : C → Type} {α σ ι : Type} [DecidableEq ι]

/-- One step of a team: what is left of the runs of its members, and the state. -/
inductive TeamStep (H : Handler C R σ) (Env : σ → σ → Prop) (p : ι → Prog C R α) :
    (ι → Option (Prog C R α)) × σ → (ι → Option (Prog C R α)) × σ → Prop where
  | start {i running s} : running i = none →
    TeamStep H Env p (running, s) (Function.update running i (some (p i)), s)
  | work {i q q' running s s'} : running i = some q → Step H Quiet (q, s) (q', s') →
    TeamStep H Env p (running, s) (Function.update running i (some q'), s')
  | stop {i running s} : TeamStep H Env p (running, s) (Function.update running i none, s)
  | env {running s s'} : Env s s' → TeamStep H Env p (running, s) (running, s')

abbrev TeamSteps (H : Handler C R σ) (Env : σ → σ → Prop) (p : ι → Prog C R α) :
    (ι → Option (Prog C R α)) × σ → (ι → Option (Prog C R α)) × σ → Prop :=
  Relation.ReflTransGen (TeamStep H Env p)

/-- Nobody is at work. -/
def resting : ι → Option (Prog C R α) := fun _ => none

/-- The invariant holds, and the rest of every run is as correct as the run. -/
structure TeamGood (H : Handler C R σ) (K : ι → Contract C σ) (Q : ι → α → σ → Prop)
    (I : σ → Prop) (x : (ι → Option (Prog C R α)) × σ) : Prop where
  invariant : I x.2
  wp : ∀ i q, x.1 i = some q → wp H (K i) q (Q i) x.2

/-- What a team needs for its runs to be correct from every state of the invariant. -/
structure TeamSpec (H : Handler C R σ) (Env : σ → σ → Prop) (p : ι → Prog C R α)
    (K : ι → Contract C σ) (Q : ι → α → σ → Prop) (I : σ → Prop) : Prop where
  env : ∀ s s', I s → Env s s' → I s' ∧ ∀ i, (K i).rely s s'
  guar : ∀ i c s s', I s → (K i).guar c s s' → I s'
  compatible : ∀ i j, i ≠ j → ∀ c s s', I s → (K i).guar c s s' → (K j).rely s s'
  wp : ∀ i s, I s → wp H (K i) (p i) (Q i) s

variable {H : Handler C R σ} {Env : σ → σ → Prop} {p : ι → Prog C R α} {K : ι → Contract C σ}
  {Q : ι → α → σ → Prop} {I : σ → Prop} {x y : (ι → Option (Prog C R α)) × σ}

omit [DecidableEq ι] in
theorem TeamGood.resting {s : σ} (h : I s) : TeamGood H K Q I (resting, s) := ⟨h, nofun⟩

/-- A run moves on in the same state. -/
theorem TeamGood.update {i : ι} {q' : Option (Prog C R α)} {running : ι → Option (Prog C R α)}
    {s : σ} (h : TeamGood H K Q I (running, s))
    (hq : ∀ q, q' = some q → Concurrency.wp H (K i) q (Q i) s) :
    TeamGood H K Q I (Function.update running i q', s) where
  invariant := h.invariant
  wp j q hj := by
    dsimp only at hj ⊢
    rw [Function.update_apply] at hj
    split_ifs at hj with hji
    · subst hji
      exact hq q hj
    · exact h.wp j q hj

/-- Whatever call a run comes to make, it keeps the guarantee and everybody stays correct. -/
theorem TeamGood.call {i : ι} {c : C} {k : R c → Prog C R α} {r : R c}
    {running : ι → Option (Prog C R α)} {s s' : σ} (spec : TeamSpec H Env p K Q I)
    (h : TeamGood H K Q I (running, s)) (hi : running i = some (.call c k)) (hc : H c s r s') :
    (K i).guar c s s' ∧ TeamGood H K Q I (Function.update running i (some (k r)), s') := by
  obtain ⟨hg, hk⟩ := h.wp i _ hi s ((K i).refl s) r s' hc
  refine ⟨hg, spec.guar i c s s' h.invariant hg, fun j q hj => ?_⟩
  dsimp only at hj ⊢
  rw [Function.update_apply] at hj
  split_ifs at hj with hji
  · subst hji
    exact Option.some.inj hj ▸ hk
  · exact wp_rely (h.wp j q hj) (spec.compatible i j (Ne.symm hji) c s s' h.invariant hg)

theorem TeamStep.good (spec : TeamSpec H Env p K Q I) (hxy : TeamStep H Env p x y)
    (h : TeamGood H K Q I x) : TeamGood H K Q I y := by
  cases hxy with
  | start hi => exact h.update fun q hq => Option.some.inj hq ▸ spec.wp _ _ h.invariant
  | work hi hs =>
    cases hs with
    | call hc => exact (h.call spec hi hc).2
    | left => exact h.update fun q hq => Option.some.inj hq ▸ (h.wp _ _ hi).1
    | right => exact h.update fun q hq => Option.some.inj hq ▸ (h.wp _ _ hi).2
    | env he => exact he.elim
  | stop => exact h.update nofun
  | env he =>
    obtain ⟨hinv, hrely⟩ := spec.env _ _ h.invariant he
    exact ⟨hinv, fun i q hi => wp_rely (h.wp i q hi) (hrely i)⟩

/-- The invariant and the weakest preconditions hold in every state of the team. -/
theorem TeamSteps.good (spec : TeamSpec H Env p K Q I) (run : TeamSteps H Env p x y)
    (h : TeamGood H K Q I x) : TeamGood H K Q I y := by
  induction run with
  | refl => exact h
  | tail _ hstep ih => exact hstep.good spec ih

/-- In every state the team reaches, every call a member is about to make keeps the guarantee
of the member. -/
theorem TeamSteps.guar {i : ι} {c : C} {k : R c → Prog C R α} {r : R c} {s s' : σ}
    (spec : TeamSpec H Env p K Q I) (hs : I s) (run : TeamSteps H Env p (resting, s) x)
    (hi : x.1 i = some (.call c k)) (hc : H c x.2 r s') : (K i).guar c x.2 s' :=
  ((TeamSteps.good spec run (.resting hs)).call spec hi hc).1

/-- The contract of those who keep an invariant. -/
def Contract.keeping (I : σ → Prop) : Contract C σ where
  rely s s' := I s → I s'
  guar _ s s' := I s → I s'
  refl _ := id
  trans _ _ _ h h' hs := h' (h hs)

omit [DecidableEq ι] in
/-- Members that keep an invariant make a team that keeps it. -/
theorem TeamSpec.keeping (henv : ∀ s s', I s → Env s s' → I s')
    (hwp : ∀ i s, I s → Concurrency.wp H (.keeping I) (p i) (Q i) s) :
    TeamSpec H Env p (fun _ => .keeping I) Q I where
  env s s' hs he := ⟨henv s s' hs he, fun _ _ => henv s s' hs he⟩
  guar _ _ _ _ hs h := h hs
  compatible _ _ _ _ _ _ _ h := h
  wp := hwp

/-- A run that returns meets its postcondition. -/
theorem TeamSteps.result {i : ι} {a : α} {s : σ} (spec : TeamSpec H Env p K Q I) (hs : I s)
    (run : TeamSteps H Env p (resting, s) x) (hi : x.1 i = some (.pure a)) : Q i a x.2 :=
  (TeamSteps.good spec run (.resting hs)).wp i _ hi x.2 ((K i).refl x.2)

/-- A whole run of one member, while nobody else moves. -/
theorem TeamSteps.of_steps {i : ι} {q q' : Prog C R α} {running : ι → Option (Prog C R α)}
    {s s' : σ} (h : Steps H Quiet (q, s) (q', s')) :
    TeamSteps H Env p (Function.update running i (some q), s)
      (Function.update running i (some q'), s') := by
  refine Relation.ReflTransGen.lift
    (fun x : Prog C R α × σ => (Function.update running i (some x.1), x.2)) ?_ _ _ h
  rintro ⟨q, s⟩ ⟨q', s'⟩ hstep
  have hwork : TeamStep H Env p (Function.update running i (some q), s) _ :=
    .work (Function.update_self i (some q) running) hstep
  rwa [Function.update_idem] at hwork

end Minikura.Concurrency
