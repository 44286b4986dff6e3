import Minikura.Concurrency.Observation

/-!
# Failing before everything has ended

`Promise.all` rejects as soon as one of its computations fails. Nobody cancels the others, and
nobody waits for them any more: they go on beside whatever comes next. A failure of such a
computation therefore carries the program that is still under way.

## Main definitions

* `Loose` — the monad; `Loose.both` and `Loose.all` are `Promise.all`.
* `Loose.settle`, `Loose.finish` — what comes next, beside what is still under way.

## Main results

* `settles_both`, `settles_all` — composition of compatible contracts.
* `wp_settle`, `wp_finish` — what is known when everything has ended.
* `only_both`, `only_settle` — which calls are made.
-/

namespace Minikura.Concurrency

variable {C : Type} {R : C → Type} {T : C → Type} {α β γ σ ι ε : Type}

/-- A failure, and what is still under way when it is reported. -/
abbrev Loose.Failure (ε : Type) (C : Type) (R : C → Type) : Type := ε × Prog C R Unit

abbrev Loose (ε : Type) (T : C → Type) (α : Type) : Type :=
  ExceptT (Loose.Failure ε C (Settled ε T)) (Prog C (Settled ε T)) α

namespace Loose

/-! ## The first failure -/

/-- What is left to do of a program nobody waits for. -/
def rest (p : Prog C R (Except (Failure ε C R) α)) : Prog C R Unit :=
  p.bind fun
    | .ok _ => .pure ()
    | .error x => x.2

def beside (p q : Prog C R Unit) : Prog C R Unit := (p.par q).bind fun _ => .pure ()

/-- Go on, unless the right side has failed. -/
def unlessFailed (left : Prog C R Unit) (q : Prog C R (Except (Failure ε C R) β))
    (go : Prog C R (Except (Failure ε C R) γ)) : Prog C R (Except (Failure ε C R) γ) :=
  match q with
  | .pure (.error x) => .pure (.error (x.1, beside left x.2))
  | _ => go

/-- Run both programs until both have succeeded or one of them has failed. -/
def race : Prog C R (Except (Failure ε C R) α) → Prog C R (Except (Failure ε C R) β) →
    Prog C R (Except (Failure ε C R) (α × β))
  | .pure (.ok a) => fun q => q.bind fun r => .pure (r.map (a, ·))
  | .pure (.error x) => fun q => .pure (.error (x.1, beside x.2 (rest q)))
  | .call c k => Prog.moveOr fun q =>
    unlessFailed (rest (.call c k)) q (.call c fun r => race (k r) q)
  | .choose p p' => Prog.moveOr fun q =>
    unlessFailed (rest (.choose p p')) q (.choose (race p q) (race p' q))

/-- A computation that has ended when it fails. -/
def ofAsync (p : Async ε T α) : Loose ε T α :=
  ExceptT.mk (p.run.bind fun r => .pure (r.mapError (·, .pure ())))

/-- `Promise.all` of two. -/
def both (p : Loose ε T α) (q : Loose ε T β) : Loose ε T (α × β) :=
  ExceptT.mk (race p.run q.run)

/-- `Promise.all` -/
def all : List (Loose ε T α) → Loose ε T (List α)
  | [] => pure []
  | p :: ps => do
    let (a, as) ← both p (all ps)
    return a :: as

/-- What is done with the outcome, while what is left of a failed computation goes on. The
whole has ended when both have. -/
def settle (p : Loose ε T α) (next : Except ε α → Async ε T β) : Async ε T β :=
  ExceptT.mk (p.run.bind fun
    | .ok a => (next (.ok a)).run
    | .error x => (x.2.par (next (.error x.1)).run).bind fun y => .pure y.2)

/-- `await` of a computation whose failure ends everything that waits for it. -/
def finish (p : Loose ε T α) : Async ε T α := p.settle fun r => ExceptT.mk (.pure r)

theorem run_bind (p : Loose ε T α) (f : α → Loose ε T β) : (p >>= f).run = p.run.bind fun
    | .ok a => (f a).run
    | .error x => .pure (.error x) := by
  rw [ExceptT.run_bind]
  refine congrArg (Prog.bind p.run) (funext fun r => ?_)
  cases r <;> rfl

/-! ## Weakest preconditions -/

section Rules

variable {H : Handler C R σ} {K L : Contract C σ} {s : σ}

/-- `Q` on success; on a failure, `E` when all that was under way has ended. -/
def Outcome (H : Handler C R σ) (K : Contract C σ) (Q : α → σ → Prop) (E : σ → Prop) :
    Except (Failure ε C R) α → σ → Prop
  | .ok a, s => Q a s
  | .error x, s => wp H K x.2 (fun _ => E) s

variable {Q : α → σ → Prop} {Q' : β → σ → Prop} {E E' : σ → Prop}

theorem outcome_mono {Q₂ : α → σ → Prop} {r : Except (Failure ε C R) α}
    (h : Outcome H K Q E r s) (hQ : ∀ a s, Q a s → Q₂ a s) (hE : ∀ s, E s → E' s) :
    Outcome H K Q₂ E' r s := by
  cases r with
  | ok a => exact hQ a s h
  | error x => exact wp_mono h fun _ => hE

theorem outcome_refines {r : Except (Failure ε C R) α} (h : Outcome H K Q E r s)
    (hKL : K.Refines L) : Outcome H L Q E r s := by
  cases r with
  | ok a => exact h
  | error x => exact wp_refines h hKL

theorem par_left_refines : K.Refines (K.par L) := ⟨fun _ _ h => h.1, fun _ _ _ => .inl⟩

theorem par_right_refines : L.Refines (K.par L) := ⟨fun _ _ h => h.2, fun _ _ _ => .inr⟩

theorem wp_rest {p : Prog C R (Except (Failure ε C R) α)} (h : wp H K p (Outcome H K Q E) s) :
    wp H K (rest p) (fun _ _ => True) s := by
  refine wp_bind.mpr (wp_mono h fun r t hr => ?_)
  cases r with
  | ok a => exact fun _ _ => trivial
  | error x => exact wp_mono hr fun _ _ _ => trivial

theorem wp_beside {p q : Prog C R Unit} {P P' : σ → Prop} (compat : K.Compatible L)
    (hp : wp H K p (fun _ => P) s) (hq : wp H L q (fun _ => P') s) :
    wp H (K.par L) (beside p q) (fun _ t => P t ∧ P' t) s :=
  wp_map.mpr (wp_par compat hp hq)

theorem wp_unlessFailed {left : Prog C R Unit} {q : Prog C R (Except (Failure ε C R) β)}
    {go : Prog C R (Except (Failure ε C R) γ)} {Q₂ : γ → σ → Prop} (compat : K.Compatible L)
    (hleft : wp H K left (fun _ _ => True) s) (hq : wp H L q (Outcome H L Q' E') s)
    (hgo : wp H (K.par L) go (Outcome H (K.par L) Q₂ fun t => E t ∨ E' t) s) :
    wp H (K.par L) (unlessFailed left q go)
      (Outcome H (K.par L) Q₂ fun t => E t ∨ E' t) s := by
  unfold unlessFailed
  split
  · intro t ht
    refine wp_mono (wp_beside compat (wp_rely hleft ht.1) (hq t ht.2)) ?_
    exact fun _ _ h => .inr h.2
  · exact hgo

/-- Of two programs, each answers for its own failures. -/
theorem wp_race {p : Prog C R (Except (Failure ε C R) α)}
    {q : Prog C R (Except (Failure ε C R) β)} (compat : K.Compatible L)
    (hp : wp H K p (Outcome H K Q E) s) (hq : wp H L q (Outcome H L Q' E') s) :
    wp H (K.par L) (race p q)
      (Outcome H (K.par L) (fun x t => Q x.1 t ∧ Q' x.2 t) fun t => E t ∨ E' t) s := by
  induction p generalizing q s with
  | pure r =>
    cases r with
    | ok a =>
      -- the left side has succeeded: its postcondition has to survive the right one
      have hleft : wp H K (.pure () : Prog C R Unit) (fun _ => Q a) s := hp
      refine wp_map.mpr (wp_mono (wp_map.mp (wp_par compat hleft hq)) fun r t hr => ?_)
      cases r with
      | ok b => exact hr
      | error x => exact wp_refines (wp_mono hr.2 fun _ _ => .inr) par_right_refines
    | error x =>
      intro t ht
      refine wp_mono (wp_beside compat (hp t ht.1) (wp_rest (wp_rely hq ht.2))) ?_
      exact fun _ _ h => .inl h.1
  | call c k ih =>
    refine wp_moveOr (P := wp H K (.call c k) (Outcome H K Q E)) compat.2
      (fun _ _ h ht => wp_rely h ht) (fun q s hp hq => ?_) hp hq
    refine wp_unlessFailed compat (wp_rest hp) hq fun t ht r u hu => ?_
    obtain ⟨hg, hk⟩ := hp t ht.1 r u hu
    exact ⟨.inl hg, ih r hk (wp_rely (wp_rely hq ht.2) (compat.1 c t u hg))⟩
  | choose p p' ihp ihp' =>
    refine wp_moveOr (P := wp H K (.choose p p') (Outcome H K Q E)) compat.2
      (fun _ _ h ht => wp_rely h ht) (fun q s hp hq => ?_) hp hq
    exact wp_unlessFailed compat (wp_rest hp) hq ⟨ihp hp.1 hq, ihp' hp.2 hq⟩

end Rules

section Computations

variable {H : Handler C (Settled ε T) σ} {K L : Contract C σ} {s : σ} {Q : α → σ → Prop}
  {Q' : β → σ → Prop} {E E' : σ → Prop}

/-- `Q` when the computation succeeds, and `E` when all of it has ended if it fails. -/
abbrev Settles (H : Handler C (Settled ε T) σ) (K : Contract C σ) (p : Loose ε T α)
    (Q : α → σ → Prop) (E : σ → Prop) (s : σ) : Prop := wp H K p.run (Outcome H K Q E) s

theorem settles_pure {a : α} (h : ∀ t, K.rely s t → Q a t) : Settles H K (pure a) Q E s := h

theorem settles_bind {p : Loose ε T α} {f : α → Loose ε T β}
    (h : Settles H K p (fun a => Settles H K (f a) Q' E) E s) : Settles H K (p >>= f) Q' E s := by
  rw [Settles, run_bind, wp_bind]
  refine wp_mono h fun r t hr => ?_
  cases r with
  | ok a => exact hr
  | error x => exact fun u hu => wp_rely hr hu

theorem settles_map {p : Loose ε T α} {f : α → β}
    (h : Settles H K p (fun a => Q' (f a)) E s) :
    Settles H K (p >>= fun a => pure (f a)) Q' E s := by
  have hrun : (p >>= fun a => pure (f a)).run = p.run.bind fun r => .pure (r.map f) := by
    rw [run_bind]
    refine congrArg (Prog.bind p.run) (funext fun r => ?_)
    cases r <;> rfl
  rw [Settles, hrun]
  refine wp_map.mpr (wp_mono h fun r t hr => ?_)
  cases r <;> exact hr

theorem settles_mono {p : Loose ε T α} {Q₂ : α → σ → Prop} (h : Settles H K p Q E s)
    (hQ : ∀ a s, Q a s → Q₂ a s) (hE : ∀ s, E s → E' s) : Settles H K p Q₂ E' s :=
  wp_mono h fun _ _ hr => outcome_mono hr hQ hE

theorem settles_refines {p : Loose ε T α} (h : Settles H K p Q E s) (hKL : K.Refines L) :
    Settles H L p Q E s :=
  wp_mono (wp_refines h hKL) fun _ _ hr => outcome_refines hr hKL

theorem settles_ofAsync {p : Async ε T α} (h : wp H K p.run (fun r t => match r with
      | .ok a => Q a t
      | .error _ => E t) s) : Settles H K (ofAsync p) Q E s := by
  refine wp_bind.mpr ?_
  rw [← Prog.bind_pure p.run, wp_bind] at h
  refine wp_mono h fun r t hr u hu => ?_
  cases r with
  | ok a => exact hr u hu
  | error e => exact fun v hv => hr v (K.trans _ _ _ hu hv)

theorem settles_both {p : Loose ε T α} {q : Loose ε T β} (compat : K.Compatible L)
    (hp : Settles H K p Q E s) (hq : Settles H L q Q' E s) :
    Settles H (K.par L) (both p q) (fun x t => Q x.1 t ∧ Q' x.2 t) E s :=
  settles_mono (wp_race compat hp hq) (fun _ _ h => h) fun _ h => h.elim id id

theorem settles_all {K : ι → Contract C σ} {p : ι → Loose ε T α} {Q : ι → σ → Prop} {l : List ι}
    (compat : l.Pairwise fun i j => (K i).Compatible (K j))
    (hp : ∀ i ∈ l, Settles H (K i) (p i) (fun _ => Q i) E s) :
    Settles H (Contract.all K l) (all (l.map p)) (fun _ t => ∀ i ∈ l, Q i t) E s := by
  induction l with
  | nil => exact settles_pure fun _ _ => by simp
  | cons i l ih =>
    obtain ⟨hi, hl⟩ := List.pairwise_cons.mp compat
    have hall : (K i).Compatible (Contract.all K l) :=
      ⟨fun c s s' h j hj => (hi j hj).1 c s s' h,
        fun c s s' ⟨j, hj, h⟩ => (hi j hj).2 c s s' h⟩
    have hcons : ((K i).par (Contract.all K l)).Refines (Contract.all K (i :: l)) :=
      ⟨fun s s' h => ⟨h i (by simp), fun j hj => h j (by simp [hj])⟩,
        fun c s s' h => h.elim (fun h => ⟨i, by simp, h⟩)
          fun ⟨j, hj, h⟩ => ⟨j, by simp [hj], h⟩⟩
    have hboth := settles_both hall (hp i (by simp)) (ih hl fun j hj => hp j (by simp [hj]))
    refine settles_map (settles_mono (settles_refines hboth hcons) (fun x t hx => ?_) fun _ => id)
    exact List.forall_mem_cons.mpr hx

/-- The outcome is dealt with while the rest goes on, so neither may disturb the other. -/
theorem wp_settle {p : Loose ε T α} {next : Except ε α → Async ε T β} {Q₂ : Except ε β → σ → Prop}
    (compat : K.Compatible L)
    (hp : Settles H K p (fun a => wp H (K.par L) (next (.ok a)).run Q₂) E s)
    (herror : ∀ e t, wp H L (next (.error e)).run (fun r u => E u → Q₂ r u) t) :
    wp H (K.par L) (p.settle next).run Q₂ s := by
  refine wp_bind.mpr (wp_mono (wp_refines hp par_left_refines) fun r t hr => ?_)
  cases r with
  | ok a => exact hr
  | error x =>
    have hboth := wp_par compat hr (herror x.1 t)
    exact wp_map.mpr (wp_mono hboth fun y u hy => hy.2 hy.1)

theorem wp_finish {p : Loose ε T α} (hp : Settles H K p Q E s) :
    wp H K p.finish.run (fun r t => match r with
      | .ok a => Q a t
      | .error _ => E t) s := by
  refine wp_bind.mpr ?_
  rw [Settles, ← Prog.bind_pure p.run, wp_bind] at hp
  refine wp_mono hp fun r t hr => ?_
  cases r with
  | ok a => exact hr
  | error x =>
    refine wp_map.mpr ?_
    rw [ExceptT.run_mk, Prog.par_pure]
    exact wp_map.mpr (hr t (K.refl t))

end Computations

/-! ## Calls -/

section Only

variable {P : C → Prop}

/-- What follows a failure makes the calls of what is left, and its own. -/
theorem only_of_rest {q : Prog C R (Except (Failure ε C R) α)}
    {f : Except (Failure ε C R) α → Prog C R β} (hq : (rest q).Only P)
    (hok : ∀ a, (f (.ok a)).Only P) (herror : ∀ x, x.2.Only P → (f (.error x)).Only P) :
    (q.bind f).Only P := by
  induction q with
  | pure r =>
    cases r with
    | ok a => exact hok a
    | error x => exact herror x hq
  | call c k ih => exact ⟨hq.1, fun r => ih r (hq.2 r)⟩
  | choose q q' ih ih' => exact ⟨ih hq.1, ih' hq.2⟩

theorem rest_map {q : Prog C R (Except (Failure ε C R) α)} {f : α → β} :
    rest (q.bind fun r => .pure (r.map f)) = rest q := by
  rw [rest, Prog.bind_assoc]
  refine congrArg (Prog.bind q) (funext fun r => ?_)
  cases r <;> rfl

theorem only_rest_moveOr {head : Prog C R (Except (Failure ε C R) α) →
      Prog C R (Except (Failure ε C R) β)} {q : Prog C R (Except (Failure ε C R) α)}
    (hhead : ∀ q, (rest q).Only P → (rest (head q)).Only P) (hq : (rest q).Only P) :
    (rest (q.moveOr head)).Only P := by
  induction q with
  | pure r => exact hhead _ hq
  | call c k ih => exact ⟨hhead _ hq, hq.1, fun r => ih r (hq.2 r)⟩
  | choose q q' ih ih' => exact ⟨hhead _ hq, ih hq.1, ih' hq.2⟩

theorem only_rest_unlessFailed {left : Prog C R Unit} {q : Prog C R (Except (Failure ε C R) β)}
    {go : Prog C R (Except (Failure ε C R) γ)} (hleft : left.Only P) (hq : (rest q).Only P)
    (hgo : (rest go).Only P) : (rest (unlessFailed left q go)).Only P := by
  unfold unlessFailed
  split
  · exact (hleft.par hq).bind fun _ => trivial
  · exact hgo

theorem only_rest_race {p : Prog C R (Except (Failure ε C R) α)}
    {q : Prog C R (Except (Failure ε C R) β)} (hp : (rest p).Only P) (hq : (rest q).Only P) :
    (rest (race p q)).Only P := by
  induction p generalizing q with
  | pure r =>
    cases r with
    | ok a =>
      rw [race, rest_map]
      exact hq
    | error x => exact (hp.par hq).bind fun _ => trivial
  | call c k ih =>
    refine only_rest_moveOr (fun q hq => only_rest_unlessFailed hp hq ?_) hq
    exact ⟨hp.1, fun r => ih r (hp.2 r) hq⟩
  | choose p p' ihp ihp' =>
    refine only_rest_moveOr (fun q hq => only_rest_unlessFailed hp hq ?_) hq
    exact ⟨ihp hp.1 hq, ihp' hp.2 hq⟩

/-- Every call the computation may come to make, also after it has failed, is in `P`. -/
abbrev Only (P : C → Prop) (p : Loose ε T α) : Prop := (rest p.run).Only P

theorem only_ofAsync {p : Async ε T α} (hp : p.run.Only P) : Only P (ofAsync p) := by
  have hrest : rest (ofAsync p).run = p.run.bind fun _ => .pure () := by
    rw [rest, ofAsync, ExceptT.run_mk, Prog.bind_assoc]
    refine congrArg (Prog.bind p.run) (funext fun r => ?_)
    cases r <;> rfl
  rw [Only, hrest]
  exact hp.bind fun _ => trivial

theorem only_bind {p : Loose ε T α} {f : α → Loose ε T β} (hp : Only P p)
    (hf : ∀ a, Only P (f a)) : Only P (p >>= f) := by
  rw [Only, run_bind, rest, Prog.bind_assoc]
  exact only_of_rest hp hf fun _ hx => hx

theorem only_both {p : Loose ε T α} {q : Loose ε T β} (hp : Only P p) (hq : Only P q) :
    Only P (both p q) := only_rest_race hp hq

theorem only_settle {p : Loose ε T α} {next : Except ε α → Async ε T β} (hp : Only P p)
    (hnext : ∀ r, (next r).run.Only P) : (p.settle next).run.Only P :=
  only_of_rest hp (fun a => hnext (.ok a)) fun x hx =>
    (hx.par (hnext (.error x.1))).bind fun _ => trivial

theorem only_finish {p : Loose ε T α} (hp : Only P p) : p.finish.run.Only P :=
  only_settle hp fun _ => trivial

end Only

end Loose

end Minikura.Concurrency
