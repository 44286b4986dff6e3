import Minikura.Concurrency.Async

/-!
# Watching runs

A run can be observed by a record that every call updates and no program reads, so
that a property may speak of what has happened. A handler can be made to lose
requests and answers, or be restricted to the calls that meet a condition.

## Main results

* `Steps.record`, `Steps.forget` — observing a run changes nothing about it.
* `Steps.invariant` — what every call preserves holds in every state reached.
* `wp_of_only` — programs that make only certain calls.
-/

namespace Minikura.Concurrency

variable {C : Type} {R : C → Type} {T : C → Type} {α β σ μ ε : Type}

/-! ## Handlers -/

/-- Keep a record of the calls, and of what they lead to, beside the state. -/
def Handler.record (H : Handler C R σ) (rec : (c : C) → σ → R c → σ → μ → μ) :
    Handler C R (σ × μ) :=
  fun c x r y => H c x.1 r y.1 ∧ y.2 = rec c x.1 r y.1 x.2

/-- Keep a record of the calls beside the state. -/
abbrev Handler.observe (H : Handler C R σ) (obs : (c : C) → σ → R c → μ → μ) :
    Handler C R (σ × μ) :=
  H.record fun c s r _ => obs c s r

/-- Only the calls that meet a condition. -/
def Handler.restrict (H : Handler C R σ) (ok : (c : C) → σ → R c → σ → Prop) :
    Handler C R σ :=
  fun c s r s' => H c s r s' ∧ ok c s r s'

/-- Any call may fail, with its effect or without it. -/
def Handler.lossy (H : Handler C (Settled ε T) σ) : Handler C (Settled ε T) σ :=
  fun c s r s' => H c s r s' ∨ ∃ e, r = .error e ∧ (s' = s ∨ ∃ r', H c s r' s')

/-- A call that loses nothing is answered, and every call takes its effect or none. -/
theorem Handler.of_lossy {h : (c : C) → σ → Settled ε T c × σ} {c : C} {s s' : σ}
    {r : Settled ε T c} (hstep : (Handler.ofFun h).lossy c s r s') :
    (s' = s ∨ s' = (h c s).2) ∧ ∀ a, r = .ok a → h c s = (.ok a, s') := by
  rcases hstep with hstep | ⟨e, he, hstep⟩
  · exact ⟨.inr (congrArg Prod.snd hstep).symm, fun a ha => ha ▸ hstep⟩
  · refine ⟨?_, fun a ha => absurd (he.symm.trans ha) nofun⟩
    rcases hstep with hstep | ⟨r', hstep⟩
    · exact .inl hstep
    · exact .inr (congrArg Prod.snd hstep).symm

variable {H : Handler C R σ} {Env : σ → σ → Prop}

/-- The environment does not touch the record. -/
def envObserved (Env : σ → σ → Prop) : σ × μ → σ × μ → Prop :=
  fun x y => Env x.1 y.1 ∧ y.2 = x.2

theorem Steps.record (rec : (c : C) → σ → R c → σ → μ → μ) {p q : Prog C R α} {s t : σ}
    (h : Steps H Env (p, s) (q, t)) (m : μ) :
    ∃ n, Steps (H.record rec) (envObserved Env) (p, (s, m)) (q, (t, n)) := by
  generalize hy : (q, t) = y at h
  induction h generalizing q t with
  | refl => cases hy; exact ⟨m, .refl⟩
  | @tail z y _ hzy ih =>
    obtain ⟨z, u⟩ := z
    obtain ⟨n, run⟩ := ih rfl
    cases hzy with
    | @call c _ _ r _ hc => cases hy; exact ⟨rec c u r t n, run.tail (.call ⟨hc, rfl⟩)⟩
    | left => cases hy; exact ⟨n, run.tail .left⟩
    | right => cases hy; exact ⟨n, run.tail .right⟩
    | env he => cases hy; exact ⟨n, run.tail (.env ⟨he, rfl⟩)⟩

theorem Steps.observe (obs : (c : C) → σ → R c → μ → μ) {p q : Prog C R α} {s t : σ}
    (h : Steps H Env (p, s) (q, t)) (m : μ) :
    ∃ n, Steps (H.observe obs) (envObserved Env) (p, (s, m)) (q, (t, n)) :=
  h.record _ m

theorem Steps.forget {rec : (c : C) → σ → R c → σ → μ → μ} {x y : Prog C R α × (σ × μ)}
    (h : Steps (H.record rec) (envObserved Env) x y) :
    Steps H Env (x.1, x.2.1) (y.1, y.2.1) := by
  induction h with
  | refl => exact .refl
  | tail _ hzy ih =>
    cases hzy with
    | call hc => exact ih.tail (.call hc.1)
    | left => exact ih.tail .left
    | right => exact ih.tail .right
    | env he => exact ih.tail (.env he.1)

/-! ## Invariants of the state -/

theorem Steps.invariant {I : σ → Prop} {x y : Prog C R α × σ}
    (hcall : ∀ c s r s', I s → H c s r s' → I s') (hEnv : ∀ s s', I s → Env s s' → I s')
    (h : Steps H Env x y) (hI : I x.2) : I y.2 := by
  induction h with
  | refl => exact hI
  | tail _ hzy ih =>
    cases hzy with
    | call hc => exact hcall _ _ _ _ ih hc
    | left => exact ih
    | right => exact ih
    | env he => exact hEnv _ _ ih he

/-- A run that keeps an invariant is a run of the calls between states that meet it. -/
theorem Steps.strengthen {I : σ → Prop} {x y : Prog C R α × σ}
    (hcall : ∀ c s r s', I s → H c s r s' → I s') (hEnv : ∀ s s', I s → Env s s' → I s')
    (h : Steps H Env x y) (hI : I x.2) :
    Steps (H.restrict fun _ s _ s' => I s ∧ I s') Env x y := by
  induction h with
  | refl => exact .refl
  | @tail z y hxz hzy ih =>
    have hz : I z.2 := Steps.invariant hcall hEnv hxz hI
    cases hzy with
    | call hc => exact ih.tail (.call ⟨hc, hz, hcall _ _ _ _ hz hc⟩)
    | left => exact ih.tail .left
    | right => exact ih.tail .right
    | env he => exact ih.tail (.env he)

/-- Under a contract, every call of a run keeps the guarantee. -/
theorem Steps.guaranteed {K : Contract C σ} {p : Prog C R α} {Q : α → σ → Prop} {s : σ}
    {y : Prog C R α × σ} (h : wp H K p Q s) (hEnv : ∀ s s', Env s s' → K.rely s s')
    (run : Steps H Env (p, s) y) :
    Steps (H.restrict fun c s _ s' => K.guar c s s') Env (p, s) y := by
  induction run with
  | refl => exact .refl
  | @tail z y hz hzy ih =>
    obtain ⟨q, t⟩ := z
    cases hzy with
    | call hc => exact ih.tail (.call ⟨hc, wp_guar h hEnv hz hc⟩)
    | left => exact ih.tail .left
    | right => exact ih.tail .right
    | env he => exact ih.tail (.env he)

/-! ## Programs with a name -/

variable {ι : Type}

/-- Every call of the program carries the name of the caller. -/
def Prog.tag (i : ι) : Prog C R α → Prog (ι × C) (fun x => R x.2) α
  | .pure a => .pure a
  | .call c k => .call (i, c) fun r => (k r).tag i
  | .choose p q => .choose (p.tag i) (q.tag i)

/-- A handler that does not look at the name. -/
def Handler.tagged (ι : Type) (H : Handler C R σ) : Handler (ι × C) (fun x => R x.2) σ :=
  fun x => H x.2

/-- The calls of one caller, to reason about its program as if it had no name. -/
def Handler.caller (H : Handler (ι × C) (fun x => R x.2) σ) (i : ι) : Handler C R σ :=
  fun c => H (i, c)

def Contract.caller (K : Contract (ι × C) σ) (i : ι) : Contract C σ :=
  { K with guar := fun c => K.guar (i, c) }

theorem wp_tag {H : Handler (ι × C) (fun x => R x.2) σ} {K : Contract (ι × C) σ} {i : ι}
    {p : Prog C R α} {Q : α → σ → Prop} {s : σ} :
    wp H K (p.tag i) Q s ↔ wp (H.caller i) (K.caller i) p Q s := by
  induction p generalizing s with
  | pure a => exact Iff.rfl
  | call c k ih =>
    exact forall₂_congr fun t _ => forall₂_congr fun r u => forall_congr' fun _ =>
      and_congr_right fun _ => ih r
  | choose p q ihp ihq => exact and_congr ihp ihq

/-- A program over another interface, with answers that can be read back. -/
def Prog.translate {D : Type} {S : D → Type} (f : C → D) (g : (c : C) → S (f c) → R c) :
    Prog C R α → Prog D S α
  | .pure a => .pure a
  | .call c k => .call (f c) fun r => (k (g c r)).translate f g
  | .choose p q => .choose (p.translate f g) (q.translate f g)

/-- The other interface, seen through the translation. -/
def Handler.through {D : Type} {S : D → Type} (f : C → D) (g : (c : C) → S (f c) → R c)
    (H : Handler D S σ) : Handler C R σ :=
  fun c s r s' => ∃ a, H (f c) s a s' ∧ g c a = r

def Contract.through {D : Type} (f : C → D) (K : Contract D σ) : Contract C σ :=
  { K with guar := fun c => K.guar (f c) }

theorem wp_translate {D : Type} {S : D → Type} {H : Handler D S σ} {K : Contract D σ} {f : C → D}
    {g : (c : C) → S (f c) → R c} {p : Prog C R α} {Q : α → σ → Prop} {s : σ}
    (h : wp (H.through f g) (K.through f) p Q s) : wp H K (p.translate f g) Q s := by
  induction p generalizing s with
  | pure a => exact h
  | call c k ih =>
    intro t ht r u hu
    obtain ⟨hg, hk⟩ := h t ht (g c r) u ⟨r, hu, rfl⟩
    exact ⟨hg, ih _ hk⟩
  | choose p q ihp ihq => exact ⟨ihp h.1, ihq h.2⟩

/-! ## Programs that make only certain calls -/

/-- Every call the program may come to make is in `P`. -/
def Prog.Only (P : C → Prop) : Prog C R α → Prop
  | .pure _ => True
  | .call c k => P c ∧ ∀ r, (k r).Only P
  | .choose p q => p.Only P ∧ q.Only P

variable {P : C → Prop}

theorem Prog.only_true (p : Prog C R α) : p.Only fun _ => True := by
  induction p with
  | pure a => trivial
  | call c k ih => exact ⟨trivial, ih⟩
  | choose p q ihp ihq => exact ⟨ihp, ihq⟩

theorem Prog.Only.mono {P' : C → Prop} {p : Prog C R α} (hp : p.Only P)
    (h : ∀ c, P c → P' c) : p.Only P' := by
  induction p with
  | pure a => trivial
  | call c k ih => exact ⟨h c hp.1, fun r => ih r (hp.2 r)⟩
  | choose p q ihp ihq => exact ⟨ihp hp.1, ihq hp.2⟩

theorem Prog.Only.bind {p : Prog C R α} {f : α → Prog C R β} (hp : p.Only P)
    (hf : ∀ a, (f a).Only P) : (p.bind f).Only P := by
  induction p with
  | pure a => exact hf a
  | call c k ih => exact ⟨hp.1, fun r => ih r (hp.2 r)⟩
  | choose p q ihp ihq => exact ⟨ihp hp.1, ihq hp.2⟩

theorem Prog.Only.moveOr {head : Prog C R α → Prog C R β} {q : Prog C R α}
    (hhead : ∀ q : Prog C R α, q.Only P → (head q).Only P) (hq : q.Only P) :
    (q.moveOr head).Only P := by
  induction q with
  | pure a => exact hhead _ hq
  | call c k ih => exact ⟨hhead _ hq, hq.1, fun r => ih r (hq.2 r)⟩
  | choose q q' ih ih' => exact ⟨hhead _ hq, ih hq.1, ih' hq.2⟩

theorem Prog.Only.par {p : Prog C R α} {q : Prog C R β} (hp : p.Only P) (hq : q.Only P) :
    (p.par q).Only P := by
  induction p generalizing q with
  | pure a => exact hq.bind fun _ => trivial
  | call c k ih => exact .moveOr (fun q hq => ⟨hp.1, fun r => ih r (hp.2 r) hq⟩) hq
  | choose p p' ih ih' => exact .moveOr (fun q hq => ⟨ih hp.1 hq, ih' hp.2 hq⟩) hq

theorem Prog.Only.allSettled {ps : List (Prog C R α)} (h : ∀ p ∈ ps, p.Only P) :
    (Prog.allSettled ps).Only P := by
  induction ps with
  | nil => trivial
  | cons p ps ih =>
    exact ((h p (by simp)).par (ih fun q hq => h q (by simp [hq]))).bind fun _ => trivial

namespace Async

variable {p : Async ε T α} {f : α → Async ε T β}

theorem only_await {c : C} (h : P c) : (await c : Async ε T (T c)).run.Only P :=
  ⟨h, fun _ => trivial⟩

theorem only_bind (hp : p.run.Only P) (hf : ∀ a, (f a).run.Only P) :
    (p >>= f).run.Only P := by
  rw [run_bind]
  refine hp.bind fun r => ?_
  cases r with
  | ok a => exact hf a
  | error e => trivial

theorem only_forM {ι : Type} {f : ι → Async ε T Unit} {l : List ι}
    (hf : ∀ i, (f i).run.Only P) : (l.forM f).run.Only P := by
  induction l with
  | nil => trivial
  | cons i l ih => exact only_bind (hf i) fun _ => ih

theorem only_attempt (hp : p.run.Only P) : p.attempt.run.Only P := hp.bind fun _ => trivial

theorem only_bothSettled {q : Async ε T β} (hp : p.run.Only P) (hq : q.run.Only P) :
    (bothSettled p q).run.Only P := (hp.par hq).bind fun _ => trivial

theorem only_allSettled {ps : List (Async ε T α)} (h : ∀ p ∈ ps, p.run.Only P) :
    (allSettled ps).run.Only P := by
  refine Prog.Only.bind (.allSettled fun q hq => ?_) fun _ => trivial
  obtain ⟨p, hp, rfl⟩ := List.mem_map.mp hq
  exact h p hp

end Async

theorem Steps.only {p : Prog C R α} {s : σ} {y : Prog C R α × σ} (hp : p.Only P)
    (h : Steps H Env (p, s) y) :
    y.1.Only P ∧ Steps (H.restrict fun c _ _ _ => P c) Env (p, s) y := by
  induction h with
  | refl => exact ⟨hp, .refl⟩
  | tail _ hzy ih =>
    obtain ⟨hz, run⟩ := ih
    cases hzy with
    | call hc => exact ⟨hz.2 _, run.tail (.call ⟨hc, hz.1⟩)⟩
    | left => exact ⟨hz.1, run.tail .left⟩
    | right => exact ⟨hz.2, run.tail .right⟩
    | env he => exact ⟨hz, run.tail (.env he)⟩

theorem Prog.Only.tag {p : Prog C R α} (hp : p.Only P) (i : ι) :
    (p.tag i).Only fun x => P x.2 := by
  induction p with
  | pure a => trivial
  | call c k ih => exact ⟨hp.1, fun r => ih r (hp.2 r)⟩
  | choose p q ihp ihq => exact ⟨ihp hp.1, ihq hp.2⟩

theorem Prog.Only.translate {D : Type} {S : D → Type} {f : C → D}
    {g : (c : C) → S (f c) → R c} {P' : D → Prop} {p : Prog C R α} (hp : p.Only P)
    (hf : ∀ c, P c → P' (f c)) : (p.translate f g).Only P' := by
  induction p with
  | pure a => trivial
  | call c k ih => exact ⟨hf c hp.1, fun r => ih _ (hp.2 _)⟩
  | choose p q ihp ihq => exact ⟨ihp hp.1, ihq hp.2⟩

/-- A program of harmless calls keeps what the others and harmless calls keep. -/
theorem wp_of_only {K : Contract C σ} {p : Prog C R α} {I : σ → Prop} {s : σ}
    (hp : p.Only P) (hI : I s) (hrely : ∀ s s', I s → K.rely s s' → I s')
    (hcall : ∀ c s r s', P c → I s → H c s r s' → K.guar c s s' ∧ I s') :
    wp H K p (fun _ => I) s := by
  induction p generalizing s with
  | pure a => exact fun t ht => hrely s t hI ht
  | call c k ih =>
    intro t ht r u hu
    obtain ⟨hg, hu'⟩ := hcall c t r u hp.1 (hrely s t hI ht) hu
    exact ⟨hg, ih r (hp.2 r) hu'⟩
  | choose p q ihp ihq => exact ⟨ihp hp.1 hI, ihq hp.2 hI⟩

end Minikura.Concurrency
