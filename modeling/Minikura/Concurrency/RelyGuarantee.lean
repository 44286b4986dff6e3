import Mathlib.Data.List.Forall2
import Minikura.Concurrency.Prog

/-!
# Rely-guarantee reasoning

A contract says which steps of the others a program must tolerate and which steps
it takes itself. `wp` is the weakest precondition of a program under a contract:
before each call the others may have moved. Contracts that tolerate each other
compose, so a property of all interleavings is proved one program at a time.

## Main results

* `wp_bind` — sequential composition.
* `wp_par`, `wp_allSettled` — parallel composition of compatible contracts.
* `wp_steps` — `wp` is an invariant of every run.
-/

namespace Minikura.Concurrency

variable {C : Type} {R : C → Type} {α β σ μ ι : Type}

/-- The steps a program tolerates from the others, and those it takes itself. -/
structure Contract (C σ : Type) where
  rely : σ → σ → Prop
  guar : C → σ → σ → Prop
  refl : ∀ s, rely s s
  trans : ∀ s t u, rely s t → rely t u → rely s u

namespace Contract

/-- Each of the two tolerates the steps of the other. -/
def Compatible (K L : Contract C σ) : Prop :=
  (∀ c s s', K.guar c s s' → L.rely s s') ∧ (∀ c s s', L.guar c s s' → K.rely s s')

/-- `K` promises no less than `L` and asks for no more. -/
structure Refines (K L : Contract C σ) : Prop where
  rely : ∀ s s', L.rely s s' → K.rely s s'
  guar : ∀ c s s', K.guar c s s' → L.guar c s s'

def par (K L : Contract C σ) : Contract C σ where
  rely s s' := K.rely s s' ∧ L.rely s s'
  guar c s s' := K.guar c s s' ∨ L.guar c s s'
  refl s := ⟨K.refl s, L.refl s⟩
  trans s t u h h' := ⟨K.trans s t u h.1 h'.1, L.trans s t u h.2 h'.2⟩

/-- The contract of all programs of a list together. -/
def all (K : ι → Contract C σ) (l : List ι) : Contract C σ where
  rely s s' := ∀ i ∈ l, (K i).rely s s'
  guar c s s' := ∃ i ∈ l, (K i).guar c s s'
  refl s i _ := (K i).refl s
  trans s t u h h' i hi := (K i).trans s t u (h i hi) (h' i hi)

/-- Nobody else moves. -/
def alone (guar : C → σ → σ → Prop) : Contract C σ where
  rely s s' := s' = s
  guar := guar
  refl _ := rfl
  trans _ _ _ h h' := h'.trans h

end Contract

/-- Weakest precondition under a contract. -/
def wp (H : Handler C R σ) (K : Contract C σ) :
    Prog C R α → (α → σ → Prop) → σ → Prop
  | .pure a, Q, s => ∀ s', K.rely s s' → Q a s'
  | .call c k, Q, s => ∀ s', K.rely s s' → ∀ r s'', H c s' r s'' →
      K.guar c s' s'' ∧ wp H K (k r) Q s''
  | .choose p q, Q, s => wp H K p Q s ∧ wp H K q Q s

variable {H : Handler C R σ} {Env : σ → σ → Prop} {K L : Contract C σ}

/-! ## Structural rules -/

/-- A weakest precondition survives the steps of the others. -/
theorem wp_rely {p : Prog C R α} {Q : α → σ → Prop} {s s' : σ}
    (h : wp H K p Q s) (hs : K.rely s s') : wp H K p Q s' := by
  induction p with
  | pure a => exact fun t ht => h t (K.trans _ _ _ hs ht)
  | call c k => exact fun t ht => h t (K.trans _ _ _ hs ht)
  | choose p q ihp ihq => exact ⟨ihp h.1, ihq h.2⟩

theorem wp_mono {p : Prog C R α} {Q Q' : α → σ → Prop} {s : σ}
    (h : wp H K p Q s) (hQ : ∀ a s, Q a s → Q' a s) : wp H K p Q' s := by
  induction p generalizing s with
  | pure a => exact fun t ht => hQ _ _ (h t ht)
  | call c k ih =>
    intro t ht r u hu
    exact ⟨(h t ht r u hu).1, ih r (h t ht r u hu).2⟩
  | choose p q ihp ihq => exact ⟨ihp h.1, ihq h.2⟩

theorem wp_refines {p : Prog C R α} {Q : α → σ → Prop} {s : σ}
    (h : wp H K p Q s) (hKL : K.Refines L) : wp H L p Q s := by
  induction p generalizing s with
  | pure a => exact fun t ht => h t (hKL.rely _ _ ht)
  | call c k ih =>
    intro t ht r u hu
    obtain ⟨hg, hk⟩ := h t (hKL.rely _ _ ht) r u hu
    exact ⟨hKL.guar _ _ _ hg, ih r hk⟩
  | choose p q ihp ihq => exact ⟨ihp h.1, ihq h.2⟩

/-- What nobody's steps destroy still holds at the end. -/
theorem wp_stable {p : Prog C R α} {Q : α → σ → Prop} {I : σ → Prop} {s : σ}
    (hrely : ∀ s s', I s → K.rely s s' → I s') (hguar : ∀ c s s', I s → K.guar c s s' → I s')
    (h : wp H K p Q s) (hI : I s) : wp H K p (fun a s => Q a s ∧ I s) s := by
  induction p generalizing s with
  | pure a => exact fun t ht => ⟨h t ht, hrely s t hI ht⟩
  | call c k ih =>
    intro t ht r u hu
    obtain ⟨hg, hk⟩ := h t ht r u hu
    exact ⟨hg, ih r hk (hguar c t u (hrely s t hI ht) hg)⟩
  | choose p q ihp ihq => exact ⟨ihp h.1 hI, ihq h.2 hI⟩

@[simp] theorem wp_bind {p : Prog C R α} {f : α → Prog C R β} {Q : β → σ → Prop} {s : σ} :
    wp H K (p.bind f) Q s ↔ wp H K p (fun a s => wp H K (f a) Q s) s := by
  induction p generalizing s with
  | pure a => exact ⟨fun h t ht => wp_rely h ht, fun h => h s (K.refl s)⟩
  | call c k ih =>
    exact forall₂_congr fun t ht => forall₂_congr fun r u =>
      forall_congr' fun hu => and_congr_right fun _ => ih r
  | choose p q ihp ihq => exact and_congr ihp ihq

theorem wp_map {p : Prog C R α} {f : α → β} {Q : β → σ → Prop} {s : σ} :
    wp H K (p.bind fun a => .pure (f a)) Q s ↔ wp H K p (fun a s => Q (f a) s) s := by
  induction p generalizing s with
  | pure a => exact Iff.rfl
  | call c k ih =>
    exact forall₂_congr fun t ht => forall₂_congr fun r u =>
      forall_congr' fun hu => and_congr_right fun _ => ih r
  | choose p q ihp ihq => exact and_congr ihp ihq

/-! ## Parallel composition -/

/-- If the left side keeps `P` under its own contract, and `head` is correct
whenever it moves from `P`, then so is offering the choice of who moves. -/
theorem wp_moveOr {P : σ → Prop} {head : Prog C R β → Prog C R α} {q : Prog C R β}
    {Q : α → σ → Prop} {Q₂ : β → σ → Prop} {s : σ}
    (hKL : ∀ c s s', L.guar c s s' → K.rely s s')
    (stable : ∀ s s', P s → K.rely s s' → P s')
    (hhead : ∀ q s, P s → wp H L q Q₂ s → wp H (K.par L) (head q) Q s)
    (hP : P s) (hq : wp H L q Q₂ s) : wp H (K.par L) (q.moveOr head) Q s := by
  induction q generalizing s with
  | pure b => exact hhead _ s hP hq
  | call c k ih =>
    refine ⟨hhead _ s hP hq, fun t ht r u hu => ?_⟩
    obtain ⟨hg, hk⟩ := hq t ht.2 r u hu
    exact ⟨.inr hg, ih r (stable t u (stable s t hP ht.1) (hKL c t u hg)) hk⟩
  | choose q q' ihq ihq' => exact ⟨hhead _ s hP hq, ihq hP hq.1, ihq' hP hq.2⟩

theorem wp_par {p : Prog C R α} {q : Prog C R β} {Q₁ : α → σ → Prop} {Q₂ : β → σ → Prop}
    {s : σ} (compat : K.Compatible L) (hp : wp H K p Q₁ s) (hq : wp H L q Q₂ s) :
    wp H (K.par L) (p.par q) (fun x s => Q₁ x.1 s ∧ Q₂ x.2 s) s := by
  induction p generalizing q s with
  | pure a =>
    -- the left side is done: only its postcondition has to survive the right one
    induction q generalizing s with
    | pure b => exact fun t ht => ⟨hp t ht.1, hq t ht.2⟩
    | call c k ih =>
      intro t ht r u hu
      obtain ⟨hg, hk⟩ := hq t ht.2 r u hu
      exact ⟨.inr hg, ih r (fun v hv => hp v (K.trans _ _ _ (K.trans _ _ _ ht.1
        (compat.2 c t u hg)) hv)) hk⟩
    | choose q q' ihq ihq' => exact ⟨ihq hp hq.1, ihq' hp hq.2⟩
  | call c k ih =>
    refine wp_moveOr (P := wp H K (.call c k) Q₁) compat.2 (fun _ _ h ht => wp_rely h ht)
      ?_ hp hq
    intro q s hp hq t ht r u hu
    obtain ⟨hg, hk⟩ := hp t ht.1 r u hu
    exact ⟨.inl hg, ih r hk (wp_rely (wp_rely hq ht.2) (compat.1 c t u hg))⟩
  | choose p p' ihp ihp' =>
    refine wp_moveOr (P := wp H K (.choose p p') Q₁) compat.2 (fun _ _ h ht => wp_rely h ht)
      ?_ hp hq
    exact fun q s hp hq => ⟨ihp hp.1 hq, ihp' hp.2 hq⟩

theorem wp_allSettled {K : ι → Contract C σ} {p : ι → Prog C R α} {Q : ι → α → σ → Prop}
    {l : List ι} {s : σ} (compat : l.Pairwise fun i j => (K i).Compatible (K j))
    (hp : ∀ i ∈ l, wp H (K i) (p i) (Q i) s) :
    wp H (Contract.all K l) (Prog.allSettled (l.map p))
      (fun as s => List.Forall₂ (fun i a => Q i a s) l as) s := by
  induction l with
  | nil => exact fun _ _ => .nil
  | cons i l ih =>
    obtain ⟨hi, hl⟩ := List.pairwise_cons.mp compat
    have hall : (K i).Compatible (Contract.all K l) :=
      ⟨fun c s s' h j hj => (hi j hj).1 c s s' h,
        fun c s s' ⟨j, hj, h⟩ => (hi j hj).2 c s s' h⟩
    have hpar := wp_par hall (hp i (by simp)) (ih hl fun j hj => hp j (by simp [hj]))
    have hcons : ((K i).par (Contract.all K l)).Refines (Contract.all K (i :: l)) :=
      ⟨fun s s' h => ⟨h i (by simp), fun j hj => h j (by simp [hj])⟩,
        fun c s s' h => h.elim (fun h => ⟨i, by simp, h⟩)
          fun ⟨j, hj, h⟩ => ⟨j, by simp [hj], h⟩⟩
    exact wp_map.mpr (wp_mono (wp_refines hpar hcons) fun x s hx => .cons hx.1 hx.2)

/-- The same, for outcomes that need not be told apart. -/
theorem wp_allSettled_forall {K : ι → Contract C σ} {p : ι → Prog C R α} {P : α → Prop}
    {Q : ι → σ → Prop} {l : List ι} {s : σ}
    (compat : l.Pairwise fun i j => (K i).Compatible (K j))
    (hp : ∀ i ∈ l, wp H (K i) (p i) (fun a s => P a ∧ Q i s) s) :
    wp H (Contract.all K l) (Prog.allSettled (l.map p))
      (fun as s => (∀ a ∈ as, P a) ∧ ∀ i ∈ l, Q i s) s := by
  refine wp_mono (wp_allSettled (Q := fun i a s => P a ∧ Q i s) compat hp) fun as t h => ?_
  clear compat hp
  induction h with
  | nil => simp
  | cons h _ ih => simpa using ⟨⟨h.1, ih.1⟩, h.2, ih.2⟩

/-! ## Runs -/

theorem wp_step {x y : Prog C R α × σ} {Q : α → σ → Prop}
    (hEnv : ∀ s s', Env s s' → K.rely s s') (hxy : Step H Env x y)
    (h : wp H K x.1 Q x.2) : wp H K y.1 Q y.2 := by
  cases hxy with
  | call hc => exact (h _ (K.refl _) _ _ hc).2
  | left => exact h.1
  | right => exact h.2
  | env he => exact wp_rely h (hEnv _ _ he)

/-- A weakest precondition is an invariant of every run. -/
theorem wp_steps {x y : Prog C R α × σ} {Q : α → σ → Prop}
    (hEnv : ∀ s s', Env s s' → K.rely s s') (hxy : Steps H Env x y)
    (h : wp H K x.1 Q x.2) : wp H K y.1 Q y.2 := by
  induction hxy with
  | refl => exact h
  | tail _ hyz ih => exact wp_step hEnv hyz ih

/-- A finished run meets its postcondition. -/
theorem wp_result {p : Prog C R α} {Q : α → σ → Prop} {s s' : σ} {a : α}
    (h : wp H K p Q s) (hEnv : ∀ s s', Env s s' → K.rely s s')
    (run : Steps H Env (p, s) (.pure a, s')) : Q a s' :=
  wp_steps (x := (p, s)) (y := (.pure a, s')) hEnv run h s' (K.refl s')

/-- Whatever call a run reaches, it keeps the guarantee. -/
theorem wp_guar {p : Prog C R α} {Q : α → σ → Prop} {s s' s'' : σ} {c : C}
    {k : R c → Prog C R α} {r : R c} (h : wp H K p Q s)
    (hEnv : ∀ s s', Env s s' → K.rely s s') (run : Steps H Env (p, s) (.call c k, s'))
    (hc : H c s' r s'') : K.guar c s' s'' :=
  (wp_steps (x := (p, s)) (y := (.call c k, s')) hEnv run h s' (K.refl s') r s'' hc).1

end Minikura.Concurrency
