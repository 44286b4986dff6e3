import Mathlib.Data.Set.Basic
import Minikura.Concurrency.Loose

/-!
# Faults and who mends them

A fault is something wrong with the state that a program may cause for a while, as long as
it puts it right before it ends. A program answers for the faults handed to it and for those
its own calls cause, and for no others, so that concurrent programs are judged one at a time.

## Main definitions

* `Mends` — which of its faults a program may leave behind.
* `Tidy`, `Careful`, `CarefulLoose` — a program that leaves none.

## Main results

* `mends_bind`, `mends_frame`, `mends_par` — composition.
* `mends_race`, `mends_settle` — programs that nobody waits for answer for their faults too.
* `Tidy.faultless` — a run of a tidy program ends without a fault if it starts without one.
-/

namespace Minikura.Concurrency

variable {C : Type} {R : C → Type} {T : C → Type} {α β σ κ ε : Type}

/-- A program that answers for the faults in `D` ends with faults that `Q` admits. A call adds
the faults it causes to the ones to answer for, and takes away what it mends. -/
def MendsTo (H : Handler C R σ) (fault : κ → σ → Prop) :
    Set κ → Prog C R α → (α → Set κ → Prop) → Prop
  | D, .pure a, Q => Q a D
  | D, .call c f, Q => ∀ s r s', H c s r s' →
      MendsTo H fault {k | fault k s' ∧ (k ∈ D ∨ ¬fault k s)} (f r) Q
  | D, .choose p q, Q => MendsTo H fault D p Q ∧ MendsTo H fault D q Q

/-- It ends with none but those in `Q`. -/
abbrev Mends (H : Handler C R σ) (fault : κ → σ → Prop) (D : Set κ) (p : Prog C R α)
    (Q : α → Set κ) : Prop := MendsTo H fault D p fun a E => E ⊆ Q a

/-- Whatever the program does to the state, it puts right again. -/
def Tidy (H : Handler C R σ) (fault : κ → σ → Prop) (p : Prog C R α) : Prop :=
  Mends H fault ∅ p fun _ => ∅

variable {H : Handler C R σ} {Env : σ → σ → Prop} {fault : κ → σ → Prop} {D E : Set κ}

/-! ## Structural rules -/

/-- A program that is handed more faults than it needs leaves the others as they are. -/
theorem mendsTo_frame {p : Prog C R α} {Q Q' : α → Set κ → Prop} {F : Set κ}
    (h : MendsTo H fault D p Q) (hF : F ⊆ D ∪ E)
    (hQ : ∀ a G G', Q a G → G' ⊆ G ∪ E → Q' a G') : MendsTo H fault F p Q' := by
  induction p generalizing D F with
  | pure a => exact hQ a D F h hF
  | call c f ih =>
    intro s r s' hc
    refine ih r (h s r s' hc) ?_
    rintro k ⟨hk, hD | hs⟩
    · exact (hF hD).imp_left fun hD => ⟨hk, .inl hD⟩
    · exact .inl ⟨hk, .inr hs⟩
  | choose p q ihp ihq => exact ⟨ihp h.1 hF, ihq h.2 hF⟩

theorem mends_frame {p : Prog C R α} {Q : α → Set κ} (h : Mends H fault D p Q) (E : Set κ) :
    Mends H fault (D ∪ E) p fun a => Q a ∪ E :=
  mendsTo_frame h subset_rfl fun _ _ _ hG hG' =>
    hG'.trans (Set.union_subset_union_left E hG)

theorem mends_mono {p : Prog C R α} {Q Q' : α → Set κ} (h : Mends H fault D p Q) (hD : E ⊆ D)
    (hQ : ∀ a, Q a ⊆ Q' a) : Mends H fault E p Q' :=
  mendsTo_frame h (hD.trans Set.subset_union_left) fun a _ _ hG hG' =>
    (hG'.trans (Set.union_subset hG (Set.empty_subset _))).trans (hQ a)

/-- The faults after a call, when they are known for every answer. -/
theorem mends_call {c : C} {f : R c → Prog C R α} {Q : α → Set κ} (E : R c → Set κ)
    (hE : ∀ s r s' k, H c s r s' → fault k s' → k ∈ D ∨ ¬fault k s → k ∈ E r)
    (h : ∀ r, Mends H fault (E r) (f r) Q) : Mends H fault D (.call c f) Q :=
  fun s r s' hc => mends_mono (h r) (fun k hk => hE s r s' k hc hk.1 hk.2) fun _ => subset_rfl

theorem mendsTo_bind {p : Prog C R α} {f : α → Prog C R β} {Q : β → Set κ → Prop}
    (h : MendsTo H fault D p fun a E => MendsTo H fault E (f a) Q) :
    MendsTo H fault D (p.bind f) Q := by
  induction p generalizing D with
  | pure a => exact h
  | call c g ih => exact fun s r s' hc => ih r (h s r s' hc)
  | choose p q ihp ihq => exact ⟨ihp h.1, ihq h.2⟩

theorem mends_bind {p : Prog C R α} {f : α → Prog C R β} {Q : α → Set κ} {Q' : β → Set κ}
    (hp : Mends H fault D p Q) (hf : ∀ a, Mends H fault (Q a) (f a) Q') :
    Mends H fault D (p.bind f) Q' :=
  mendsTo_bind (mendsTo_frame hp Set.subset_union_left fun a _ _ hG hG' =>
    mends_mono (hf a) (hG'.trans (Set.union_subset hG (Set.empty_subset _))) fun _ => subset_rfl)

/-- Of two handlers, the one that does less. -/
theorem mends_handler {H' : Handler C R σ} {p : Prog C R α} {Q : α → Set κ}
    (h : Mends H fault D p Q) (hH : ∀ c s r s', H' c s r s' → H c s r s') :
    Mends H' fault D p Q := by
  induction p generalizing D with
  | pure a => exact h
  | call c f ih => exact fun s r s' hc => ih r (h s r s' (hH c s r s' hc))
  | choose p q ihp ihq => exact ⟨ihp h.1, ihq h.2⟩

theorem mends_translate {C' : Type} {R' : C' → Type} {H : Handler C' R' σ} {f : C → C'}
    {g : (c : C) → R' (f c) → R c} {p : Prog C R α} {Q : α → Set κ}
    (h : Mends (H.through f g) fault D p Q) : Mends H fault D (p.translate f g) Q := by
  induction p generalizing D with
  | pure a => exact h
  | call c k ih => exact fun s r s' hc => ih _ (h s _ s' ⟨r, hc, rfl⟩)
  | choose p q ihp ihq => exact ⟨ihp h.1, ihq h.2⟩

/-! ## Parallel composition -/

theorem mendsTo_moveOr {head : Prog C R β → Prog C R α} {q : Prog C R β}
    {Q : α → Set κ → Prop} {Q₂ : β → Set κ → Prop} {F : Set κ}
    (hhead : ∀ q E F, MendsTo H fault E q Q₂ → F ⊆ D ∪ E → MendsTo H fault F (head q) Q)
    (hq : MendsTo H fault E q Q₂) (hF : F ⊆ D ∪ E) : MendsTo H fault F (q.moveOr head) Q := by
  induction q generalizing E F with
  | pure b => exact hhead _ _ _ hq hF
  | call c f ih =>
    refine ⟨hhead _ _ _ hq hF, fun s r s' hc => ih r (hq s r s' hc) ?_⟩
    rintro k ⟨hk, hold | hs⟩
    · exact (hF hold).imp_right fun hE => ⟨hk, .inl hE⟩
    · exact .inr ⟨hk, .inr hs⟩
  | choose q q' ihq ihq' => exact ⟨hhead _ _ _ hq hF, ihq hq.1 hF, ihq' hq.2 hF⟩

/-- A fault of either side is still its own after a call of the left one. -/
theorem split_faults {F : Set κ} {s s' : σ} (hF : F ⊆ D ∪ E) :
    {k | fault k s' ∧ (k ∈ F ∨ ¬fault k s)} ⊆ {k | fault k s' ∧ (k ∈ D ∨ ¬fault k s)} ∪ E := by
  rintro k ⟨hk, hold | hs⟩
  · exact (hF hold).imp_left fun hD => ⟨hk, .inl hD⟩
  · exact .inl ⟨hk, .inr hs⟩

/-- Each of two concurrent programs answers for its own faults. -/
theorem mendsTo_par {p : Prog C R α} {q : Prog C R β} {Q : α → Set κ} {Q₂ : β → Set κ}
    {F : Set κ} (hp : Mends H fault D p Q) (hq : Mends H fault E q Q₂) (hF : F ⊆ D ∪ E) :
    Mends H fault F (p.par q) fun x => Q x.1 ∪ Q₂ x.2 := by
  induction p generalizing D E F q with
  | pure a =>
    refine mends_bind (mends_mono (mends_frame hq D) (hF.trans (Set.union_comm D E).subset)
      fun _ => subset_rfl) fun b => ?_
    exact Set.union_subset Set.subset_union_right (hp.trans Set.subset_union_left)
  | call c f ih =>
    exact mendsTo_moveOr (fun q E F hq hF s r s' hc => ih r (hp s r s' hc) hq (split_faults hF))
      hq hF
  | choose p p' ihp ihp' =>
    exact mendsTo_moveOr (fun q E F hq hF => ⟨ihp hp.1 hq hF, ihp' hp.2 hq hF⟩) hq hF

theorem mends_par {p : Prog C R α} {q : Prog C R β} {Q : α → Set κ} {Q₂ : β → Set κ}
    (hp : Mends H fault D p Q) (hq : Mends H fault E q Q₂) :
    Mends H fault (D ∪ E) (p.par q) fun x => Q x.1 ∪ Q₂ x.2 := mendsTo_par hp hq subset_rfl

/-! ## Tidy programs -/

theorem Tidy.pure {a : α} : Tidy H fault (.pure a : Prog C R α) := subset_rfl

/-- A tidy program leaves the faults of others as they are. -/
theorem Tidy.mends {p : Prog C R α} (h : Tidy H fault p) (D : Set κ) :
    Mends H fault D p fun _ => D :=
  mends_mono (mends_frame h D) Set.subset_union_right fun _ => (Set.empty_union D).subset

theorem Mends.tidy {p : Prog C R α} (h : Mends H fault D p fun _ => ∅) : Tidy H fault p :=
  mends_mono h (Set.empty_subset D) fun _ => subset_rfl

theorem Tidy.bind {p : Prog C R α} {f : α → Prog C R β} (hp : Tidy H fault p)
    (hf : ∀ a, Tidy H fault (f a)) : Tidy H fault (p.bind f) := mends_bind hp hf

theorem Tidy.par {p : Prog C R α} {q : Prog C R β} (hp : Tidy H fault p)
    (hq : Tidy H fault q) : Tidy H fault (p.par q) :=
  mends_mono (mends_par hp hq) (Set.empty_subset _) fun _ => (Set.union_empty ∅).subset

theorem Tidy.allSettled {ps : List (Prog C R α)} (h : ∀ p ∈ ps, Tidy H fault p) :
    Tidy H fault (Prog.allSettled ps) := by
  induction ps with
  | nil => exact .pure
  | cons p ps ih =>
    exact ((h p (by simp)).par (ih fun q hq => h q (by simp [hq]))).bind fun _ => .pure

/-- Calls that cause no fault. -/
theorem Tidy.of_only {P : C → Prop} {p : Prog C R α} (hp : p.Only P)
    (hP : ∀ c s r s' k, P c → H c s r s' → fault k s' → fault k s) : Tidy H fault p := by
  induction p with
  | pure a => exact .pure
  | call c f ih =>
    refine mends_call (fun _ => ∅) (fun s r s' k hc hk hs => ?_) fun r => ih r (hp.2 r)
    exact hs.elim id fun hs => absurd (hP c s r s' k hp.1 hc hk) hs
  | choose p q ihp ihq => exact ⟨ihp hp.1, ihq hp.2⟩

/-! ## Programs that fail early -/

section Loose

open Loose

variable {p : Prog C R (Except (Failure ε C R) α)} {q : Prog C R (Except (Failure ε C R) β)}

/-- No fault after a success, and after a failure those that what is left mends. -/
def Handed (H : Handler C R σ) (fault : κ → σ → Prop) :
    Except (Failure ε C R) α → Set κ → Prop
  | .ok _, F => F ⊆ ∅
  | .error x, F => Mends H fault F x.2 fun _ => ∅

theorem Handed.mono {r : Except (Failure ε C R) α} (h : Handed H fault r D) (hE : E ⊆ D) :
    Handed H fault r E := by
  cases r with
  | ok a => exact hE.trans h
  | error x => exact mends_mono h hE fun _ => subset_rfl

/-- What comes next has to do with no more than what was handed over. -/
theorem handed_bind {γ : Type} {f : Except (Failure ε C R) α → Prog C R γ}
    {Q : γ → Set κ → Prop} (hp : MendsTo H fault D p (Handed H fault)) (hE : E ⊆ D)
    (hf : ∀ r F, Handed H fault r F → MendsTo H fault F (f r) Q) :
    MendsTo H fault E (p.bind f) Q :=
  mendsTo_bind (mendsTo_frame hp (hE.trans Set.subset_union_left) fun r G _ hG hG' =>
    hf r _ (hG.mono (hG'.trans (Set.union_empty G).subset)))

theorem handed_mono (h : MendsTo H fault D p (Handed H fault)) (hE : E ⊆ D) :
    MendsTo H fault E p (Handed H fault) := by
  rw [← Prog.bind_pure p]
  exact handed_bind h hE fun _ _ hF => hF

theorem mends_rest (h : MendsTo H fault D p (Handed H fault)) :
    Mends H fault D (rest p) fun _ => ∅ := by
  refine handed_bind h subset_rfl fun r F hF => ?_
  cases r <;> exact hF

theorem mends_beside {p q : Prog C R Unit} {F : Set κ} (hp : Mends H fault D p fun _ => ∅)
    (hq : Mends H fault E q fun _ => ∅) (hF : F ⊆ D ∪ E) :
    Mends H fault F (beside p q) fun _ => ∅ :=
  mends_bind (mendsTo_par hp hq hF) fun _ => (Set.union_empty ∅).subset

theorem mends_unlessFailed {left : Prog C R Unit} {go : Prog C R (Except (Failure ε C R) γ)}
    {F : Set κ} (hleft : Mends H fault D left fun _ => ∅)
    (hq : MendsTo H fault E q (Handed H fault)) (hF : F ⊆ D ∪ E)
    (hgo : MendsTo H fault F go (Handed H fault)) :
    MendsTo H fault F (unlessFailed left q go) (Handed H fault) := by
  unfold unlessFailed
  split
  · exact mends_beside hleft hq hF
  · exact hgo

theorem mends_race {F : Set κ} (hp : MendsTo H fault D p (Handed H fault))
    (hq : MendsTo H fault E q (Handed H fault)) (hF : F ⊆ D ∪ E) :
    MendsTo H fault F (race p q) (Handed H fault) := by
  induction p generalizing D E F q with
  | pure r =>
    cases r with
    | ok a =>
      have hFE : F ⊆ E := hF.trans (Set.union_subset (hp.trans (Set.empty_subset E)) subset_rfl)
      refine handed_bind hq hFE fun r G hG => ?_
      cases r <;> exact hG
    | error x => exact mends_beside hp (mends_rest hq) hF
  | call c k ih =>
    refine mendsTo_moveOr (fun q E F hq hF => ?_) hq hF
    refine mends_unlessFailed (mends_rest hp) hq hF fun s r s' hc => ?_
    exact ih r (hp s r s' hc) hq (split_faults hF)
  | choose p p' ihp ihp' =>
    refine mendsTo_moveOr (fun q E F hq hF => ?_) hq hF
    exact mends_unlessFailed (mends_rest hp) hq hF ⟨ihp hp.1 hq hF, ihp' hp.2 hq hF⟩

/-- What is done with the outcome mends what it is given, whatever is still under way. -/
theorem mends_settle {H : Handler C (Settled ε T) σ} {p : Loose ε T α}
    {next : Except ε α → Async ε T β} {Q : Except ε β → Set κ}
    (hp : MendsTo H fault ∅ p.run (Handed H fault))
    (hnext : ∀ r, Mends H fault D (next r).run Q) : Mends H fault D (p.settle next).run Q := by
  refine mendsTo_bind (mendsTo_frame (E := D) hp Set.subset_union_right fun r G G' hG hG' => ?_)
  cases r with
  | ok a =>
    have hD : G' ⊆ D := hG'.trans (Set.union_subset (hG.trans (Set.empty_subset D)) subset_rfl)
    exact mends_mono (hnext (.ok a)) hD fun _ => subset_rfl
  | error x =>
    refine mends_bind (mendsTo_par hG (hnext (.error x.1)) hG') fun y => ?_
    exact (Set.empty_union _).subset

end Loose

/-! ## Careful programs -/

/-- A tidy program of permitted calls. -/
structure Careful (H : Handler C R σ) (fault : κ → σ → Prop) (P : C → Prop) (p : Prog C R α) :
    Prop where
  tidy : Tidy H fault p
  only : p.Only P

namespace Careful

variable {P : C → Prop}

theorem pure {a : α} : Careful H fault P (.pure a : Prog C R α) := ⟨.pure, trivial⟩

theorem bind {p : Prog C R α} {f : α → Prog C R β} (hp : Careful H fault P p)
    (hf : ∀ a, Careful H fault P (f a)) : Careful H fault P (p.bind f) :=
  ⟨hp.tidy.bind fun a => (hf a).tidy, hp.only.bind fun a => (hf a).only⟩

theorem allSettled {ps : List (Prog C R α)} (h : ∀ p ∈ ps, Careful H fault P p) :
    Careful H fault P (Prog.allSettled ps) :=
  ⟨.allSettled fun p hp => (h p hp).tidy, .allSettled fun p hp => (h p hp).only⟩

theorem async_bind {H : Handler C (Settled ε T) σ} {p : Async ε T α} {f : α → Async ε T β}
    (hp : Careful H fault P p.run) (hf : ∀ a, Careful H fault P (f a).run) :
    Careful H fault P (p >>= f).run := by
  rw [Async.run_bind]
  refine hp.bind fun r => ?_
  cases r with
  | ok a => exact hf a
  | error e => exact .pure

theorem attempt {H : Handler C (Settled ε T) σ} {p : Async ε T α}
    (hp : Careful H fault P p.run) : Careful H fault P p.attempt.run :=
  hp.bind fun _ => .pure

end Careful

/-- The same of a computation that may fail early: its faults are mended when all of it has
ended. -/
structure CarefulLoose (H : Handler C (Settled ε T) σ) (fault : κ → σ → Prop) (P : C → Prop)
    (p : Loose ε T α) : Prop where
  tidy : MendsTo H fault ∅ p.run (Handed H fault)
  only : Loose.Only P p

namespace CarefulLoose

variable {H : Handler C (Settled ε T) σ} {P : C → Prop}

theorem pure {a : α} : CarefulLoose H fault P (Pure.pure a : Loose ε T α) :=
  ⟨subset_rfl, trivial⟩

theorem bind {p : Loose ε T α} {f : α → Loose ε T β} (hp : CarefulLoose H fault P p)
    (hf : ∀ a, CarefulLoose H fault P (f a)) : CarefulLoose H fault P (p >>= f) := by
  refine ⟨?_, Loose.only_bind hp.only fun a => (hf a).only⟩
  rw [Loose.run_bind]
  refine handed_bind hp.tidy subset_rfl fun r F hF => ?_
  cases r with
  | ok a => exact handed_mono (hf a).tidy hF
  | error x => exact hF

theorem ofAsync {p : Async ε T α} (hp : Careful H fault P p.run) :
    CarefulLoose H fault P (Loose.ofAsync p) := by
  refine ⟨mendsTo_bind (mendsTo_frame (E := ∅) hp.tidy Set.subset_union_left
    fun r G G' hG hG' => ?_), Loose.only_ofAsync hp.only⟩
  have hsub : G' ⊆ ∅ := (hG'.trans (Set.union_empty G).subset).trans hG
  cases r <;> exact hsub

theorem both {p : Loose ε T α} {q : Loose ε T β} (hp : CarefulLoose H fault P p)
    (hq : CarefulLoose H fault P q) : CarefulLoose H fault P (Loose.both p q) :=
  ⟨mends_race hp.tidy hq.tidy (Set.empty_subset _), Loose.only_both hp.only hq.only⟩

theorem all {ps : List (Loose ε T α)} (h : ∀ p ∈ ps, CarefulLoose H fault P p) :
    CarefulLoose H fault P (Loose.all ps) := by
  induction ps with
  | nil => exact .pure
  | cons p ps ih =>
    exact .bind (.both (h p (by simp)) (ih fun q hq => h q (by simp [hq]))) fun _ => .pure

end CarefulLoose

/-! ## Runs -/

/-- The program answers for every fault there is. -/
def Answerable (H : Handler C R σ) (fault : κ → σ → Prop) (Q : α → Set κ)
    (x : Prog C R α × σ) : Prop :=
  Mends H fault {k | fault k x.2} x.1 Q

theorem answerable_step {x y : Prog C R α × σ} {Q : α → Set κ}
    (hEnv : ∀ s s' k, Env s s' → fault k s' → fault k s) (hxy : Step H Env x y)
    (h : Answerable H fault Q x) : Answerable H fault Q y := by
  cases hxy with
  | @call c f s r s' hc =>
    refine mends_mono (h s r s' hc) ?_ fun _ => subset_rfl
    exact fun k hk => ⟨hk, em (fault k s)⟩
  | left => exact h.1
  | right => exact h.2
  | env he => exact mends_mono h (fun k hk => hEnv _ _ k he hk) fun _ => subset_rfl

theorem answerable_steps {x y : Prog C R α × σ} {Q : α → Set κ}
    (hEnv : ∀ s s' k, Env s s' → fault k s' → fault k s) (hxy : Steps H Env x y)
    (h : Answerable H fault Q x) : Answerable H fault Q y := by
  induction hxy with
  | refl => exact h
  | tail _ hstep ih => exact answerable_step hEnv hstep ih

/-- A program that starts with no fault and mends its own ends with no fault, if its
environment causes none. -/
theorem Tidy.faultless {p : Prog C R α} {a : α} {s s' : σ} (h : Tidy H fault p)
    (hEnv : ∀ s s' k, Env s s' → fault k s' → fault k s) (hs : ∀ k, ¬fault k s)
    (run : Steps H Env (p, s) (.pure a, s')) (k : κ) : ¬fault k s' := by
  have start : Answerable H fault (fun _ => ∅) (p, s) := mends_mono h hs fun _ => subset_rfl
  have last : Answerable H fault (fun _ => ∅) ((.pure a : Prog C R α), s') :=
    answerable_steps hEnv run start
  exact fun hk => last hk

end Minikura.Concurrency
