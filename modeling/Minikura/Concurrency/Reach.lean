import Minikura.Concurrency.RelyGuarantee

/-!
# Runs that exist

`Reaches` is the counterpart of `wp`: some run of the program ends as asked. The
scheduler is on our side, so of two parallel programs we choose which one runs to
its end first.

## Main results

* `Reaches.par_left`, `Reaches.par_right` — sequential schedules of a composition.
* `Reaches.allSettled_last` — any one of the programs may be the last to run.
* `reaches_of_wp` — a correct program of a handler that always answers has a run.
-/

namespace Minikura.Concurrency

variable {C : Type} {R : C → Type} {α β σ : Type}

/-- Some run of the program from `s` ends with an answer and a state in `Q`. -/
def Reaches (H : Handler C R σ) (Env : σ → σ → Prop) (p : Prog C R α) (s : σ)
    (Q : α → σ → Prop) : Prop :=
  ∃ a s', Steps H Env (p, s) (.pure a, s') ∧ Q a s'

variable {H : Handler C R σ} {Env : σ → σ → Prop} {s : σ}

theorem Reaches.pure {a : α} {Q : α → σ → Prop} (h : Q a s) :
    Reaches H Env (.pure a) s Q := ⟨a, s, .refl, h⟩

theorem Reaches.mono {p : Prog C R α} {Q Q' : α → σ → Prop} (h : Reaches H Env p s Q)
    (hQ : ∀ a s, Q a s → Q' a s) : Reaches H Env p s Q' := by
  obtain ⟨a, t, run, ht⟩ := h
  exact ⟨a, t, run, hQ a t ht⟩

theorem Reaches.bind {p : Prog C R α} {f : α → Prog C R β} {Q : β → σ → Prop}
    (h : Reaches H Env p s fun a s' => Reaches H Env (f a) s' Q) :
    Reaches H Env (p.bind f) s Q := by
  obtain ⟨a, t, run, b, u, run', hu⟩ := h
  exact ⟨b, u, run.seq run', hu⟩

theorem Reaches.call {c : C} {k : R c → Prog C R α} {Q : α → σ → Prop} {r : R c} {s' : σ}
    (hc : H c s r s') (h : Reaches H Env (k r) s' Q) : Reaches H Env (.call c k) s Q := by
  obtain ⟨a, t, run, ht⟩ := h
  exact ⟨a, t, .head (.call hc) run, ht⟩

theorem Reaches.par_left {p : Prog C R α} {q : Prog C R β} {Q : α × β → σ → Prop}
    (h : Reaches H Env p s fun a s' => Reaches H Env q s' fun b => Q (a, b)) :
    Reaches H Env (p.par q) s Q := by
  obtain ⟨a, t, run, b, u, run', hu⟩ := h
  exact ⟨(a, b), u, run.par_left (run'.seq .refl), hu⟩

theorem Reaches.par_right {p : Prog C R α} {q : Prog C R β} {Q : α × β → σ → Prop}
    (h : Reaches H Env q s fun b s' => Reaches H Env p s' fun a => Q (a, b)) :
    Reaches H Env (p.par q) s Q := by
  obtain ⟨b, t, run, a, u, run', hu⟩ := h
  refine ⟨(a, b), u, run.par_right ?_, hu⟩
  rw [Prog.par_pure]
  exact run'.seq .refl

theorem Reaches.allSettled {ps : List (Prog C R α)} {P : α → Prop}
    (h : ∀ p ∈ ps, ∀ s, Reaches H Env p s fun a _ => P a) :
    Reaches H Env (Prog.allSettled ps) s fun as _ => ∀ a ∈ as, P a := by
  induction ps generalizing s with
  | nil => exact .pure (by simp)
  | cons p ps ih =>
    refine .bind (.par_left ((h p (by simp) s).mono fun a t ha => ?_))
    refine (ih fun q hq => h q (by simp [hq])).mono fun as u has => .pure ?_
    simpa using ⟨ha, has⟩

/-- Whichever of the programs we like runs after all the others have ended. -/
theorem Reaches.allSettled_last {ps : List (Prog C R α)} {q : Prog C R α} {P : α → Prop}
    {Q : σ → Prop} (hq : q ∈ ps) (h : ∀ p ∈ ps, ∀ s, Reaches H Env p s fun a _ => P a)
    (hlast : ∀ s, Reaches H Env q s fun a s' => P a ∧ Q s') :
    Reaches H Env (Prog.allSettled ps) s fun as s' => (∀ a ∈ as, P a) ∧ Q s' := by
  induction ps generalizing s with
  | nil => cases hq
  | cons p ps ih =>
    have hps : ∀ p ∈ ps, ∀ s, Reaches H Env p s fun a _ => P a :=
      fun p hp => h p (List.mem_cons_of_mem _ hp)
    rcases List.mem_cons.mp hq with rfl | hq
    · refine .bind (.par_right ((Reaches.allSettled hps).mono fun as t has => ?_))
      refine (hlast t).mono fun a u ha => .pure ?_
      exact ⟨by simpa using ⟨ha.1, has⟩, ha.2⟩
    · refine .bind (.par_left ((h p (by simp) s).mono fun a t ha => ?_))
      refine (ih hq hps).mono fun as u has => .pure ?_
      exact ⟨by simpa using ⟨ha, has.1⟩, has.2⟩

theorem reaches_of_wp {K : Contract C σ} {p : Prog C R α} {Q : α → σ → Prop}
    (total : ∀ c s, ∃ r s', H c s r s') (hEnv : ∀ s s', Env s s' → K.rely s s')
    (h : wp H K p Q s) : Reaches H Env p s Q := by
  obtain ⟨a, t, run⟩ : ∃ a t, Steps H Env (p, s) (.pure a, t) := exists_run total p s
  exact ⟨a, t, run, wp_result h hEnv run⟩

end Minikura.Concurrency
