import Mathlib.Data.List.Basic
import Mathlib.Logic.Relation

/-!
# Labelled machines

A system whose every step is named by a label that carries all choices of the step, so
that a step is a partial function. What holds of the runs whose steps meet a condition
is proved one step at a time; a list of labels is a run one can compute.

## Main results

* `Runs.invariant` — what every permitted step preserves holds in every state reached.
* `runs_of_labels`, `runs_of_checked` — the runs computed from a list of labels exist.
-/

namespace Minikura.Concurrency

variable {S L : Type}

/-- Some permitted steps lead from one state to the other. -/
def Runs (step : S → L → Option S) (ok : S → L → Prop) : S → S → Prop :=
  Relation.ReflTransGen fun s t => ∃ l, ok s l ∧ step s l = some t

/-- Every step is permitted. -/
def Anything : S → L → Prop := fun _ _ => True

variable {step : S → L → Option S} {ok : S → L → Prop} {s t : S}

theorem Runs.refl : Runs step ok s s := Relation.ReflTransGen.refl

theorem Runs.tail {u : S} {l : L} (h : Runs step ok s t) (hok : ok t l)
    (hstep : step t l = some u) : Runs step ok s u :=
  Relation.ReflTransGen.tail h ⟨l, hok, hstep⟩

theorem Runs.anything (h : Runs step ok s t) : Runs step Anything s t :=
  Relation.ReflTransGen.mono (fun _ _ ⟨l, _, hstep⟩ => ⟨l, trivial, hstep⟩) _ _ h

theorem Runs.invariant {I : S → Prop}
    (preserved : ∀ s l t, I s → ok s l → step s l = some t → I t)
    (h : Runs step ok s t) (hs : I s) : I t := by
  induction h with
  | refl => exact hs
  | tail _ hlast ih =>
    obtain ⟨l, hok, hstep⟩ := hlast
    exact preserved _ l _ ih hok hstep

/-- Take the steps of the labels in turn. -/
def runLabels (step : S → L → Option S) (s : S) (labels : List L) : Option S :=
  labels.foldlM step s

theorem runs_of_labels {labels : List L} (hok : ∀ l ∈ labels, ∀ s, ok s l)
    (h : runLabels step s labels = some t) : Runs step ok s t := by
  induction labels generalizing s with
  | nil => exact Option.some.inj h ▸ .refl
  | cons l labels ih =>
    rw [runLabels, List.foldlM_cons, Option.bind_eq_bind, Option.bind_eq_some_iff] at h
    obtain ⟨u, hstep, hrest⟩ := h
    exact .head ⟨l, hok l (by simp) s, hstep⟩ (ih (fun l hl => hok l (by simp [hl])) hrest)

/-- Take the steps of the labels as long as a check lets them pass. -/
def runChecked (check : S → L → Bool) (step : S → L → Option S) (s : S) (labels : List L) :
    Option S :=
  runLabels (fun s l => if check s l then step s l else none) s labels

theorem runs_of_checked {check : S → L → Bool} (hok : ∀ s l, check s l → ok s l)
    {labels : List L} (h : runChecked check step s labels = some t) : Runs step ok s t := by
  have run : Runs _ Anything s t := runs_of_labels (fun _ _ _ => trivial) h
  refine Relation.ReflTransGen.mono ?_ _ _ run
  rintro u v ⟨l, -, huv⟩
  dsimp only at huv
  split_ifs at huv with hl
  exact ⟨l, hok u l hl, huv⟩

end Minikura.Concurrency
