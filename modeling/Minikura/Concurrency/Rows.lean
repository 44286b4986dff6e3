import Mathlib.Data.List.Nodup
import Minikura.Concurrency.RelyGuarantee

/-!
# Programs with rows of their own

Programs that run concurrently and write each the row of its own key do not disturb each other,
as long as they keep a common invariant.

## Main definitions

* `own` — the contract of a program with a row of its own.
* `owners` — the contract of several of them together.

## Main result

* `wp_allSettled_own` — each has the result that it has on its own.
-/

namespace Minikura.Concurrency

variable {C : Type} {R : C → Type} {α σ κ ρ ι : Type}

def own (I : σ → Prop) (row : σ → κ → ρ) (k : κ) : Contract C σ where
  rely s s' := (I s → I s') ∧ row s' k = row s k
  guar _ s s' := (I s → I s') ∧ ∀ l, l ≠ k → row s' l = row s l
  refl _ := ⟨id, rfl⟩
  trans _ _ _ h h' := ⟨fun hs => h'.1 (h.1 hs), h'.2.trans h.2⟩

/-- Nobody else writes a row, and the rows of other keys are left alone. -/
def owners (I : σ → Prop) (row : σ → κ → ρ) (keys : List κ) : Contract C σ where
  rely s s' := (I s → I s') ∧ ∀ k, row s' k = row s k
  guar _ s s' := (I s → I s') ∧ ∀ k ∉ keys, row s' k = row s k
  refl _ := ⟨id, fun _ => rfl⟩
  trans _ _ _ h h' := ⟨fun hs => h'.1 (h.1 hs), fun k => (h'.2 k).trans (h.2 k)⟩

variable {H : Handler C R σ} {I : σ → Prop} {row : σ → κ → ρ}

theorem own_compatible {k l : κ} (h : k ≠ l) :
    (own (C := C) I row k).Compatible (own I row l) :=
  ⟨fun _ _ _ hs => ⟨hs.1, hs.2 l h.symm⟩, fun _ _ _ hs => ⟨hs.1, hs.2 k h⟩⟩

theorem wp_allSettled_own {key : ι → κ} {l : List ι} {p : ι → Prog C R α}
    {Q : ι → σ → Prop} {s : σ} (hkeys : (l.map key).Nodup) (hs : I s)
    (hp : ∀ i ∈ l, wp H (own I row (key i)) (p i) (fun _ => Q i) s) :
    wp H (owners I row (l.map key)) (Prog.allSettled (l.map p))
      (fun _ t => (∀ i ∈ l, Q i t) ∧ I t ∧ ∀ k ∉ l.map key, row t k = row s k) s := by
  have hcompatible : l.Pairwise fun i j =>
      (own (C := C) I row (key i)).Compatible (own I row (key j)) :=
    (List.pairwise_map.mp hkeys).imp own_compatible
  have hrefines : (Contract.all (fun i => own (C := C) I row (key i)) l).Refines
      (owners I row (l.map key)) := by
    refine ⟨fun t t' ht i _ => ⟨ht.1, ht.2 (key i)⟩, ?_⟩
    rintro c t t' ⟨i, hi, ht, hrows⟩
    exact ⟨ht, fun k hk => hrows k fun he => hk (he ▸ List.mem_map_of_mem hi)⟩
  have hall := wp_allSettled_forall (P := fun _ => True) hcompatible fun i hi =>
    wp_mono (hp i hi) fun _ _ h => ⟨trivial, h⟩
  have hdone := wp_mono (wp_refines hall hrefines) fun _ _ h => h.2
  refine wp_stable ?_ ?_ hdone ⟨hs, fun _ _ => rfl⟩
  · rintro t t' ⟨ht, hrows⟩ hrely
    exact ⟨hrely.1 ht, fun k hk => (hrely.2 k).trans (hrows k hk)⟩
  · rintro c t t' ⟨ht, hrows⟩ hguar
    exact ⟨hguar.1 ht, fun k hk => (hguar.2 k hk).trans (hrows k hk)⟩

end Minikura.Concurrency
