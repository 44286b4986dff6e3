import Mathlib.Data.List.Basic

/-!
# Merge patches

A document is a partial function from field names to values that are replaced as a
whole. The patch between two documents names the fields in which they differ, with
nothing for a field to remove; applying it elsewhere leaves all other fields alone.

## Main results

* `apply_diff_self` — a patch applied where it was computed gives the second document.
* `apply_diff_field` — a field gets the second document's value when the patch names it,
  or when it had that value.
-/

namespace Minikura

abbrev Document (κ α : Type) := κ → Option α

/-- `none`: not named; `some none`: to be removed. -/
abbrev MergePatch (κ α : Type) := κ → Option (Option α)

namespace MergePatch

variable {κ α : Type} [DecidableEq α]

def diff (before after : Document κ α) : MergePatch κ α :=
  fun k => if before k = after k then none else some (after k)

def apply (patch : MergePatch κ α) (d : Document κ α) : Document κ α :=
  fun k => (patch k).getD (d k)

theorem apply_diff_of_eq {before after d : Document κ α} {k : κ} (h : before k = after k) :
    apply (diff before after) d k = d k := by
  simp [apply, diff, h]

theorem apply_diff_of_ne {before after d : Document κ α} {k : κ} (h : before k ≠ after k) :
    apply (diff before after) d k = after k := by
  simp [apply, diff, h]

theorem apply_diff_field {before after d : Document κ α} {k : κ} :
    apply (diff before after) d k = after k ↔ before k ≠ after k ∨ d k = after k := by
  by_cases h : before k = after k
  · rw [apply_diff_of_eq h]
    simp [h]
  · rw [apply_diff_of_ne h]
    simp [h]

theorem apply_diff_self (before after : Document κ α) :
    apply (diff before after) before = after := by
  funext k
  rw [apply_diff_field]
  by_cases h : before k = after k
  · exact .inr h
  · exact .inl h

end MergePatch
end Minikura
