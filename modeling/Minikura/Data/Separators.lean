import Mathlib.Data.List.Basic

/-!
# Parts with separators between

Three parts are written one after the other with a separator between them. The separator does not
stand in the part in the middle, but the parts on the outside may have it, and then the text can
be read in more than one way.

## Main results

* `append_separator_inj` — two parts without the separator and a separator between.
* `joined_eq_iff` — two triples have one text just if they are the same, or the first part of one
  begins with the first two of the other.
-/

namespace Minikura

variable {α : Type} {d : α} {a a' w w' x x' y : List α}

def joined (d : α) (a w x : List α) : List α := a ++ d :: (w ++ d :: x)

/-- The first part of the second triple, with a separator, begins with the first two of the first
triple, and the first triple ends as this one goes on. -/
def Continues (d : α) (a w x a' w' x' : List α) : Prop :=
  ∃ k, a' ++ [d] = joined d a w k ∧ x = k ++ (w' ++ d :: x')

theorem joined_append (d : α) (a w x : List α) :
    joined d a w (x ++ y) = joined d a w x ++ y := by simp [joined]

theorem Continues.joined_eq (h : Continues d a w x a' w' x') :
    joined d a w x = joined d a' w' x' := by
  obtain ⟨k, hk, rfl⟩ := h
  rw [joined_append, ← hk]
  simp [joined]

theorem Continues.length_lt (h : Continues d a w x a' w' x') : a.length < a'.length := by
  obtain ⟨k, hk, -⟩ := h
  have := congrArg List.length hk
  simp only [joined, List.length_append, List.length_cons, List.length_nil] at this
  omega

/-- The part in the middle stands in what goes on past it. -/
theorem Continues.middle_within (h : Continues d a w x a' w' x') :
    d :: (w ++ [d]) <:+: a' ++ [d] := by
  obtain ⟨k, hk, -⟩ := h
  exact ⟨a, k, by rw [hk]; simp [joined]⟩

/-- Parts without a separator end where the first separator stands. -/
theorem append_separator_inj (hw : d ∉ w) (ha : d ∉ a) (h : w ++ d :: x = a ++ d :: y) :
    w = a ∧ x = y := by
  rcases List.append_eq_append_iff.mp h with ⟨r, rfl, hr⟩ | ⟨r, rfl, hr⟩
  · cases r with
    | nil => exact ⟨(List.append_nil w).symm, (List.cons.inj hr).2⟩
    | cons e r =>
      obtain ⟨rfl, -⟩ := List.cons.inj hr
      grind
  · cases r with
    | nil => exact ⟨List.append_nil a, (List.cons.inj hr).2.symm⟩
    | cons e r =>
      obtain ⟨rfl, -⟩ := List.cons.inj hr
      grind

/-- What ends with a separator goes on past a part without one. -/
theorem exists_of_append_eq (hw : d ∉ w) (h : w ++ d :: x = a ++ d :: y) :
    ∃ k, a ++ [d] = w ++ d :: k ∧ x = k ++ y := by
  rcases List.append_eq_append_iff.mp h with ⟨r, rfl, hr⟩ | ⟨r, rfl, hr⟩
  · cases r with
    | nil => exact ⟨[], by simp, (List.cons.inj hr).2⟩
    | cons e r =>
      obtain ⟨rfl, rfl⟩ := List.cons.inj hr
      exact ⟨r ++ [d], by simp, by simp⟩
  · cases r with
    | nil => exact ⟨[], by simp, (List.cons.inj hr).2.symm⟩
    | cons e r =>
      obtain ⟨rfl, -⟩ := List.cons.inj hr
      simp at hw

theorem eq_of_append_cons_eq (hw : d ∉ w) (hw' : d ∉ w') (h : w ++ d :: x = w' ++ d :: x') :
    w = w' ∧ x = x' := by
  obtain ⟨k, hk, rfl⟩ := exists_of_append_eq hw h
  cases List.eq_nil_or_concat k with
  | inl hnil =>
    subst hnil
    exact ⟨(List.append_cancel_right hk).symm, rfl⟩
  | inr hlast =>
    obtain ⟨k, e, rfl⟩ := hlast
    have hk : w' ++ [d] = (w ++ d :: k) ++ [e] := by simpa using hk
    rw [(List.append_inj' hk rfl).1] at hw'
    simp at hw'

theorem eq_or_continues {r : List α} (hw : d ∉ w) (hw' : d ∉ w')
    (h : d :: (w ++ d :: x) = r ++ d :: (w' ++ d :: x')) :
    r = [] ∧ w = w' ∧ x = x' ∨ Continues d a w x (a ++ r) w' x' := by
  cases r with
  | nil => exact .inl ⟨rfl, eq_of_append_cons_eq hw hw' (List.cons.inj h).2⟩
  | cons e r =>
    obtain ⟨rfl, htail⟩ := List.cons.inj h
    obtain ⟨k, hk, hx⟩ := exists_of_append_eq (a := r) hw htail
    exact .inr ⟨k, by simp [joined, hk], hx⟩

theorem joined_eq_iff (hw : d ∉ w) (hw' : d ∉ w') :
    joined d a w x = joined d a' w' x' ↔
      (a = a' ∧ w = w' ∧ x = x') ∨ Continues d a w x a' w' x' ∨ Continues d a' w' x' a w x := by
  refine ⟨fun h => ?_, ?_⟩
  · rcases List.append_eq_append_iff.mp h with ⟨r, rfl, hr⟩ | ⟨r, rfl, hr⟩
    · rcases eq_or_continues (a := a) hw hw' hr with ⟨rfl, rfl, rfl⟩ | hc
      · exact .inl ⟨(List.append_nil a).symm, rfl, rfl⟩
      · exact .inr (.inl hc)
    · rcases eq_or_continues (a := a') hw' hw hr with ⟨rfl, rfl, rfl⟩ | hc
      · exact .inl ⟨List.append_nil a', rfl, rfl⟩
      · exact .inr (.inr hc)
  · rintro (⟨rfl, rfl, rfl⟩ | hc | hc)
    · rfl
    · exact hc.joined_eq
    · exact hc.joined_eq.symm

end Minikura
