import Mathlib.Algebra.Order.Group.Nat
import Mathlib.Data.List.Nodup

/-!
# Sets that change while they are iterated

A JavaScript `Set` keeps its entries in the order in which they were added, and a deleted one
leaves a gap that is never filled again. An iteration is a position that moves on to the next
entry there is at that time, so it meets what is added meanwhile and passes over what is gone.

## Main definitions

* `LiveSet.add`, `LiveSet.delete`, `LiveSet.next` — the set, and where an iteration goes on.
* `Sweep` — what an iteration has met since it started.

## Main results

* `Sweep.add`, `Sweep.delete`, `Sweep.visit` — the steps keep it.
* `Sweep.count_eq_one` — at its end, an entry that was there throughout was met once.
-/

namespace Minikura

variable {α : Type}

abbrev LiveSet (α : Type) := List (Option α)

namespace LiveSet

/-! ## Entries -/

/-- The first entry of a list whose first position is `i`. -/
def firstFrom (i : ℕ) : List (Option α) → Option (ℕ × α)
  | [] => none
  | none :: s => firstFrom (i + 1) s
  | some x :: _ => some (i, x)

/-- The first entry at a position or after it. -/
def next (s : LiveSet α) (i : ℕ) : Option (ℕ × α) := firstFrom i (s.drop i)

/-- An entry at a position. -/
def At (s : LiveSet α) (i : ℕ) (x : α) : Prop := s[i]? = some (some x)

/-- Nothing is in the set twice. -/
def Distinct (s : LiveSet α) : Prop := ∀ i j x, s.At i x → s.At j x → i = j

theorem At.lt_length {s : LiveSet α} {i : ℕ} {x : α} (h : s.At i x) : i < s.length :=
  (List.getElem?_eq_some_iff.mp h).1

theorem At.inj {s : LiveSet α} {i : ℕ} {x y : α} (h : s.At i x) (h' : s.At i y) : x = y :=
  Option.some.inj (Option.some.inj (h.symm.trans h'))

theorem distinct_nil : Distinct ([] : LiveSet α) := by
  intro i j x h
  cases h

theorem firstFrom_eq_some {i j : ℕ} {x : α} {s : List (Option α)}
    (h : firstFrom i s = some (j, x)) :
    i ≤ j ∧ s[j - i]? = some (some x) ∧ ∀ k y, i ≤ k → k < j → s[k - i]? ≠ some (some y) := by
  fun_induction firstFrom i s with
  | case1 => cases h
  | case2 i s ih =>
    obtain ⟨hij, hx, hgap⟩ := ih h
    refine ⟨by omega, ?_, fun k y hik hkj => ?_⟩
    · rwa [show j - i = j - (i + 1) + 1 by omega, List.getElem?_cons_succ]
    · rcases eq_or_lt_of_le hik with rfl | hik
      · simp
      · rw [show k - i = k - (i + 1) + 1 by omega, List.getElem?_cons_succ]
        exact hgap k y hik hkj
  | case3 i y s =>
    cases h
    exact ⟨le_refl _, by simp, fun k y hik hki => by omega⟩

theorem firstFrom_eq_none {i : ℕ} {s : List (Option α)} (h : firstFrom i s = none) (k : ℕ)
    (x : α) : s[k]? ≠ some (some x) := by
  fun_induction firstFrom i s generalizing k with
  | case1 => simp
  | case2 i s ih =>
    cases k with
    | zero => simp
    | succ k => exact ih h k
  | case3 => cases h

theorem next_eq_some {s : LiveSet α} {i j : ℕ} {x : α} (h : s.next i = some (j, x)) :
    i ≤ j ∧ s.At j x ∧ ∀ k y, i ≤ k → k < j → ¬s.At k y := by
  obtain ⟨hij, hx, hgap⟩ := firstFrom_eq_some h
  refine ⟨hij, ?_, fun k y hik hkj hk => hgap k y hik hkj ?_⟩
  · rwa [List.getElem?_drop, Nat.add_sub_cancel' hij] at hx
  · rwa [List.getElem?_drop, Nat.add_sub_cancel' hik]

theorem next_eq_none {s : LiveSet α} {i : ℕ} (h : s.next i = none) (k : ℕ) (x : α)
    (hik : i ≤ k) : ¬s.At k x := by
  intro hk
  refine firstFrom_eq_none h (k - i) x ?_
  rwa [List.getElem?_drop, Nat.add_sub_cancel' hik]

/-! ## Changes -/

variable [DecidableEq α]

def add (s : LiveSet α) (x : α) : LiveSet α := if some x ∈ s then s else s ++ [some x]

def delete (s : LiveSet α) (x : α) : LiveSet α := s.map fun e => if e = some x then none else e

variable {s : LiveSet α} {i j : ℕ} {x y : α}

theorem at_add : (s.add x).At i y ↔ s.At i y ∨ i = s.length ∧ y = x ∧ some x ∉ s := by
  unfold add At
  split_ifs with hmem
  · simp [hmem]
  · rw [List.getElem?_append]
    split_ifs with hi
    · simp [hi.ne]
    · rcases Nat.eq_or_lt_of_le (Nat.le_of_not_lt hi) with rfl | hlt
      · simp [hmem, eq_comm]
      · rw [List.getElem?_eq_none (by simp; omega), List.getElem?_eq_none (by omega)]
        simp [hlt.ne']

theorem at_delete : (s.delete x).At i y ↔ s.At i y ∧ y ≠ x := by
  unfold delete At
  rw [List.getElem?_map]
  cases h : s[i]? with
  | none => simp
  | some e =>
    rw [Option.map_some]
    split_ifs with he
    · simp [he, eq_comm]
    · simp only [Option.some.injEq]
      refine ⟨fun hy => ⟨hy, ?_⟩, And.left⟩
      rintro rfl
      exact he hy

theorem Distinct.add (h : s.Distinct) : (s.add x).Distinct := by
  intro i j y hi hj
  rcases at_add.mp hi with hold | ⟨hlast, rfl, hnew⟩
  · rcases at_add.mp hj with hold' | ⟨-, rfl, hnew⟩
    · exact h i j y hold hold'
    · exact absurd (List.mem_of_getElem? hold) hnew
  · rcases at_add.mp hj with hold' | ⟨hlast', -, -⟩
    · exact absurd (List.mem_of_getElem? hold') hnew
    · exact hlast.trans hlast'.symm

theorem Distinct.delete (h : s.Distinct) : (s.delete x).Distinct := fun i j y hi hj =>
  h i j y (at_delete.mp hi).1 (at_delete.mp hj).1

theorem length_delete : (s.delete x).length = s.length := List.length_map _

theorem length_le_add : s.length ≤ (s.add x).length := by
  unfold add
  split_ifs <;> simp

end LiveSet

/-! ## Iterations -/

/-- What an iteration that started on `start` has met, with the set as it is now and where the
iteration goes on. -/
structure Sweep (start now : LiveSet α) (index : ℕ) (met : List (ℕ × α)) : Prop where
  distinct : now.Distinct
  length : start.length ≤ now.length
  /-- Positions are met in their order, and before the one where the iteration goes on. -/
  ordered : (met.map (·.1)).Pairwise (· < ·)
  before : ∀ m ∈ met, m.1 < index
  within : index ≤ now.length
  /-- What has been passed and has been there all the time has been met. -/
  passed : ∀ i x, i < index → start.At i x → now.At i x → (i, x) ∈ met
  /-- What has been there all the time has been met nowhere else. -/
  once : ∀ m ∈ met, ∀ i, start.At i m.2 → now.At i m.2 → m.1 = i

namespace Sweep

open LiveSet

variable {start now : LiveSet α} {index : ℕ} {met : List (ℕ × α)}

theorem begin (h : now.Distinct) : Sweep now now 0 [] where
  distinct := h
  length := le_refl _
  ordered := .nil
  before := by simp
  within := Nat.zero_le _
  passed _ _ h := absurd h (Nat.not_lt_zero _)
  once := by simp

/-- An iteration meets the next entry. -/
theorem visit {j : ℕ} {x : α} (h : Sweep start now index met)
    (hnext : now.next index = some (j, x)) : Sweep start now (j + 1) (met ++ [(j, x)]) where
  distinct := h.distinct
  length := h.length
  ordered := by
    rw [List.map_append, List.pairwise_append]
    refine ⟨h.ordered, List.pairwise_singleton _ _, fun a ha b hb => ?_⟩
    obtain ⟨m, hm, rfl⟩ := List.mem_map.mp ha
    obtain rfl : b = j := by simpa using hb
    exact (h.before m hm).trans_le (next_eq_some hnext).1
  before m hm := by
    rcases List.mem_append.mp hm with hm | hm
    · exact Nat.lt_succ_of_lt ((h.before m hm).trans_le (next_eq_some hnext).1)
    · obtain rfl : m = (j, x) := by simpa using hm
      exact Nat.lt_succ_self j
  within := (next_eq_some hnext).2.1.lt_length
  passed i y hi hstart hnow := by
    obtain ⟨-, hj, hgap⟩ := next_eq_some hnext
    rcases Nat.lt_or_ge i index with hlt | hge
    · exact List.mem_append_left _ (h.passed i y hlt hstart hnow)
    · rcases Nat.lt_succ_iff_lt_or_eq.mp hi with hlt | rfl
      · exact absurd hnow (hgap i y hge hlt)
      · rw [hj.inj hnow]
        simp
  once m hm i hstart hnow := by
    rcases List.mem_append.mp hm with hm | hm
    · exact h.once m hm i hstart hnow
    · obtain rfl : m = (j, x) := by simpa using hm
      exact h.distinct j i x (next_eq_some hnext).2.1 hnow

/-- At the end of the iteration, what has been there all the time has been met once. -/
theorem count_eq_one [DecidableEq α] {i : ℕ} {x : α} (h : Sweep start now index met)
    (hend : now.next index = none) (hstart : start.At i x) (hnow : now.At i x) :
    (met.map (·.2)).count x = 1 := by
  have hpassed : i < index := by
    by_contra hge
    exact next_eq_none hend i x (Nat.le_of_not_lt hge) hnow
  have hmem := h.passed i x hpassed hstart hnow
  have hfilter : met.filter (·.2 = x) = [(i, x)] := by
    have honly : ∀ m ∈ met.filter (·.2 = x), m = (i, x) := by
      intro m hm
      obtain ⟨hm, hx⟩ := List.mem_filter.mp hm
      have hx : m.2 = x := by simpa using hx
      exact Prod.ext (h.once m hm i (hx ▸ hstart) (hx ▸ hnow)) hx
    have hnodup : (met.filter (·.2 = x)).Nodup :=
      (List.Nodup.of_map _ (h.ordered.imp fun hlt => hlt.ne)).filter _
    refine List.perm_singleton.mp ((List.perm_ext_iff_of_nodup hnodup (by simp)).mpr fun m => ?_)
    refine ⟨fun hm => by simpa using honly m hm, fun hm => ?_⟩
    obtain rfl : m = (i, x) := by simpa using hm
    exact List.mem_filter.mpr ⟨hmem, by simp⟩
  have hcount : (met.map (·.2)).count x = (met.filter (·.2 = x)).length := by
    rw [List.count_eq_countP, List.countP_map, List.countP_eq_length_filter]
    rfl
  rw [hcount, hfilter, List.length_singleton]

variable [DecidableEq α] {x : α}

theorem add (h : Sweep start now index met) : Sweep start (now.add x) index met where
  distinct := h.distinct.add
  length := h.length.trans length_le_add
  ordered := h.ordered
  before := h.before
  within := h.within.trans length_le_add
  passed i y hi hstart hnow := by
    rcases at_add.mp hnow with hnow | ⟨rfl, -, -⟩
    · exact h.passed i y hi hstart hnow
    · exact absurd (hi.trans_le h.within) (lt_irrefl _)
  once m hm i hstart hnow := by
    rcases at_add.mp hnow with hnow | ⟨rfl, -, -⟩
    · exact h.once m hm i hstart hnow
    · exact absurd (hstart.lt_length.trans_le h.length) (lt_irrefl _)

theorem delete (h : Sweep start now index met) : Sweep start (now.delete x) index met where
  distinct := h.distinct.delete
  length := h.length.trans_eq length_delete.symm
  ordered := h.ordered
  before := h.before
  within := h.within.trans_eq length_delete.symm
  passed i y hi hstart hnow := h.passed i y hi hstart (at_delete.mp hnow).1
  once m hm i hstart hnow := h.once m hm i hstart (at_delete.mp hnow).1

end Sweep

end Minikura
