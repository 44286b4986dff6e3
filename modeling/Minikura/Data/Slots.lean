import Mathlib.Algebra.Order.Field.Basic
import Mathlib.Tactic.Linarith
import Mathlib.Tactic.Ring

/-!
# Slots along a line

Items are laid out one after the other by a cursor that moves on by the width of each and a gap.
In its slot an item stands in the center, or several of one width stand side by side about it.

## Main results

* `pairwise_slotsFrom` — a slot ends before those after it begin.
* `right_add_le_cursor` — the cursor is past every slot.
* `unit_le_abs_sub_seat`, `holds_seat` — side by side, apart from each other and within the slot.
-/

namespace Minikura

variable {α β : Type} [Field α]

structure Slot (α : Type) where
  left : α
  width : α

namespace Slot

def right (s : Slot α) : α := s.left + s.width

def center (s : Slot α) : α := s.left + s.width / 2

/-- The place of an item among as many of one width, about the center. -/
def seat (s : Slot α) (unit : α) (count index : ℕ) : α :=
  s.center - count * unit / 2 + unit / 2 + index * unit

variable {s : Slot α} {unit : α} {count i j : ℕ}

theorem seat_sub_seat : s.seat unit count j - s.seat unit count i = ((j : α) - i) * unit := by
  rw [seat, seat]
  ring

variable [LinearOrder α] [IsStrictOrderedRing α]

theorem unit_le_abs_sub_seat (hunit : 0 ≤ unit) (hij : i < j) :
    unit ≤ |s.seat unit count i - s.seat unit count j| := by
  have hsucc : (i : α) + 1 ≤ j := by exact_mod_cast hij
  have hmul : 1 * unit ≤ ((j : α) - i) * unit :=
    mul_le_mul_of_nonneg_right (by linarith) hunit
  rw [abs_sub_comm, seat_sub_seat]
  exact (one_mul unit ▸ hmul).trans (le_abs_self _)

/-- What is as wide as the unit, with its center at `x`, is within the slot. -/
def Holds (s : Slot α) (unit x : α) : Prop := s.left + unit / 2 ≤ x ∧ x ≤ s.right - unit / 2

theorem holds_center (h : unit ≤ s.width) : s.Holds unit s.center := by
  rw [Holds, center, right]
  constructor <;> linarith

theorem holds_seat (hunit : 0 ≤ unit) (hwidth : count * unit ≤ s.width) (hi : i < count) :
    s.Holds unit (s.seat unit count i) := by
  have hsucc : (i : α) + 1 ≤ count := by exact_mod_cast hi
  have hfirst : 0 ≤ (i : α) * unit := mul_nonneg (Nat.cast_nonneg i) hunit
  have hlast : ((i : α) + 1) * unit ≤ count * unit := mul_le_mul_of_nonneg_right hsucc hunit
  rw [Holds, seat, center, right]
  constructor <;> linarith

theorem unit_le_abs_sub {t : Slot α} {gap x y : α} (hgap : 0 ≤ gap) (hx : s.Holds unit x)
    (hy : t.Holds unit y) (h : s.right + gap ≤ t.left) : unit ≤ |x - y| := by
  rw [abs_sub_comm]
  refine le_trans ?_ (le_abs_self _)
  linarith [hx.2, hy.1]

end Slot

/-! ## One after the other -/

variable (gap : α) (width : β → α)

def slotsFrom (x : α) : List β → List (β × Slot α)
  | [] => []
  | item :: items => (item, ⟨x, width item⟩) :: slotsFrom (x + (width item + gap)) items

def cursorFrom (x : α) (items : List β) : α :=
  items.foldl (fun x item => x + (width item + gap)) x

variable {gap width} {x : α} {items : List β} {p : β × Slot α}

theorem map_fst_slotsFrom (gap : α) (width : β → α) (x : α) (items : List β) :
    (slotsFrom gap width x items).map (·.1) = items := by
  induction items generalizing x with
  | nil => rfl
  | cons item items ih => rw [slotsFrom, List.map_cons, ih]

theorem width_of_mem_slotsFrom (hp : p ∈ slotsFrom gap width x items) :
    p.2.width = width p.1 := by
  induction items generalizing x with
  | nil => cases hp
  | cons item items ih =>
    rcases List.mem_cons.mp hp with rfl | hp
    · rfl
    · exact ih hp

variable [LinearOrder α] [IsStrictOrderedRing α]

theorem le_left (hgap : 0 ≤ gap) (hwidth : ∀ item, 0 ≤ width item)
    (hp : p ∈ slotsFrom gap width x items) : x ≤ p.2.left := by
  induction items generalizing x with
  | nil => cases hp
  | cons item items ih =>
    rcases List.mem_cons.mp hp with rfl | hp
    · exact le_rfl
    · have := ih hp
      have := hwidth item
      linarith

/-- A slot ends before those after it begin. -/
theorem pairwise_slotsFrom (hgap : 0 ≤ gap) (hwidth : ∀ item, 0 ≤ width item) :
    (slotsFrom gap width x items).Pairwise fun p q => p.2.right + gap ≤ q.2.left := by
  induction items generalizing x with
  | nil => exact .nil
  | cons item items ih =>
    refine .cons (fun q hq => ?_) ih
    have := le_left hgap hwidth hq
    rw [Slot.right]
    linarith

theorem le_cursorFrom (hgap : 0 ≤ gap) (hwidth : ∀ item, 0 ≤ width item) :
    x ≤ cursorFrom gap width x items := by
  induction items generalizing x with
  | nil => exact le_rfl
  | cons item items ih =>
    have hrest : x + (width item + gap) ≤ cursorFrom gap width x (item :: items) := ih
    have := hwidth item
    linarith

/-- The cursor is past every slot. -/
theorem right_add_le_cursor (hgap : 0 ≤ gap) (hwidth : ∀ item, 0 ≤ width item)
    (hp : p ∈ slotsFrom gap width x items) : p.2.right + gap ≤ cursorFrom gap width x items := by
  induction items generalizing x with
  | nil => cases hp
  | cons item items ih =>
    rcases List.mem_cons.mp hp with rfl | hp
    · have hrest : x + (width item + gap) ≤ cursorFrom gap width (x + (width item + gap)) items :=
        le_cursorFrom hgap hwidth
      rw [Slot.right]
      exact (add_assoc _ _ _).trans_le hrest
    · exact ih hp

end Minikura
