import Mathlib.Algebra.Order.Round
import Mathlib.Tactic.Linarith
import Mathlib.Tactic.LinearCombination
import Mathlib.Tactic.Ring
import Minikura.Data.NumberText

/-!
# Integers made of quotients

A quotient of two integers, and a percentage, rounded to an integer by way of doubles. A double
is close enough for the quotient and for every percentage but some of the halves, which the
doubles may leave a little below.

## Main definitions

* `nearestDouble` — the nearest double, were there no largest one.
* `percentDouble` — a share in percent, each of its two steps rounded to a double.
* `HalfLost` — the percentage is a half that the doubles miss.

## Main results

* `round_nearestDouble_div` — a quotient is rounded to the right integer.
* `round_percentDouble` — a percentage too, unless a half is lost.
* `eq_round_iff` — what is off by a large factor is right if and only if both round to zero.
-/

namespace Minikura

/-! ## Half to even -/

section HalfEven

variable {q : ℚ} {n : ℤ}

theorem abs_roundHalfEven_sub_le (q : ℚ) : |(roundHalfEven q : ℚ) - q| ≤ 1 / 2 := by
  have hfloor := Int.floor_le q
  have hnext := Int.lt_floor_add_one q
  unfold roundHalfEven
  dsimp only
  split_ifs with h
  · have hrest : q - ⌊q⌋ ≤ 1 / 2 := h.elim le_of_lt fun h => h.1.le
    rw [abs_le]
    constructor <;> linarith
  · have hrest : 1 / 2 ≤ q - ⌊q⌋ := not_lt.mp fun hlt => h (.inl hlt)
    push_cast
    rw [abs_le]
    constructor <;> linarith

/-- Below an even number, the tie included, nothing is rounded down past it. -/
theorem roundHalfEven_lt_iff (heven : n % 2 = 0) :
    roundHalfEven q < n ↔ q < n - 1 / 2 := by
  have hfloor := Int.floor_le q
  have hnext := Int.lt_floor_add_one q
  have hround := abs_le.mp (abs_roundHalfEven_sub_le q)
  constructor
  · intro hlt
    have hle : (roundHalfEven q : ℚ) ≤ n - 1 := by exact_mod_cast Int.le_sub_one_of_lt hlt
    refine lt_of_le_of_ne (by linarith) fun htie => ?_
    -- the tie is between `n - 1` and `n`
    have hlow : ⌊q⌋ = n - 1 := Int.floor_eq_iff.mpr ⟨by push_cast; linarith, by push_cast; linarith⟩
    have hrest : q - ⌊q⌋ = 1 / 2 := by
      rw [hlow, htie]
      push_cast
      ring
    have hup : roundHalfEven q = ⌊q⌋ + 1 := by
      rw [roundHalfEven, if_neg]
      rw [hrest, hlow]
      simp only [lt_irrefl, false_or, true_and]
      omega
    omega
  · intro hlt
    have hle : (roundHalfEven q : ℚ) < n := by linarith
    exact_mod_cast hle

/-- What is rounded down is not above a half. -/
theorem fract_le_of_roundHalfEven_lt (h : (roundHalfEven q : ℚ) < q) :
    (roundHalfEven q : ℚ) = q - Int.fract q ∧ 0 < Int.fract q ∧ Int.fract q ≤ 1 / 2 := by
  have hfloor : roundHalfEven q = ⌊q⌋ := by
    have hlt : roundHalfEven q < ⌊q⌋ + 1 := by
      exact_mod_cast h.trans (Int.lt_floor_add_one q)
    have hle := floor_le_roundHalfEven q
    omega
  have hround := abs_le.mp (abs_roundHalfEven_sub_le q)
  have hfract := Int.self_sub_floor q
  rw [hfloor] at h hround ⊢
  exact ⟨by linarith, by linarith, by linarith⟩

theorem roundHalfEven_lt_of_fract (hpos : 0 < Int.fract q) (hlt : Int.fract q < 1 / 2) :
    (roundHalfEven q : ℚ) < q := by
  have hfract := Int.self_sub_floor q
  rw [roundHalfEven, if_pos (.inl (by linarith))]
  linarith

end HalfEven

/-! ## The nearest double -/

def nearestDouble (q : ℚ) : ℚ := roundHalfEven (q / spacing q) * spacing q

section Spacing

variable {q : ℚ}

theorem toDouble_eq (hq : 0 ≤ q) (hlt : q < 2 ^ 53) : toDouble q = some (nearestDouble q) := by
  obtain ⟨d, hd, -⟩ := exists_toDouble hq hlt le_rfl
  by_cases hfinite : |nearestDouble q| < 2 ^ 1024
  · exact if_pos hfinite
  · rw [show toDouble q = none from if_neg hfinite] at hd
    cases hd

theorem nearestDouble_zero : nearestDouble 0 = 0 := by
  have hzero : roundHalfEven 0 = 0 := roundHalfEven_intCast 0
  rw [nearestDouble, zero_div, hzero, Int.cast_zero, zero_mul]

/-- Above the subnormal numbers, the spacing is that of the binade. -/
theorem spacing_of_mem {k : ℤ} (hk : -1022 ≤ k) (hle : 2 ^ k ≤ q) (hlt : q < 2 ^ (k + 1)) :
    spacing q = 2 ^ (k - 52) := by
  have hpos : 0 < q := lt_of_lt_of_le (zpow_pos (by norm_num) _) hle
  have hbelow : k ≤ Int.log 2 q := (Int.zpow_le_iff_le_log (by decide) hpos).mp hle
  have habove : Int.log 2 q < k + 1 := (Int.lt_zpow_iff_log_lt (by decide) hpos).mp hlt
  rw [spacing, abs_of_pos hpos, max_eq_left (by omega)]
  congr 1
  omega

/-- The binade of a number, which is no subnormal. -/
theorem exists_spacing (hq : 2 ^ (-1022 : ℤ) ≤ q) : ∃ k : ℤ, -1022 ≤ k ∧ 2 ^ k ≤ q ∧
    q < 2 ^ (k + 1) ∧ spacing q = 2 ^ (k - 52) := by
  have hpos : 0 < q := lt_of_lt_of_le (zpow_pos (by norm_num) _) hq
  have hk : -1022 ≤ Int.log 2 q := (Int.zpow_le_iff_le_log (by decide) hpos).mp hq
  have hle : 2 ^ Int.log 2 q ≤ q := by exact_mod_cast Int.zpow_log_le_self (by decide) hpos
  have hlt : q < 2 ^ (Int.log 2 q + 1) := by
    exact_mod_cast Int.lt_zpow_succ_log_self (by decide) q
  exact ⟨_, hk, hle, hlt, spacing_of_mem hk hle hlt⟩

theorem spacing_le (hq : 2 ^ (-1022 : ℤ) ≤ q) : spacing q ≤ q / 2 ^ 52 := by
  obtain ⟨k, -, hle, -, hspacing⟩ := exists_spacing hq
  rw [hspacing, zpow_sub₀ (by norm_num)]
  exact div_le_div_of_nonneg_right hle (by positivity)

theorem abs_nearestDouble_sub_le (q : ℚ) : |nearestDouble q - q| ≤ spacing q / 2 := by
  have hround := abs_roundHalfEven_sub_le (q / spacing q)
  have hscale : nearestDouble q - q =
      (roundHalfEven (q / spacing q) - q / spacing q) * spacing q := by
    rw [nearestDouble, sub_mul, div_mul_cancel₀ _ spacing_pos.ne']
  rw [hscale, abs_mul, abs_of_pos spacing_pos]
  calc |(roundHalfEven (q / spacing q) : ℚ) - q / spacing q| * spacing q
      ≤ 1 / 2 * spacing q := mul_le_mul_of_nonneg_right hround spacing_pos.le
    _ = spacing q / 2 := by ring

/-- The relative error. -/
theorem abs_nearestDouble_sub_le_div (hq : 2 ^ (-1022 : ℤ) ≤ q) :
    |nearestDouble q - q| ≤ q / 2 ^ 53 := by
  have hspacing := spacing_le hq
  have hround := abs_nearestDouble_sub_le q
  linarith

/-- Halves are doubles below `2 ^ 52`, and no number is moved across a double. -/
theorem half_le_nearestDouble {n : ℤ} (hq : 0 ≤ q) (hlt : q < 2 ^ 52) (h : (n : ℚ) / 2 ≤ q) :
    (n : ℚ) / 2 ≤ nearestDouble q := by
  obtain ⟨j, hj, hspacing⟩ := exists_spacing_eq_inv (p := 51) hq hlt (by decide)
  obtain ⟨i, rfl⟩ : ∃ i, j = i + 1 := ⟨j - 1, by omega⟩
  -- in units of the spacing, a half is an integer
  have hunits : ((n * 2 ^ i : ℤ) : ℚ) * spacing q = n / 2 := by
    rw [hspacing, pow_succ]
    push_cast
    field_simp
  rw [← hunits] at h ⊢
  exact mul_spacing_le h

end Spacing

/-! ## Quotients -/

section Quotient

variable {n d : ℕ} {x : ℚ}

theorem two_zpow_le_div (hn : 0 < n) (hd : 0 < d) (hlt : d < 2 ^ 53) :
    (2 : ℚ) ^ (-1022 : ℤ) ≤ n / d := by
  have hnumerator : (1 : ℚ) ≤ n := by exact_mod_cast hn
  have hdenominator : (d : ℚ) ≤ 2 ^ 53 := by exact_mod_cast hlt.le
  have hd : (0 : ℚ) < d := by exact_mod_cast hd
  calc (2 : ℚ) ^ (-1022 : ℤ)
      ≤ 2 ^ (-53 : ℤ) := zpow_le_zpow_right₀ (by norm_num) (by decide)
    _ = 1 / 2 ^ 53 := by norm_num
    _ ≤ n / d := by gcongr

/-- A fraction that is not a half is some part of its denominator away from it. -/
theorem half_gap (hd : 0 < d) (k : ℤ) :
    ((n : ℚ) / d < k / 2 → (n : ℚ) / d + 1 / (2 * d) ≤ k / 2) ∧
      ((k : ℚ) / 2 < n / d → (k : ℚ) / 2 + 1 / (2 * d) ≤ n / d) := by
  have hpos : (0 : ℚ) < d := by exact_mod_cast hd
  constructor
  · intro h
    rw [div_lt_div_iff₀ hpos (by norm_num)] at h
    have hint : (n : ℤ) * 2 + 1 ≤ k * d := by exact_mod_cast h
    have hle : (n : ℚ) * 2 + 1 ≤ k * d := by exact_mod_cast hint
    rw [div_add_div _ _ hpos.ne' (by positivity), div_le_div_iff₀ (by positivity) (by norm_num)]
    nlinarith
  · intro h
    rw [div_lt_div_iff₀ (by norm_num) hpos] at h
    have hint : k * (d : ℤ) + 1 ≤ n * 2 := by exact_mod_cast h
    have hle : (k : ℚ) * d + 1 ≤ n * 2 := by exact_mod_cast hint
    rw [div_add_div _ _ (by norm_num) (by positivity), div_le_div_iff₀ (by positivity) hpos]
    nlinarith

/-- What is closer to a fraction than a half can be is rounded as the fraction is, as long as it
is not below where the fraction is a half itself. -/
theorem round_eq_of_near (hd : 0 < d) (hnear : |x - n / d| < 1 / (2 * d))
    (hhalf : ∀ k : ℤ, k % 2 = 1 → (k : ℚ) / 2 = n / d → (k : ℚ) / 2 ≤ x) :
    round x = round ((n : ℚ) / d) := by
  obtain ⟨hle, hlt⟩ := round_eq_iff.mp (rfl : round ((n : ℚ) / d) = _)
  obtain ⟨hbelow, habove⟩ := abs_lt.mp hnear
  set k := round ((n : ℚ) / d)
  refine round_eq_iff.mpr ⟨?_, ?_⟩
  · rcases hle.eq_or_lt with htie | hlt'
    · have hx := hhalf (2 * k - 1) (by omega) (by push_cast; linarith)
      push_cast at hx
      linarith
    · have hgap := (half_gap (n := n) hd (2 * k - 1)).2
      push_cast at hgap
      have hle' := hgap (by linarith)
      linarith
  · have hgap := (half_gap (n := n) hd (2 * k + 1)).1
    push_cast at hgap
    have hle' := hgap (by linarith)
    linarith

theorem round_nearestDouble_div (hn : n < 2 ^ 52) (hd : 0 < d) (hlt : d < 2 ^ 53) :
    round (nearestDouble (n / d)) = round ((n : ℚ) / d) := by
  rcases Nat.eq_zero_or_pos n with rfl | hpos
  · rw [Nat.cast_zero, zero_div, nearestDouble_zero]
  have hdenominator : (1 : ℚ) ≤ d := by exact_mod_cast hd
  have hnumerator : (n : ℚ) < 2 ^ 52 := by exact_mod_cast hn
  have hq : (0 : ℚ) < n / d := by positivity
  have hsmall : (n : ℚ) / d < 2 ^ 52 :=
    (div_le_self (by positivity) hdenominator).trans_lt hnumerator
  refine round_eq_of_near hd ?_ fun k _ hk => half_le_nearestDouble hq.le hsmall hk.le
  calc |nearestDouble (n / d) - n / d|
      ≤ n / d / 2 ^ 53 := abs_nearestDouble_sub_le_div (two_zpow_le_div hpos hd hlt)
    _ = n / (2 ^ 53 * d) := by rw [div_div, mul_comm]
    _ < 2 ^ 52 / (2 ^ 53 * d) := by gcongr
    _ = 1 / (2 * d) := by field_simp

end Quotient

/-! ## Percentages -/

/-- A share in percent. The quotient is rounded, and the product again. -/
def percentDouble (share : ℚ) : ℚ := nearestDouble (nearestDouble share * 100)

/-- The percentage is a half that is lost. The double of the share leaves out a part of its
spacing that is worth more than half the spacing of the percentage. -/
structure HalfLost (share : ℚ) : Prop where
  half : Int.fract (100 * share) = 1 / 2
  binade : spacing (100 * share) = 64 * spacing share
  above : 8 / 25 < Int.fract (share / spacing share)
  below : Int.fract (share / spacing share) < 1 / 2

section Percent

variable {share : ℚ} {m : ℤ}

theorem spacing_hundred (h : 2 ^ (-1022 : ℤ) ≤ share) :
    spacing (100 * share) = 64 * spacing share ∨ spacing (100 * share) = 128 * spacing share := by
  obtain ⟨k, hk, hle, hlt, hspacing⟩ := exists_spacing h
  have hstep : ∀ i : ℕ, (2 : ℚ) ^ (k + i) = 2 ^ i * 2 ^ k := by
    intro i
    rw [zpow_add₀ (by norm_num), zpow_natCast, mul_comm]
  have hscale : ∀ i : ℕ, (2 : ℚ) ^ (k + i - 52) = 2 ^ i * spacing share := by
    intro i
    rw [hspacing, zpow_sub₀ (by norm_num), hstep, zpow_sub₀ (by norm_num), mul_div_assoc]
  have hone : (2 : ℚ) ^ (k + 1) = 2 * 2 ^ k := (hstep 1).trans (by norm_num)
  have hsix : (2 : ℚ) ^ (k + 6) = 64 * 2 ^ k := (hstep 6).trans (by norm_num)
  have height : (2 : ℚ) ^ (k + 7 + 1) = 256 * 2 ^ k := by
    rw [add_assoc]
    exact (hstep 8).trans (by norm_num)
  rcases lt_or_ge (100 * share) (2 ^ (k + 7)) with hbelow | habove
  · left
    have hbelow' : 100 * share < 2 ^ (k + 6 + 1) := by rwa [add_assoc]
    rw [spacing_of_mem (by omega) (by linarith) hbelow']
    exact (hscale 6).trans (by norm_num)
  · right
    rw [spacing_of_mem (by omega) habove (by linarith)]
    exact (hscale 7).trans (by norm_num)

theorem nearestDouble_bounds (h : 2 ^ (-1022 : ℤ) ≤ share) :
    share ≤ nearestDouble share * 100 ∧ nearestDouble share ≤ 2 * share := by
  have hpos : 0 < share := lt_of_lt_of_le (zpow_pos (by norm_num) _) h
  obtain ⟨hbelow, habove⟩ := abs_le.mp (abs_nearestDouble_sub_le_div h)
  constructor <;> linarith

theorem abs_percentDouble_sub_le (h : 2 ^ (-1022 : ℤ) ≤ share) :
    |percentDouble share - 100 * share| ≤ 100 * share * (1 / 2 ^ 52 + 1 / 2 ^ 106) := by
  obtain ⟨hbelow, habove⟩ := abs_le.mp (abs_nearestDouble_sub_le_div h)
  have hproduct := abs_nearestDouble_sub_le_div (h.trans (nearestDouble_bounds h).1)
  obtain ⟨hbelow', habove'⟩ := abs_le.mp hproduct
  rw [abs_le, percentDouble]
  constructor <;> linarith

/-- A half is not lost where the double of the share is not below the share. -/
theorem half_le_percentDouble (h : 2 ^ (-1022 : ℤ) ≤ share) (hlt : share < 2 ^ 44)
    (hhalf : (m : ℚ) / 2 = 100 * share) (hup : share ≤ nearestDouble share) :
    (m : ℚ) / 2 ≤ percentDouble share := by
  have hpos : 0 < share := lt_of_lt_of_le (zpow_pos (by norm_num) _) h
  obtain ⟨hge, hle⟩ := nearestDouble_bounds h
  exact half_le_nearestDouble (by linarith) (by norm_num at hlt ⊢; linarith) (by linarith)

/-- The double of a share is below it by what it leaves out. -/
theorem nearestDouble_lt_iff : nearestDouble share < share ↔
    roundHalfEven (share / spacing share) < share / spacing share := by
  rw [lt_div_iff₀ spacing_pos]
  rfl

theorem nearestDouble_of_lt (hdown : nearestDouble share < share) :
    nearestDouble share = share - Int.fract (share / spacing share) * spacing share := by
  have hround := (fract_le_of_roundHalfEven_lt (nearestDouble_lt_iff.mp hdown)).1
  rw [nearestDouble, hround, sub_mul, div_mul_cancel₀ _ spacing_pos.ne']

theorem fract_half_percent : Int.fract ((1 / 200 : ℚ) / spacing (1 / 200)) = 22 / 25 := by
  have hspacing : spacing (1 / 200) = 2 ^ (-60 : ℤ) :=
    spacing_of_mem (k := -8) (by decide) (by norm_num) (by norm_num)
  rw [hspacing, Int.fract_eq_iff]
  exact ⟨by norm_num, by norm_num, 5764607523034234, by norm_num⟩

/-- Half a percent is rounded up. -/
theorem half_percent_le : (1 / 200 : ℚ) ≤ nearestDouble (1 / 200) := by
  by_contra! hdown
  have hle := (fract_le_of_roundHalfEven_lt (nearestDouble_lt_iff.mp hdown)).2.2
  rw [fract_half_percent] at hle
  norm_num at hle

/-- The double of a share that makes a half is no tie. -/
theorem fract_ne_half (hpos : 0 < share) (hlt : share < 2 ^ 44)
    (hhalf : (m : ℚ) / 2 = 100 * share) : Int.fract (share / spacing share) ≠ 1 / 2 := by
  obtain ⟨j, hj, hspacing⟩ := exists_spacing_eq_inv (p := 43) hpos.le hlt (by decide)
  obtain ⟨i, rfl⟩ : ∃ i, j = i + 3 := ⟨j - 3, by omega⟩
  intro htie
  obtain ⟨-, -, n, hn⟩ := Int.fract_eq_iff.mp htie
  -- eight divides the left side, and only four the right one
  have hcast : ((m * 2 ^ i * 8 : ℤ) : ℚ) = ((100 * (2 * n + 1) : ℤ) : ℚ) := by
    rw [hspacing, div_inv_eq_mul, pow_add] at hn
    push_cast
    linear_combination 2 ^ i * 16 * hhalf + 200 * hn
  have hint : m * 2 ^ i * 8 = 100 * (2 * n + 1) := by exact_mod_cast hcast
  omega

/-- A hundred times the double of the share is in the binade of the percentage. -/
theorem spacing_nearestDouble_mul (h : 2 ^ (-1022 : ℤ) ≤ share) (hlt : share < 2 ^ 44)
    (hodd : m % 2 = 1) (hhalf : (m : ℚ) / 2 = 100 * share) (hdown : nearestDouble share < share) :
    spacing (nearestDouble share * 100) = spacing (100 * share) := by
  have hpos : 0 < share := lt_of_lt_of_le (zpow_pos (by norm_num) _) h
  have hmpos : 0 < m := by
    have hcast : (0 : ℚ) < m := by linarith
    exact_mod_cast hcast
  have hne : m ≠ 1 := by
    rintro rfl
    have hshare : share = 1 / 200 := by
      push_cast at hhalf
      linarith
    exact absurd half_percent_le (by rw [← hshare]; exact not_le.mpr hdown)
  have hthree : (3 : ℚ) ≤ m := by exact_mod_cast (by omega : 3 ≤ m)
  obtain ⟨k, hk, hbelow, habove, hspacing⟩ := exists_spacing (h.trans (by linarith :
    share ≤ 100 * share))
  -- a power of two from one on, so the odd `m` is not twice it
  obtain ⟨i, rfl⟩ : ∃ i : ℕ, k = i := by
    have hone : (2 : ℚ) ^ (0 : ℤ) < 2 ^ (k + 1) := lt_of_le_of_lt (by norm_num; linarith) habove
    have hk' := (zpow_lt_zpow_iff_right₀ (by norm_num)).mp hone
    exact ⟨k.toNat, by omega⟩
  rw [zpow_natCast, ← hhalf] at hbelow
  have hint : 2 ^ i * 2 + 1 ≤ m := by
    have hcast : ((2 ^ i * 2 : ℤ) : ℚ) ≤ m := by
      push_cast
      linarith
    have hle : 2 ^ i * 2 ≤ m := by exact_mod_cast hcast
    omega
  have hgap : (2 : ℚ) ^ i * 2 + 1 ≤ m := by exact_mod_cast hint
  obtain ⟨herror, -⟩ := abs_le.mp (abs_nearestDouble_sub_le_div h)
  rw [hspacing]
  refine spacing_of_mem hk ?_ (by linarith)
  rw [zpow_natCast]
  norm_num at hlt
  linarith

/-- Where the double of the share is below it, the half is lost if and only if what the double
leaves out is worth more than half the spacing of the percentage. -/
theorem percentDouble_lt_iff (h : 2 ^ (-1022 : ℤ) ≤ share) (hlt : share < 2 ^ 44)
    (hodd : m % 2 = 1) (hhalf : (m : ℚ) / 2 = 100 * share) (hdown : nearestDouble share < share) :
    percentDouble share < 100 * share ↔ spacing (100 * share) / 2 <
      100 * (Int.fract (share / spacing share) * spacing share) := by
  have hpos : 0 < share := lt_of_lt_of_le (zpow_pos (by norm_num) _) h
  obtain ⟨j, hj, hspacing⟩ := exists_spacing_eq_inv (p := 50) (q := 100 * share) (by linarith)
    (by norm_num at hlt ⊢; linarith) (by decide)
  obtain ⟨i, rfl⟩ : ∃ i, j = i + 2 := ⟨j - 2, by omega⟩
  have hS : (0 : ℚ) < spacing (100 * share) := spacing_pos
  -- the half is an even number of spacings
  have hunits : ((m * 2 ^ i * 2 : ℤ) : ℚ) * spacing (100 * share) = 100 * share := by
    rw [hspacing, ← hhalf, pow_add]
    push_cast
    field_simp
  have heven : m * 2 ^ i * 2 % 2 = 0 := by omega
  rw [percentDouble, nearestDouble, spacing_nearestDouble_mul h hlt hodd hhalf hdown]
  calc (roundHalfEven (nearestDouble share * 100 / spacing (100 * share)) : ℚ) *
        spacing (100 * share) < 100 * share
      ↔ (roundHalfEven (nearestDouble share * 100 / spacing (100 * share)) : ℚ) *
          spacing (100 * share) < (m * 2 ^ i * 2 : ℤ) * spacing (100 * share) := by rw [hunits]
    _ ↔ roundHalfEven (nearestDouble share * 100 / spacing (100 * share)) < m * 2 ^ i * 2 := by
        rw [mul_lt_mul_iff_left₀ hS, Int.cast_lt]
    _ ↔ nearestDouble share * 100 / spacing (100 * share) < (m * 2 ^ i * 2 : ℤ) - 1 / 2 :=
        roundHalfEven_lt_iff heven
    _ ↔ nearestDouble share * 100 < 100 * share - spacing (100 * share) / 2 := by
        rw [div_lt_iff₀ hS, sub_mul, hunits, one_div_mul_eq_div]
    _ ↔ spacing (100 * share) / 2 <
        100 * (Int.fract (share / spacing share) * spacing share) := by
        rw [nearestDouble_of_lt hdown]
        constructor <;> intro hineq <;> linarith

/-- A half is lost exactly where it should be. -/
theorem percentDouble_lt_iff_halfLost (h : 2 ^ (-1022 : ℤ) ≤ share) (hlt : share < 2 ^ 44)
    (hodd : m % 2 = 1) (hhalf : (m : ℚ) / 2 = 100 * share) :
    percentDouble share < 100 * share ↔ HalfLost share := by
  have hpos : 0 < share := lt_of_lt_of_le (zpow_pos (by norm_num) _) h
  have hs : (0 : ℚ) < spacing share := spacing_pos
  have hfract : Int.fract (100 * share) = 1 / 2 := by
    rw [← hhalf, Int.fract_eq_iff]
    refine ⟨by norm_num, by norm_num, m / 2, ?_⟩
    have hcast : (m : ℚ) = (2 * (m / 2) + 1 : ℤ) := by
      congr 1
      omega
    rw [hcast]
    push_cast
    ring
  rcases le_or_gt share (nearestDouble share) with hup | hdown
  · refine iff_of_false ?_ fun hlost => ?_
    · rw [not_lt, ← hhalf]
      exact half_le_percentDouble h hlt hhalf hup
    · have hround := roundHalfEven_lt_of_fract (by linarith [hlost.above]) hlost.below
      exact absurd (nearestDouble_lt_iff.mpr hround) (not_lt.mpr hup)
  · have hrest := (fract_le_of_roundHalfEven_lt (nearestDouble_lt_iff.mp hdown)).2
    rw [percentDouble_lt_iff h hlt hodd hhalf hdown]
    constructor
    · intro hlost
      rcases spacing_hundred h with hbinade | hbinade <;> rw [hbinade] at hlost
      · have habove : 8 / 25 < Int.fract (share / spacing share) := by nlinarith
        exact ⟨hfract, hbinade, habove,
          lt_of_le_of_ne hrest.2 (fract_ne_half hpos hlt hhalf)⟩
      · nlinarith [hrest.2]
    · intro hlost
      rw [hlost.binade]
      nlinarith [hlost.above]

/-- No half is lost between nothing and one percent. -/
theorem two_le_round_of_halfLost (hpos : 0 ≤ share) (hlost : HalfLost share) :
    2 ≤ round (100 * share) := by
  obtain ⟨-, -, n, hn⟩ := Int.fract_eq_iff.mp hlost.half
  have hround : round (100 * share) = n + 1 := by
    rw [round_eq_iff]
    push_cast
    constructor <;> linarith
  have hn_nonneg : 0 ≤ n := by
    have hlt : (-1 : ℚ) < n := by linarith
    have hint : -1 < n := by exact_mod_cast hlt
    omega
  have hn_ne : n ≠ 0 := by
    rintro rfl
    have hshare : share = 1 / 200 := by
      push_cast at hn
      linarith
    have hbelow := hlost.below
    rw [hshare, fract_half_percent] at hbelow
    norm_num at hbelow
  omega

end Percent

section Share

variable {n d : ℕ}

theorem percentDouble_zero : percentDouble 0 = 0 := by
  rw [percentDouble, nearestDouble_zero, zero_mul, nearestDouble_zero]

theorem abs_percentDouble_sub_lt (hn : n < 2 ^ 44) (hd : 0 < d) (hlt : d < 2 ^ 53) :
    |percentDouble (n / d) - 100 * (n / d)| < 1 / (2 * d) := by
  have hnumerator : (n : ℚ) < 2 ^ 44 := by exact_mod_cast hn
  have hdenominator : (0 : ℚ) < d := by exact_mod_cast hd
  rcases Nat.eq_zero_or_pos n with rfl | hpos
  · rw [Nat.cast_zero, zero_div, percentDouble_zero, mul_zero, sub_zero, abs_zero]
    positivity
  calc |percentDouble (n / d) - 100 * (n / d)|
      ≤ 100 * (n / d) * (1 / 2 ^ 52 + 1 / 2 ^ 106) :=
        abs_percentDouble_sub_le (two_zpow_le_div hpos hd hlt)
    _ < 100 * (2 ^ 44 / d) * (1 / 2 ^ 52 + 1 / 2 ^ 106) := by gcongr
    _ = 1 / d * (100 * 2 ^ 44 * (1 / 2 ^ 52 + 1 / 2 ^ 106)) := by ring
    _ ≤ 1 / d * (1 / 2) := by
        gcongr
        norm_num
    _ = 1 / (2 * d) := by
        field_simp

theorem share_lt (hn : n < 2 ^ 44) (hd : 0 < d) : (n : ℚ) / d < 2 ^ 44 := by
  have hnumerator : (n : ℚ) < 2 ^ 44 := by exact_mod_cast hn
  have hdenominator : (1 : ℚ) ≤ d := by exact_mod_cast hd
  exact (div_le_self (by positivity) hdenominator).trans_lt hnumerator

/-- A percentage is rounded to the right integer as long as no half is lost. -/
theorem round_percentDouble (hn : n < 2 ^ 44) (hd : 0 < d) (hlt : d < 2 ^ 53)
    (hkept : ¬HalfLost (n / d)) :
    round (percentDouble (n / d)) = round (100 * ((n : ℚ) / d)) := by
  rcases Nat.eq_zero_or_pos n with rfl | hpos
  · rw [Nat.cast_zero, zero_div, percentDouble_zero, mul_zero]
  have hfraction : 100 * ((n : ℚ) / d) = (100 * n : ℕ) / d := by
    push_cast
    ring
  have hnear := abs_percentDouble_sub_lt hn hd hlt
  rw [hfraction] at hnear ⊢
  refine round_eq_of_near hd hnear fun k hodd hk => ?_
  rw [← hfraction] at hk
  rw [hk, ← not_lt, percentDouble_lt_iff_halfLost (two_zpow_le_div hpos hd hlt) (share_lt hn hd)
    hodd hk]
  exact hkept

/-- A half that is lost is rounded down. -/
theorem round_percentDouble_of_halfLost (hn : n < 2 ^ 44) (hd : 0 < d) (hlt : d < 2 ^ 53)
    (hlost : HalfLost (n / d)) :
    round (percentDouble (n / d)) = round (100 * ((n : ℚ) / d)) - 1 := by
  have hpos : 0 < n := by
    rw [Nat.pos_iff_ne_zero]
    rintro rfl
    have hhalf := hlost.half
    norm_num at hhalf
  obtain ⟨-, -, k, hk⟩ := Int.fract_eq_iff.mp hlost.half
  have hhalf : ((2 * k + 1 : ℤ) : ℚ) / 2 = 100 * (n / d) := by
    push_cast
    linarith
  have hbelow := (percentDouble_lt_iff_halfLost (two_zpow_le_div hpos hd hlt) (share_lt hn hd)
    (by omega) hhalf).mpr hlost
  obtain ⟨habove, -⟩ := abs_lt.mp (abs_percentDouble_sub_lt hn hd hlt)
  have hpart : (1 : ℚ) / (2 * d) ≤ 1 / 2 := by
    have hone : (1 : ℚ) ≤ d := by exact_mod_cast hd
    gcongr
    linarith
  have hround : round (100 * ((n : ℚ) / d)) = k + 1 := by
    rw [round_eq_iff]
    push_cast
    constructor <;> linarith
  rw [hround, add_sub_cancel_right, round_eq_iff]
  constructor <;> linarith

theorem round_percentDouble_cases (hn : n < 2 ^ 44) (hd : 0 < d) (hlt : d < 2 ^ 53) :
    (¬HalfLost (n / d) ∧ round (percentDouble (n / d)) = round (100 * ((n : ℚ) / d))) ∨
      (HalfLost (n / d) ∧ 2 ≤ round (100 * ((n : ℚ) / d)) ∧
        round (percentDouble (n / d)) = round (100 * ((n : ℚ) / d)) - 1) := by
  by_cases hlost : HalfLost ((n : ℚ) / d)
  · exact .inr ⟨hlost, two_le_round_of_halfLost (by positivity) hlost,
      round_percentDouble_of_halfLost hn hd hlt hlost⟩
  · exact .inl ⟨hlost, round_percentDouble hn hd hlt hlost⟩

/-- The steps of a percentage stay finite. -/
theorem toDouble_percent (hn : n < 2 ^ 44) (hd : 0 < d) (hlt : d < 2 ^ 53) :
    ((toDouble (n / d)).bind fun share => toDouble (share * 100)) =
      some (percentDouble (n / d)) := by
  have hshare : (n : ℚ) / d < 2 ^ 44 := share_lt hn hd
  have hproduct : 0 ≤ nearestDouble (n / d) * 100 ∧ nearestDouble (n / d) * 100 < 2 ^ 53 := by
    rcases Nat.eq_zero_or_pos n with rfl | hpos
    · rw [Nat.cast_zero, zero_div, nearestDouble_zero]
      norm_num
    · have hpositive : (0 : ℚ) < n / d := by positivity
      obtain ⟨hge, hle⟩ := nearestDouble_bounds (two_zpow_le_div hpos hd hlt)
      norm_num at hshare ⊢
      constructor <;> linarith
  rw [toDouble_eq (by positivity) (hshare.trans (by norm_num)), Option.bind_some,
    toDouble_eq hproduct.1 hproduct.2, percentDouble]

end Share

/-! ## Factors -/

theorem round_eq_zero_iff_lt {x : ℚ} (hx : 0 ≤ x) : round x = 0 ↔ x < 1 / 2 := by
  rw [round_eq_zero_iff, Set.mem_Ico]
  exact and_iff_right (by linarith)

/-- An integer that stands for a number is right for another one, which is larger or smaller by
a large factor, if and only if both are rounded to zero. -/
theorem eq_round_iff {x y : ℚ} {r : ℤ} (hx : 0 ≤ x) (hy : 0 ≤ y)
    (hr : r = round x ∨ 2 ≤ round x ∧ r = round x - 1) (h : 1000 * x ≤ y ∨ 1000 * y ≤ x) :
    r = round y ↔ x < 1 / 2 ∧ y < 1 / 2 := by
  rw [← round_eq_zero_iff_lt hx, ← round_eq_zero_iff_lt hy]
  constructor
  · intro heq
    have hxabove := round_le_add_half x
    have hxbelow := sub_half_lt_round x
    have hyabove := round_le_add_half y
    have hybelow := sub_half_lt_round y
    rcases h with h | h
    · have hle : (round y : ℚ) ≤ round x := by
        have hint : round y ≤ round x := by omega
        exact_mod_cast hint
      have hzero := (round_eq_zero_iff_lt hx).mpr (by linarith)
      exact ⟨hzero, by omega⟩
    · have hle : (round x : ℚ) - 1 ≤ round y := by
        have hint : round x - 1 ≤ round y := by omega
        exact_mod_cast hint
      have hzero := (round_eq_zero_iff_lt hy).mpr (by linarith)
      exact ⟨by omega, hzero⟩
  · rintro ⟨hzero, hzero'⟩
    omega

end Minikura
