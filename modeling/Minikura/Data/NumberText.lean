import Mathlib.Data.Int.Log
import Mathlib.Data.List.DropRight
import Mathlib.Data.Rat.Floor
import Mathlib.Tactic.Positivity

/-!
# Texts and the numbers they denote

Blanks around texts, and the conversion from a text to the double nearest to what it denotes,
as ECMAScript has them. Doubles are rational numbers here; the text of an integer gives the
integer back as long as it is small enough to be a double.

## Main definitions

* `trim`, `numberOf` — `text.trim()` and `Number(text)`.
* `toDouble` — the nearest double, even at a tie.

## Main results

* `trim_trim`.
* `exists_toDouble` — how far a double is from what it stands for.
* `numberOf_toString` — a small integer is read back from its text.
-/

namespace Minikura

/-! ## Blanks -/

/-- White space and line terminators. -/
def isBlank (c : Char) : Bool :=
  let n := c.toNat
  (0x09 ≤ n && n ≤ 0x0D) || n == 0x20 || n == 0xA0 || n == 0x1680 ||
    (0x2000 ≤ n && n ≤ 0x200A) || n == 0x2028 || n == 0x2029 || n == 0x202F || n == 0x205F ||
    n == 0x3000 || n == 0xFEFF

def trimBlanks (t : List Char) : List Char := (t.dropWhile isBlank).rdropWhile isBlank

def trim (t : String) : String := String.ofList (trimBlanks t.toList)

theorem trimBlanks_trimBlanks (t : List Char) : trimBlanks (trimBlanks t) = trimBlanks t := by
  have hfront : (trimBlanks t).dropWhile isBlank = trimBlanks t := by
    refine List.dropWhile_eq_self_iff.mpr fun hpos => ?_
    have hprefix : trimBlanks t <+: t.dropWhile isBlank := List.rdropWhile_prefix _ _
    have hlength := hprefix.length_le
    have hhead : (trimBlanks t)[0] = (t.dropWhile isBlank)[0] := hprefix.getElem hpos
    rw [hhead]
    exact List.dropWhile_get_zero_not isBlank t (by omega)
  rw [trimBlanks, hfront]
  exact List.rdropWhile_idempotent _ _

theorem trim_trim (t : String) : trim (trim t) = trim t := by
  rw [trim, trim, String.toList_ofList, trimBlanks_trimBlanks]

/-! ## Doubles -/

def roundHalfEven (q : ℚ) : ℤ :=
  let rest := q - ⌊q⌋
  if rest < 1 / 2 ∨ (rest = 1 / 2 ∧ ⌊q⌋ % 2 = 0) then ⌊q⌋ else ⌊q⌋ + 1

/-- The distance between doubles of the size of a number. -/
def spacing (q : ℚ) : ℚ := 2 ^ max (Int.log 2 |q| - 52) (-1074)

/-- The double nearest to a number, if it is finite. -/
def toDouble (q : ℚ) : Option ℚ :=
  let d := roundHalfEven (q / spacing q) * spacing q
  if |d| < 2 ^ 1024 then some d else none

theorem roundHalfEven_intCast (n : ℤ) : roundHalfEven n = n := by
  simp [roundHalfEven]

theorem floor_le_roundHalfEven (q : ℚ) : ⌊q⌋ ≤ roundHalfEven q := by
  unfold roundHalfEven
  dsimp only
  split_ifs <;> omega

theorem roundHalfEven_le_floor_add_one (q : ℚ) : roundHalfEven q ≤ ⌊q⌋ + 1 := by
  unfold roundHalfEven
  dsimp only
  split_ifs <;> omega

section Spacing

variable {q : ℚ} {p : ℕ}

theorem spacing_pos : 0 < spacing q := by
  unfold spacing
  exact zpow_pos (by norm_num) _

/-- Below `2 ^ (p + 1)` the spacing is a power of two, and at most `2 ^ (p - 52)`. -/
theorem exists_spacing_eq_inv (hq : 0 ≤ q) (h : q < 2 ^ (p + 1)) (hp : p ≤ 52) :
    ∃ j : ℕ, 52 - p ≤ j ∧ spacing q = (2 ^ j)⁻¹ := by
  have hlog : Int.log 2 |q| ≤ p := by
    rw [abs_of_nonneg hq]
    rcases hq.eq_or_lt with rfl | hpos
    · simp
    · refine Int.lt_add_one_iff.mp ((Int.lt_zpow_iff_log_lt (by decide) hpos).mp ?_)
      exact_mod_cast h
  refine ⟨(-max (Int.log 2 |q| - 52) (-1074)).toNat, by omega, ?_⟩
  rw [spacing, ← zpow_natCast, ← zpow_neg]
  congr 1
  omega

/-- No number is moved across a multiple of its spacing. -/
theorem mul_spacing_le {n : ℤ} (h : n * spacing q ≤ q) :
    n * spacing q ≤ roundHalfEven (q / spacing q) * spacing q := by
  have hle : n ≤ roundHalfEven (q / spacing q) := by
    refine (Int.le_floor.mpr ?_).trans (floor_le_roundHalfEven _)
    rwa [le_div_iff₀ spacing_pos]
  exact mul_le_mul_of_nonneg_right (by exact_mod_cast hle) spacing_pos.le

theorem toDouble_natCast {n : ℕ} (h : n < 2 ^ 53) : toDouble n = some (n : ℚ) := by
  have hsmall : (n : ℚ) < 2 ^ (52 + 1) := by exact_mod_cast h
  obtain ⟨j, -, hspacing⟩ := exists_spacing_eq_inv (Nat.cast_nonneg n) hsmall le_rfl
  -- in units of the spacing, the number is an integer
  have hunits : (n : ℚ) / spacing n = ((n * 2 ^ j : ℤ) : ℚ) := by
    rw [hspacing, div_inv_eq_mul]
    push_cast
    rfl
  have hback : ((n * 2 ^ j : ℤ) : ℚ) * spacing n = n := by
    rw [← hunits, div_mul_cancel₀ _ spacing_pos.ne']
  have hfinite : |(n : ℚ)| < 2 ^ 1024 := by
    rw [Nat.abs_cast]
    exact hsmall.trans (pow_lt_pow_right₀ (by norm_num) (by omega))
  rw [toDouble, hunits, roundHalfEven_intCast, hback, if_pos hfinite]

/-- A number that is not too large is moved by less than its spacing, and across no integer. -/
theorem exists_toDouble (hq : 0 ≤ q) (h : q < 2 ^ (p + 1)) (hp : p ≤ 52) :
    ∃ d, toDouble q = some d ∧ (∀ k : ℕ, (k : ℚ) ≤ q → (k : ℚ) ≤ d) ∧
      d ≤ q + 2 ^ ((p : ℤ) - 52) := by
  obtain ⟨j, hj, hspacing⟩ := exists_spacing_eq_inv hq h hp
  have hsmall : spacing q ≤ 2 ^ ((p : ℤ) - 52) := by
    rw [hspacing, ← zpow_natCast, ← zpow_neg]
    exact zpow_le_zpow_right₀ (by norm_num) (by omega)
  have hbelow : (roundHalfEven (q / spacing q) : ℚ) * spacing q ≤ q + spacing q := by
    have hround : (roundHalfEven (q / spacing q) : ℚ) ≤ ⌊q / spacing q⌋ + 1 := by
      exact_mod_cast roundHalfEven_le_floor_add_one _
    have hfloor := Int.floor_le (q / spacing q)
    have hpos : 0 < spacing q := spacing_pos
    calc (roundHalfEven (q / spacing q) : ℚ) * spacing q
        ≤ (q / spacing q + 1) * spacing q := by gcongr; linarith
      _ = q + spacing q := by field_simp
  have habove : ∀ k : ℕ, (k : ℚ) ≤ q →
      (k : ℚ) ≤ roundHalfEven (q / spacing q) * spacing q := by
    intro k hk
    -- in units of the spacing, an integer stays one
    have hunits : ((k * 2 ^ j : ℤ) : ℚ) * spacing q = k := by
      rw [hspacing]
      push_cast
      field_simp
    have hle := mul_spacing_le (hunits.le.trans hk)
    rwa [hunits] at hle
  have hfinite : |(roundHalfEven (q / spacing q) : ℚ) * spacing q| < 2 ^ 1024 := by
    have hzero : (0 : ℚ) ≤ roundHalfEven (q / spacing q) * spacing q := by
      simpa using habove 0 (by simpa using hq)
    rw [abs_of_nonneg hzero]
    have hone : (2 : ℚ) ^ ((p : ℤ) - 52) ≤ 1 := zpow_le_one_of_nonpos₀ (by norm_num) (by omega)
    have hlarge : (2 : ℚ) ^ (p + 1) ≤ 2 ^ 53 := pow_le_pow_right₀ (by norm_num) (by omega)
    have hfar : (2 : ℚ) ^ 53 + 1 < 2 ^ 54 := by norm_num
    have hmax : (2 : ℚ) ^ 54 < 2 ^ 1024 := pow_lt_pow_right₀ (by norm_num) (by omega)
    exact lt_trans (by linarith) hmax
  refine ⟨_, if_pos hfinite, habove, hbelow.trans ?_⟩
  linarith

end Spacing

/-! ## Numbers -/

/-- The value of a digit of any base, else a number that no base reaches. -/
def digitValue (c : Char) : ℕ :=
  if '0' ≤ c ∧ c ≤ '9' then c.toNat - 48
  else if 'a' ≤ c ∧ c ≤ 'f' then c.toNat - 87
  else if 'A' ≤ c ∧ c ≤ 'F' then c.toNat - 55
  else 36

def digits (base : ℕ) (t : List Char) : Option ℕ :=
  if t ≠ [] ∧ t.all (digitValue · < base) then
    some (t.foldl (fun n c => base * n + digitValue c) 0)
  else none

def signed {α : Type} [Neg α] (read : List Char → Option α) : List Char → Option α
  | '-' :: t => (read t).map (-·)
  | '+' :: t => read t
  | t => read t

def isExponentMark (c : Char) : Bool := c == 'e' || c == 'E'

/-- Digits with a point among or around them, and with an exponent. -/
def unsignedDecimal (t : List Char) : Option ℚ := do
  let mantissa := t.takeWhile (!isExponentMark ·)
  let fraction := (mantissa.dropWhile (· ≠ '.')).drop 1
  let n ← digits 10 (mantissa.takeWhile (· ≠ '.') ++ fraction)
  let exponent ← match t.dropWhile (!isExponentMark ·) with
    | [] => some 0
    | _ :: e => signed (fun e => (digits 10 e).map Int.ofNat) e
  return n * 10 ^ (exponent - fraction.length)

/-- `Number(text)` where it is finite. -/
def numberOf (t : String) : Option ℚ :=
  let value := match trimBlanks t.toList with
    | [] => some 0
    | '0' :: 'x' :: t | '0' :: 'X' :: t => (digits 16 t).map Nat.cast
    | '0' :: 'o' :: t | '0' :: 'O' :: t => (digits 8 t).map Nat.cast
    | '0' :: 'b' :: t | '0' :: 'B' :: t => (digits 2 t).map Nat.cast
    | t => signed unsignedDecimal t
  value.bind toDouble

section ToString

variable {t : List Char}

theorem digitValue_of_isDigit {c : Char} (h : c.isDigit = true) :
    digitValue c = c.toNat - '0'.toNat ∧ digitValue c < 10 := by
  have hrange : 48 ≤ c.toNat ∧ c.toNat ≤ 57 := Char.isDigit_iff_toNat.mp h
  have hdigit : '0' ≤ c ∧ c ≤ '9' := by
    simpa [Char.le_def, UInt32.le_iff_toNat_le] using hrange
  rw [digitValue, if_pos hdigit]
  exact ⟨rfl, by omega⟩

theorem digits_of_isDigit (hne : t ≠ []) (h : ∀ c ∈ t, c.isDigit = true) :
    digits 10 t = some (Nat.ofDigitChars 10 t 0) := by
  have hall : t.all (digitValue · < 10) = true :=
    List.all_eq_true.mpr fun c hc => decide_eq_true (digitValue_of_isDigit (h c hc)).2
  rw [digits, if_pos ⟨hne, hall⟩, Nat.ofDigitChars]
  congr 1
  refine List.foldl_ext _ _ _ fun n c hc => ?_
  rw [(digitValue_of_isDigit (h c hc)).1]

theorem isBlank_of_isDigit {c : Char} (h : c.isDigit = true) : isBlank c = false := by
  have hrange : 48 ≤ c.toNat ∧ c.toNat ≤ 57 := Char.isDigit_iff_toNat.mp h
  simp only [isBlank, Bool.or_eq_false_iff, Bool.and_eq_false_iff, decide_eq_false_iff_not,
    beq_eq_false_iff_ne]
  omega

theorem trimBlanks_of_isDigit (h : ∀ c ∈ t, c.isDigit = true) : trimBlanks t = t := by
  have hfront : t.dropWhile isBlank = t := by
    refine List.dropWhile_eq_self_iff.mpr fun hpos => ?_
    rw [isBlank_of_isDigit (h _ (List.getElem_mem hpos))]
    exact Bool.false_ne_true
  rw [trimBlanks, hfront]
  refine List.rdropWhile_eq_self_iff.mpr fun hne => ?_
  rw [isBlank_of_isDigit (h _ (List.getLast_mem hne))]
  exact Bool.false_ne_true

/-- A digit is no sign. -/
theorem signed_of_isDigit {α : Type} [Neg α] {read : List Char → Option α} {c : Char}
    (h : c.isDigit = true) : signed read (c :: t) = read (c :: t) := by
  unfold signed
  split
  · next heq => exact absurd ((List.cons.inj heq).1 ▸ h) (by decide)
  · next heq => exact absurd ((List.cons.inj heq).1 ▸ h) (by decide)
  · rfl

theorem unsignedDecimal_of_isDigit (hne : t ≠ []) (h : ∀ c ∈ t, c.isDigit = true) :
    unsignedDecimal t = some (Nat.ofDigitChars 10 t 0 : ℚ) := by
  have hmark : ∀ c ∈ t, (!isExponentMark c) = true ∧ (c ≠ '.') := by
    intro c hc
    have hdigit := h c hc
    constructor
    · by_contra hno
      have hcases : c = 'e' ∨ c = 'E' := by
        simpa [isExponentMark, or_iff_not_imp_left] using hno
      rcases hcases with rfl | rfl <;> exact absurd hdigit (by decide)
    · rintro rfl
      exact absurd hdigit (by decide)
  have hmantissa : t.takeWhile (!isExponentMark ·) = t :=
    List.takeWhile_eq_self_iff.mpr fun c hc => (hmark c hc).1
  have hexponent : t.dropWhile (!isExponentMark ·) = [] :=
    List.dropWhile_eq_nil_iff.mpr fun c hc => (hmark c hc).1
  have hwhole : t.takeWhile (· ≠ '.') = t :=
    List.takeWhile_eq_self_iff.mpr fun c hc => decide_eq_true (hmark c hc).2
  have hfraction : t.dropWhile (· ≠ '.') = [] :=
    List.dropWhile_eq_nil_iff.mpr fun c hc => decide_eq_true (hmark c hc).2
  simp only [unsignedDecimal, hmantissa, hexponent, hwhole, hfraction, List.drop_nil,
    List.append_nil, digits_of_isDigit hne h]
  simp

/-- Small integers are read back from their texts. -/
theorem numberOf_toString {n : ℕ} (h : n < 2 ^ 53) : numberOf (toString n) = some (n : ℚ) := by
  have hdigits : ∀ c ∈ Nat.toDigits 10 n, c.isDigit = true :=
    fun c hc => Nat.isDigit_of_mem_toDigits (by decide) (by decide) hc
  have htext : (toString n).toList = Nat.toDigits 10 n := by
    rw [Nat.toString_eq_repr, Nat.toList_repr]
  have hread : signed unsignedDecimal (Nat.toDigits 10 n) = some (n : ℚ) := by
    have hnumber := unsignedDecimal_of_isDigit Nat.toDigits_ne_nil hdigits
    rw [Nat.ofDigitChars_ten_toDigits] at hnumber
    obtain ⟨c, t, heq⟩ := List.exists_cons_of_ne_nil (Nat.toDigits_ne_nil (b := 10) (n := n))
    rw [heq, signed_of_isDigit (hdigits c (by simp [heq])), ← heq, hnumber]
  have hsecond : ∀ c d : Char, ∀ t, Nat.toDigits 10 n = c :: d :: t → d.isDigit = true :=
    fun c d t heq => hdigits d (by simp [heq])
  simp only [numberOf, htext, trimBlanks_of_isDigit hdigits]
  split
  · next heq => exact absurd heq Nat.toDigits_ne_nil
  -- what marks another base has a letter in second place
  iterate 6
    · next t heq => exact absurd (hsecond _ _ t heq) (by decide)
  · rw [hread]
    exact toDouble_natCast h

theorem signed_toDigits (n : ℕ) :
    signed (fun t => (digits 10 t).map Int.ofNat) (Nat.toDigits 10 n) = some (n : ℤ) := by
  have hdigits : ∀ c ∈ Nat.toDigits 10 n, c.isDigit = true :=
    fun c hc => Nat.isDigit_of_mem_toDigits (by decide) (by decide) hc
  obtain ⟨c, t, heq⟩ := List.exists_cons_of_ne_nil (Nat.toDigits_ne_nil (b := 10) (n := n))
  rw [heq, signed_of_isDigit (hdigits c (by simp [heq])), ← heq,
    digits_of_isDigit Nat.toDigits_ne_nil hdigits, Nat.ofDigitChars_ten_toDigits]
  rfl

/-- Every integer is read back from its text. -/
theorem signed_toString (n : ℤ) :
    signed (fun t => (digits 10 t).map Int.ofNat) (toString n).toList = some n := by
  cases n with
  | ofNat n =>
    have htext : (toString (Int.ofNat n)).toList = Nat.toDigits 10 n := Nat.toList_repr
    rw [htext]
    exact signed_toDigits n
  | negSucc n =>
    have htext : (toString (Int.negSucc n)).toList = '-' :: Nat.toDigits 10 (n + 1) := by
      rw [show toString (Int.negSucc n) = "-" ++ Nat.repr (n + 1) from rfl, String.toList_append,
        Nat.toList_repr]
      rfl
    have hdigits : ∀ c ∈ Nat.toDigits 10 (n + 1), c.isDigit = true :=
      fun c hc => Nat.isDigit_of_mem_toDigits (by decide) (by decide) hc
    rw [htext, signed, digits_of_isDigit Nat.toDigits_ne_nil hdigits,
      Nat.ofDigitChars_ten_toDigits]
    rfl

theorem toString_int_inj {m n : ℤ} : toString m = toString n ↔ m = n := by
  refine ⟨fun h => ?_, congrArg toString⟩
  have hread := signed_toString m
  rw [h, signed_toString n] at hread
  exact (Option.some.inj hread).symm

end ToString

end Minikura
