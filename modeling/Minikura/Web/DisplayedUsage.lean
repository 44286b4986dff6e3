import Minikura.Data.DoubleRounding
import Minikura.Web.Metrics

/-!
# Displayed usage

The topology page reads every quantity of CPU in nanocores and every quantity of memory in `Ki`,
whatever its suffix. The metrics API chooses the suffix by the zeros at the end of the number.

## Main definitions

* `Quantity` — a quantity of the metrics API, in canonical form.
* `Measured` — the metrics display the amounts, and their shares of the capacities.
* `Quantity.UsageShown`, `Quantity.ShareShown` — what the page gets right.

## Main results

* `parseQuantityOf_text` — the number is read, and the suffix is not.
* `measured_iff` — when the page displays what was measured.
-/

namespace Minikura.Web

/-! ## Quantities -/

/-- A suffix, with the amount that it stands for. -/
structure Suffix where
  text : String
  size : ℕ
deriving DecidableEq

def nano : Suffix := ⟨"n", 1⟩

def kibi : Suffix := ⟨"Ki", 2 ^ 10⟩

/-- The suffixes of CPU, in nanocores. -/
def cpuSuffixes : List Suffix := [nano, ⟨"u", 10 ^ 3⟩, ⟨"m", 10 ^ 6⟩, ⟨"", 10 ^ 9⟩]

/-- The suffixes of memory, in bytes. -/
def memorySuffixes : List Suffix := [⟨"", 1⟩, kibi, ⟨"Mi", 2 ^ 20⟩, ⟨"Gi", 2 ^ 30⟩]

/-- A number with one of the suffixes of its resource. -/
structure Quantity (suffixes : List Suffix) where
  number : ℕ
  suffix : Suffix
  mem : suffix ∈ suffixes

section Quantity

variable {suffixes : List Suffix}

def Quantity.text (q : Quantity suffixes) : String := toString q.number ++ q.suffix.text

/-- What was measured. -/
def Quantity.amount (q : Quantity suffixes) : ℕ := q.number * q.suffix.size

/-- In a unit of the given size the usage is shown as it is: its suffix is the one that is
expected, or it is rounded to zero both in the unit that is expected and in its own. -/
def Quantity.UsageShown (q : Quantity suffixes) (base : Suffix) (size : ℕ) : Prop :=
  q.suffix = base ∨ (2 * (q.number * base.size) < size ∧ 2 * q.amount < size)

/-- The share of a capacity is shown as it is: both have one suffix, and no half is lost, or the
percentage is rounded to zero both with the suffixes and without. -/
def Quantity.ShareShown (q capacity : Quantity suffixes) : Prop :=
  (q.suffix = capacity.suffix ∧ ¬HalfLost (q.number / capacity.number)) ∨
    (200 * q.number < capacity.number ∧ 200 * q.amount < capacity.amount)

end Quantity

/-- The metrics display what was measured, to the nearest unit. -/
structure Measured (cpu : Quantity cpuSuffixes) (memory : Quantity memorySuffixes)
    (cpuCapacity : Option (Quantity cpuSuffixes))
    (memoryCapacity : Option (Quantity memorySuffixes)) (metrics : ResourceMetrics) : Prop where
  cpuUsage : metrics.cpuUsage = some (toString (round (cpu.amount / 10 ^ 6 : ℚ)) ++ "m")
  cpuUsagePercent : ∀ capacity ∈ cpuCapacity,
    metrics.cpuUsagePercent = some (round (100 * (cpu.amount / capacity.amount) : ℚ))
  memoryUsage : metrics.memoryUsage = some (toString (round (memory.amount / 2 ^ 20 : ℚ)) ++ "Mi")
  memoryUsagePercent : ∀ capacity ∈ memoryCapacity,
    metrics.memoryUsagePercent = some (round (100 * (memory.amount / capacity.amount) : ℚ))

/-! ## Reading -/

/-- Quantities with these suffixes are read as if they had none but the expected one. -/
structure Suffix.Expected (base : Suffix) (suffixes : List Suffix) : Prop where
  letter : (base.text.toList.head?.map Char.isDigit) = some false
  unread : ∀ s ∈ suffixes,
    (withoutFirst base.text.toList s.text.toList).takeWhile Char.isDigit = []
  pos : ∀ s ∈ suffixes, 0 < s.size
  apart : ∀ s ∈ suffixes, ∀ s' ∈ suffixes,
    s = s' ∨ 1000 * s.size ≤ s'.size ∨ 1000 * s'.size ≤ s.size
  mem : base ∈ suffixes

theorem nano_expected : nano.Expected cpuSuffixes where
  letter := by decide
  unread := by decide
  pos := by decide
  apart := by decide
  mem := by decide

theorem kibi_expected : kibi.Expected memorySuffixes where
  letter := by decide
  unread := by decide
  pos := by decide
  apart := by decide
  mem := by decide

section Reading

variable {base : Suffix} {suffixes : List Suffix} {text part rest : List Char}

/-- What starts with a letter is not found among digits. -/
theorem withoutFirst_append (hpart : part.head?.map Char.isDigit = some false)
    (htext : ∀ c ∈ text, c.isDigit = true) :
    withoutFirst part (text ++ rest) = text ++ withoutFirst part rest := by
  induction text with
  | nil => rfl
  | cons c text ih =>
    have hno : ¬part <+: c :: (text ++ rest) := by
      intro hprefix
      cases part with
      | nil => cases hpart
      | cons p part =>
        obtain ⟨rfl, -⟩ := List.cons_prefix_cons.mp hprefix
        exact Bool.false_ne_true ((Option.some.inj hpart).symm.trans (htext p (.head _)))
    rw [List.cons_append, withoutFirst, if_neg hno, ih fun d hd => htext d (.tail _ hd)]
    rfl

theorem parseInt_append (hne : text ≠ []) (htext : ∀ c ∈ text, c.isDigit = true)
    (hrest : rest.takeWhile Char.isDigit = []) :
    parseInt (String.ofList (text ++ rest)) = toDouble (Nat.ofDigitChars 10 text 0) := by
  have hnumber : (text ++ rest).takeWhile Char.isDigit = text := by
    rw [List.takeWhile_append_of_pos htext, hrest, List.append_nil]
  obtain ⟨c, t, heq⟩ : ∃ c t, text ++ rest = c :: t :=
    List.exists_cons_of_ne_nil (List.append_ne_nil_of_left_ne_nil hne rest)
  have hdigit : c.isDigit = true := by
    cases text with
    | nil => exact absurd rfl hne
    | cons d text =>
      obtain ⟨rfl, -⟩ := List.cons.inj heq
      exact htext d (.head _)
  rw [parseInt, String.toList_ofList, heq,
    List.dropWhile_cons_of_neg (by rw [isBlank_of_isDigit hdigit]; exact Bool.false_ne_true),
    signed_of_isDigit hdigit, ← heq, hnumber, digits_of_isDigit hne htext]
  rfl

/-- The number is read, whatever the suffix. -/
theorem parseQuantityOf_text (hbase : base.Expected suffixes) (q : Quantity suffixes)
    (hq : q.number < 2 ^ 53) : parseQuantityOf base.text q.text = some (q.number : ℚ) := by
  have hdigits : ∀ c ∈ Nat.toDigits 10 q.number, c.isDigit = true :=
    fun c hc => Nat.isDigit_of_mem_toDigits (by decide) (by decide) hc
  have htext : q.text.toList = Nat.toDigits 10 q.number ++ q.suffix.text.toList := by
    rw [Quantity.text, String.toList_append, Nat.toString_eq_repr, Nat.toList_repr]
  rw [parseQuantityOf, htext, withoutFirst_append hbase.letter hdigits,
    parseInt_append Nat.toDigits_ne_nil hdigits (hbase.unread _ q.mem),
    Nat.ofDigitChars_ten_toDigits]
  exact toDouble_natCast hq

end Reading

/-! ## What is displayed -/

section Displayed

variable {base : Suffix} {suffixes : List Suffix} {n d a b : ℕ}

theorem mathRound_eq_round (q : ℚ) : mathRound q = round q := (round_eq q).symm

theorem div_lt_half_iff (hd : 0 < d) : (n : ℚ) / d < 1 / 2 ↔ 2 * n < d := by
  have hpos : (0 : ℚ) < d := by exact_mod_cast hd
  rw [div_lt_div_iff₀ hpos (by norm_num), one_mul, mul_comm]
  exact_mod_cast Iff.rfl

/-- Numbers of units that are far apart. -/
theorem factor_le (n d : ℕ) (h : 1000 * a ≤ b) :
    1000 * (((n * a : ℕ) : ℚ) / d) ≤ ((n * b : ℕ) : ℚ) / d := by
  have hle : 1000 * (n * a) ≤ n * b := by
    calc 1000 * (n * a) = n * (1000 * a) := by ring
      _ ≤ n * b := Nat.mul_le_mul_left n h
  rw [← mul_div_assoc]
  exact div_le_div_of_nonneg_right (by exact_mod_cast hle) (Nat.cast_nonneg d)

/-- An integer made of a number of units is right for the same number of units of another size
if and only if both are rounded to zero. -/
theorem eq_round_iff_of_apart {r : ℤ} (hd : 0 < d) (hr : r = round (((n * a : ℕ) : ℚ) / d) ∨
    2 ≤ round (((n * a : ℕ) : ℚ) / d) ∧ r = round (((n * a : ℕ) : ℚ) / d) - 1)
    (h : 1000 * a ≤ b ∨ 1000 * b ≤ a) :
    r = round (((n * b : ℕ) : ℚ) / d) ↔ 2 * (n * a) < d ∧ 2 * (n * b) < d := by
  rw [eq_round_iff (by positivity) (by positivity) hr (h.imp (factor_le n d) (factor_le n d)),
    div_lt_half_iff hd, div_lt_half_iff hd]

theorem parseUsage_text (unit : String) (hbase : base.Expected suffixes) (q : Quantity suffixes)
    (hq : q.number < 2 ^ 44) (hd : 0 < d) (hlt : d < 2 ^ 53) :
    parseUsage base.text d unit q.text =
      some (toString (round ((q.number : ℚ) / d)) ++ unit) := by
  have hfinite : (q.number : ℚ) / d < 2 ^ 53 := (share_lt hq hd).trans (by norm_num)
  rw [parseUsage, parseQuantityOf_text hbase q (hq.trans (by norm_num)), Option.bind_eq_bind,
    Option.bind_some, toDouble_eq (by positivity) hfinite, ← round_nearestDouble_div
    (hq.trans (by norm_num)) hd hlt, ← mathRound_eq_round]
  rfl

theorem calculatePercent_text (hbase : base.Expected suffixes) (q capacity : Quantity suffixes)
    (hq : q.number < 2 ^ 44) (hcapacity : 0 < capacity.number)
    (hlt : capacity.number < 2 ^ 53) : calculatePercent base.text q.text capacity.text =
      some (round (percentDouble (q.number / capacity.number))) := by
  have hne : (capacity.number : ℚ) ≠ 0 := by exact_mod_cast hcapacity.ne'
  have hpercent := toDouble_percent hq hcapacity hlt
  rw [calculatePercent, parseQuantityOf_text hbase q (hq.trans (by norm_num)),
    parseQuantityOf_text hbase capacity hlt]
  simp only [Option.bind_eq_bind, Option.bind_some, if_neg hne]
  rw [← Option.bind_assoc, hpercent, ← mathRound_eq_round]
  rfl

/-- The usage displayed is right exactly where it can be seen from the suffix and the number. -/
theorem parseUsage_eq_iff (unit : String) (hbase : base.Expected suffixes)
    (q : Quantity suffixes)
    (hq : q.number < 2 ^ 44) (hd : 0 < d) (hlt : d < 2 ^ 53) :
    parseUsage base.text d unit q.text =
      some (toString (round ((q.amount : ℚ) / (d * base.size : ℕ))) ++ unit) ↔
      q.UsageShown base (d * base.size) := by
  have hsize : 0 < base.size := hbase.pos base hbase.mem
  have hread : (q.number : ℚ) / d = ((q.number * base.size : ℕ) : ℚ) / (d * base.size : ℕ) := by
    push_cast
    rw [mul_div_mul_right _ _ (by exact_mod_cast hsize.ne')]
  rw [parseUsage_text unit hbase q hq hd hlt, Option.some_inj, String.append_left_inj, hread,
    Quantity.UsageShown]
  refine toString_int_inj.trans ?_
  by_cases hsuffix : q.suffix = base
  · rw [Quantity.amount, hsuffix]
    exact iff_of_true rfl (.inl rfl)
  · have hapart := (hbase.apart base hbase.mem q.suffix q.mem).resolve_left (Ne.symm hsuffix)
    rw [or_iff_right hsuffix]
    exact eq_round_iff_of_apart (Nat.mul_pos hd hsize) (.inl rfl) hapart

/-- So is the percentage, but for the halves that are lost. -/
theorem calculatePercent_eq_iff (hbase : base.Expected suffixes) (q capacity : Quantity suffixes)
    (hq : q.number < 2 ^ 44) (hcapacity : 0 < capacity.number)
    (hlt : capacity.number < 2 ^ 53) : calculatePercent base.text q.text capacity.text =
      some (round (100 * ((q.amount : ℚ) / capacity.amount))) ↔ q.ShareShown capacity := by
  have hsize : 0 < capacity.suffix.size := hbase.pos _ capacity.mem
  have hamount : 0 < capacity.amount := Nat.mul_pos hcapacity hsize
  have hread : 100 * ((q.number : ℚ) / capacity.number) =
      ((100 * q.number * capacity.suffix.size : ℕ) : ℚ) / capacity.amount := by
    rw [Quantity.amount]
    push_cast
    rw [mul_div_mul_right _ _ (by exact_mod_cast hsize.ne'), mul_div_assoc]
  have hexact : 100 * ((q.amount : ℚ) / capacity.amount) =
      ((100 * q.number * q.suffix.size : ℕ) : ℚ) / capacity.amount := by
    rw [Quantity.amount]
    push_cast
    ring
  have hshort : 200 * q.number < capacity.number ↔
      2 * (100 * q.number * capacity.suffix.size) < capacity.amount := by
    have hassoc : 2 * (100 * q.number * capacity.suffix.size) =
        200 * q.number * capacity.suffix.size := by ring
    rw [hassoc, Quantity.amount, Nat.mul_lt_mul_right hsize]
  have hshort' : 200 * q.amount < capacity.amount ↔
      2 * (100 * q.number * q.suffix.size) < capacity.amount := by
    rw [Quantity.amount, ← mul_assoc, ← mul_assoc, ← mul_assoc]
    rfl
  have hcases := round_percentDouble_cases hq hcapacity hlt
  rw [calculatePercent_text hbase q capacity hq hcapacity hlt, Option.some_inj, hexact,
    Quantity.ShareShown, hshort, hshort']
  by_cases hsuffix : q.suffix = capacity.suffix
  · rw [hsuffix, ← hread, and_self]
    rcases hcases with ⟨hkept, hround⟩ | ⟨hlost, htwo, hround⟩
    · exact iff_of_true hround (.inl ⟨rfl, hkept⟩)
    · refine iff_of_false (by omega) ?_
      rintro (⟨-, hkept⟩ | hlow)
      · exact hkept hlost
      · have hzero := (round_eq_zero_iff_lt (by positivity)).mpr
          (hread ▸ (div_lt_half_iff hamount).mpr hlow)
        omega
  · have hapart := (hbase.apart _ capacity.mem _ q.mem).resolve_left (Ne.symm hsuffix)
    rw [or_iff_right fun h => hsuffix h.1]
    rw [hread] at hcases
    exact eq_round_iff_of_apart hamount (hcases.imp (·.2) (·.2)) hapart

end Displayed

/-! ## The metrics of the page -/

section Metrics

variable {suffixes : List Suffix}

theorem given_text (q : Quantity suffixes) : given (some q.text) = some q.text := by
  have hne : q.text ≠ "" := by
    intro hempty
    have hlist := congrArg String.toList hempty
    rw [Quantity.text, String.toList_append, Nat.toString_eq_repr, Nat.toList_repr] at hlist
    exact Nat.toDigits_ne_nil (List.append_eq_nil_iff.mp hlist).1
  exact Option.filter_eq_some_iff.mpr ⟨rfl, by simpa using hne⟩

theorem parseCpuUsage_eq_iff (cpu : Quantity cpuSuffixes) (hcpu : cpu.number < 2 ^ 44) :
    parseCpuUsage cpu.text = some (toString (round (cpu.amount / 10 ^ 6 : ℚ)) ++ "m") ↔
      cpu.UsageShown nano (10 ^ 6) := by
  have hiff := parseUsage_eq_iff "m" nano_expected cpu hcpu (d := 10 ^ 6) (by decide) (by decide)
  norm_num [nano] at hiff ⊢
  exact hiff

theorem parseMemoryUsage_eq_iff (memory : Quantity memorySuffixes)
    (hmemory : memory.number < 2 ^ 44) :
    parseMemoryUsage memory.text =
      some (toString (round (memory.amount / 2 ^ 20 : ℚ)) ++ "Mi") ↔
      memory.UsageShown kibi (2 ^ 20) := by
  have hiff := parseUsage_eq_iff "Mi" kibi_expected memory hmemory (d := 2 ^ 10) (by decide)
    (by decide)
  norm_num [kibi] at hiff ⊢
  exact hiff

/-- The percentage, of a capacity if there is one. -/
theorem percents_eq_iff {base : Suffix} (hbase : base.Expected suffixes) (q : Quantity suffixes)
    {capacity : Option (Quantity suffixes)} (hq : q.number < 2 ^ 44)
    (hcapacity : ∀ c ∈ capacity, 0 < c.number ∧ c.number < 2 ^ 53) :
    (∀ c ∈ capacity, (capacity.bind fun c => calculatePercent base.text q.text c.text) =
      some (round (100 * ((q.amount : ℚ) / c.amount)))) ↔ ∀ c ∈ capacity, q.ShareShown c := by
  refine forall₂_congr fun c hc => ?_
  obtain ⟨hpos, hlt⟩ := hcapacity c hc
  rw [hc, Option.bind_some]
  exact calculatePercent_eq_iff hbase q c hq hpos hlt

/-- What is computed of quantities, none of which is left out. -/
theorem parseK8sMetrics_text (cpu : Quantity cpuSuffixes) (memory : Quantity memorySuffixes)
    (cpuCapacity : Option (Quantity cpuSuffixes))
    (memoryCapacity : Option (Quantity memorySuffixes)) :
    parseK8sMetrics (some cpu.text) (some memory.text) (cpuCapacity.map (·.text))
        (memoryCapacity.map (·.text)) = {
      cpuUsage := parseCpuUsage cpu.text
      cpuUsagePercent := cpuCapacity.bind fun c => calculateCpuPercent cpu.text c.text
      memoryUsage := parseMemoryUsage memory.text
      memoryUsagePercent := memoryCapacity.bind fun c =>
        calculateMemoryPercent memory.text c.text } := by
  cases cpuCapacity <;> cases memoryCapacity <;>
    simp only [parseK8sMetrics, Option.map_some, Option.map_none, given_text,
      Option.bind_eq_bind, Option.bind_some, Option.bind_none] <;> rfl

/-- For numbers that doubles can bear, the page displays what was measured if and only if each
usage has the suffix that is expected, or rounds to zero, and each share is of a capacity with
the same suffix and no half that is lost, or rounds to zero. -/
theorem measured_iff (cpu : Quantity cpuSuffixes) (memory : Quantity memorySuffixes)
    (cpuCapacity : Option (Quantity cpuSuffixes))
    (memoryCapacity : Option (Quantity memorySuffixes))
    (hcpu : cpu.number < 2 ^ 44) (hmemory : memory.number < 2 ^ 44)
    (hcpuCapacity : ∀ c ∈ cpuCapacity, 0 < c.number ∧ c.number < 2 ^ 53)
    (hmemoryCapacity : ∀ c ∈ memoryCapacity, 0 < c.number ∧ c.number < 2 ^ 53) :
    Measured cpu memory cpuCapacity memoryCapacity
        (parseK8sMetrics (some cpu.text) (some memory.text) (cpuCapacity.map (·.text))
          (memoryCapacity.map (·.text))) ↔
      cpu.UsageShown nano (10 ^ 6) ∧ memory.UsageShown kibi (2 ^ 20) ∧
        (∀ c ∈ cpuCapacity, cpu.ShareShown c) ∧ (∀ c ∈ memoryCapacity, memory.ShareShown c) := by
  rw [parseK8sMetrics_text, ← parseCpuUsage_eq_iff cpu hcpu,
    ← parseMemoryUsage_eq_iff memory hmemory]
  have hcpuPercent := percents_eq_iff nano_expected cpu hcpu hcpuCapacity
  have hmemoryPercent := percents_eq_iff kibi_expected memory hmemory hmemoryCapacity
  constructor
  · rintro ⟨hcpuUsage, hcpuShare, hmemoryUsage, hmemoryShare⟩
    exact ⟨hcpuUsage, hmemoryUsage, hcpuPercent.mp hcpuShare, hmemoryPercent.mp hmemoryShare⟩
  · rintro ⟨hcpuUsage, hmemoryUsage, hcpuShare, hmemoryShare⟩
    exact ⟨hcpuUsage, hcpuPercent.mpr hcpuShare, hmemoryUsage, hmemoryPercent.mpr hmemoryShare⟩

/-- A half that is lost: it is 28.5 percent. -/
example : calculateCpuPercent "57n" "200n" = some 28 := by decide +kernel

end Metrics

/-! ## Quantities to run it with -/

/-- In nanocores, as it ends in no zeros. -/
def sixteenthOfCore : Quantity cpuSuffixes := ⟨62500001, nano, by decide⟩

def onlyCore : Quantity cpuSuffixes := ⟨1000000000, nano, by decide⟩

def quarterOfMemory : Quantity memorySuffixes := ⟨512001, kibi, by decide⟩

def allMemory : Quantity memorySuffixes := ⟨2048001, kibi, by decide⟩

/-- A quarter of a core, which ends in zeros. -/
def quarterOfCore : Quantity cpuSuffixes := ⟨250, ⟨"m", 10 ^ 6⟩, by decide⟩

theorem measured_iff_sixteenthOfCore :
    Measured sixteenthOfCore quarterOfMemory (some onlyCore) (some allMemory)
        (parseK8sMetrics (some sixteenthOfCore.text) (some quarterOfMemory.text)
          (some onlyCore.text) (some allMemory.text)) := by
  have hkept : ¬HalfLost (512001 / 2048001) := by
    intro hlost
    have hhalf := hlost.half
    norm_num at hhalf
  have hkept' : ¬HalfLost (62500001 / 1000000000) := by
    intro hlost
    have hhalf := hlost.half
    norm_num at hhalf
  refine (measured_iff sixteenthOfCore quarterOfMemory (some onlyCore) (some allMemory)
    (by decide) (by decide) ?_ ?_).mpr ⟨.inl rfl, .inl rfl, ?_, ?_⟩
  · rintro c ⟨⟩
    decide
  · rintro c ⟨⟩
    decide
  · rintro c ⟨⟩
    exact .inl ⟨rfl, by simpa [sixteenthOfCore, onlyCore] using hkept'⟩
  · rintro c ⟨⟩
    exact .inl ⟨rfl, by simpa [quarterOfMemory, allMemory] using hkept⟩

/-- The quarter of a core is displayed as nothing. -/
theorem quarter_of_core_lost : ¬∀ (cpu : Quantity cpuSuffixes) (memory : Quantity memorySuffixes)
    (cpuCapacity : Option (Quantity cpuSuffixes))
    (memoryCapacity : Option (Quantity memorySuffixes)),
    cpu.number < 2 ^ 44 → memory.number < 2 ^ 44 →
    (∀ c ∈ cpuCapacity, 0 < c.number ∧ c.number < 2 ^ 53) →
    (∀ c ∈ memoryCapacity, 0 < c.number ∧ c.number < 2 ^ 53) →
    Measured cpu memory cpuCapacity memoryCapacity
      (parseK8sMetrics (some cpu.text) (some memory.text) (cpuCapacity.map (·.text))
        (memoryCapacity.map (·.text))) := by
  intro h
  have hcpu := (h quarterOfCore quarterOfMemory none none (by decide) (by decide)
    (by rintro c ⟨⟩) (by rintro c ⟨⟩)).cpuUsage
  have hshown : (parseK8sMetrics (some quarterOfCore.text) (some quarterOfMemory.text)).cpuUsage =
      some "0m" := by decide +kernel
  have hround : round ((quarterOfCore.amount : ℚ) / 10 ^ 6) = 250 := by
    norm_num [Quantity.amount, quarterOfCore]
  rw [hround] at hcpu
  exact absurd (hcpu.symm.trans hshown) (by decide)

end Minikura.Web
