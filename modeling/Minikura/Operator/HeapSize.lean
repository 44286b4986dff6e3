import Minikura.Operator.ContainerResources

/-!
# The heap of a server

`JVMEnv` sets the heap of the JVM and `ResourceRequirements` the limit of its container, each
from the memory of the custom resource. The heap is computed in machine integers.

## Main definitions

* `heapRun` — the computation of `HeapMB` in `int32` and `int64`.
* `heapSize` — the heap for a limit and a percentage that count.

## Main results

* `heapMB_toInt` — the machine computes what `heapMB` states.
* `heap_fits_limit` — the heap is within the limit, and it grows with it.
-/

namespace Minikura.Operator

/-! ## Machine integers -/

/-- What `HeapMB` computes, with the defaults in place. -/
structure HeapRun where
  limitMB : Int32
  heapPercent : Int32
  product : Int64
  quotient : Int64
  heap : Int64

/-- `HeapMB` up to the text. -/
def heapRun (limitMB heapPercent : Int32) : HeapRun :=
  let limitMB := if limitMB ≤ 0 then .ofInt defaultMemoryLimitMB else limitMB
  let heapPercent :=
    if heapPercent ≤ 0 || heapPercent > 100 then .ofInt defaultHeapPercent else heapPercent
  let product := limitMB.toInt64 * heapPercent.toInt64
  let quotient := product / 100
  let heap := if quotient < .ofInt minHeapMB then .ofInt minHeapMB else quotient
  { limitMB, heapPercent, product, quotient, heap }

/-- No operation overflows. -/
structure HeapRun.Exact (run : HeapRun) : Prop where
  product : run.product.toInt = run.limitMB.toInt * run.heapPercent.toInt
  quotient : run.quotient.toInt = run.limitMB.toInt * run.heapPercent.toInt / 100

/-! ## The heap of a limit -/

/-- The percentage that counts. -/
def effectivePercent (heapPercent : ℤ) : ℤ :=
  if heapPercent ≤ 0 || heapPercent > 100 then defaultHeapPercent else heapPercent

/-- The limit that counts. -/
def effectiveLimitMB (limitMB : ℤ) : ℤ :=
  if limitMB ≤ 0 then defaultMemoryLimitMB else limitMB

/-- A percentage of the limit, and no less than what a JVM needs. -/
def heapSize (limitMB heapPercent : ℤ) : ℤ := max minHeapMB (limitMB * heapPercent / 100)

section HeapSize

variable {limitMB limitMB' heapPercent : ℤ}

theorem effectivePercent_mem (heapPercent : ℤ) :
    0 < effectivePercent heapPercent ∧ effectivePercent heapPercent ≤ 100 := by
  unfold effectivePercent
  split_ifs with h
  · decide
  · simp only [Bool.or_eq_true, decide_eq_true_eq] at h
    omega

theorem effectivePercent_of_mem (hpos : 1 ≤ heapPercent) (hle : heapPercent ≤ 100) :
    effectivePercent heapPercent = heapPercent := by
  rw [effectivePercent, if_neg]
  simp only [Bool.or_eq_true, decide_eq_true_eq]
  omega

theorem heapMB_eq (limitMB heapPercent : ℤ) : heapMB limitMB heapPercent =
    toString (heapSize (effectiveLimitMB limitMB) (effectivePercent heapPercent)) ++ "M" := by
  have hmax : ∀ a b : ℤ, (if a < b then b else a) = max b a := by
    intro a b
    split_ifs <;> omega
  rw [heapMB, heapSize, ← hmax]
  rfl

theorem minHeapMB_le_heapSize : minHeapMB ≤ heapSize limitMB heapPercent := le_max_left _ _

theorem heapSize_le (hmin : minHeapMB ≤ limitMB) (hlimit : 0 ≤ limitMB)
    (hle : heapPercent ≤ 100) : heapSize limitMB heapPercent ≤ limitMB := by
  refine max_le hmin ?_
  calc limitMB * heapPercent / 100
      ≤ limitMB * 100 / 100 :=
        Int.ediv_le_ediv (by decide) (Int.mul_le_mul_of_nonneg_left hle hlimit)
    _ = limitMB := Int.mul_ediv_cancel _ (by decide)

theorem heapSize_mono (hpos : 0 ≤ heapPercent) (h : limitMB ≤ limitMB') :
    heapSize limitMB heapPercent ≤ heapSize limitMB' heapPercent :=
  max_le_max le_rfl
    (Int.ediv_le_ediv (by decide) (Int.mul_le_mul_of_nonneg_right h hpos))

theorem heapSize_eq (h : minHeapMB ≤ limitMB * heapPercent / 100) :
    heapSize limitMB heapPercent = limitMB * heapPercent / 100 := max_eq_right h

end HeapSize

/-! ## The machine and the integers -/

section Machine

variable (limitMB heapPercent : Int32)

theorem heapRun_limitMB :
    (heapRun limitMB heapPercent).limitMB.toInt = effectiveLimitMB limitMB.toInt := by
  simp only [heapRun, effectiveLimitMB, Int32.le_iff_toInt_le, Int32.toInt_zero]
  split_ifs <;> rfl

theorem heapRun_heapPercent :
    (heapRun limitMB heapPercent).heapPercent.toInt = effectivePercent heapPercent.toInt := by
  have hhundred : Int32.toInt 100 = 100 := rfl
  simp only [heapRun, effectivePercent, Int32.le_iff_toInt_le, gt_iff_lt, Int32.lt_iff_toInt_lt,
    Int32.toInt_zero, hhundred]
  split_ifs <;> rfl

theorem effectiveLimitMB_toInt_mem :
    0 < effectiveLimitMB limitMB.toInt ∧ effectiveLimitMB limitMB.toInt < 2 ^ 31 := by
  have hlt := limitMB.toInt_lt
  unfold effectiveLimitMB
  split_ifs
  · decide
  · omega

/-- The product of an `int32` and a percentage is an `int64`. -/
theorem heapRun_exact : (heapRun limitMB heapPercent).Exact := by
  have hlimit := effectiveLimitMB_toInt_mem limitMB
  have hpercent := effectivePercent_mem heapPercent.toInt
  rw [← heapRun_limitMB limitMB heapPercent] at hlimit
  rw [← heapRun_heapPercent limitMB] at hpercent
  set run := heapRun limitMB heapPercent with hrun
  have hbelow : 0 ≤ run.limitMB.toInt * run.heapPercent.toInt :=
    Int.mul_nonneg hlimit.1.le hpercent.1.le
  have habove : run.limitMB.toInt * run.heapPercent.toInt ≤ 2 ^ 31 * 100 := by
    calc run.limitMB.toInt * run.heapPercent.toInt
        ≤ 2 ^ 31 * run.heapPercent.toInt :=
          Int.mul_le_mul_of_nonneg_right hlimit.2.le hpercent.1.le
      _ ≤ 2 ^ 31 * 100 := Int.mul_le_mul_of_nonneg_left hpercent.2 (by decide)
  have hproduct : run.product.toInt = run.limitMB.toInt * run.heapPercent.toInt := by
    change (run.limitMB.toInt64 * run.heapPercent.toInt64).toInt = _
    rw [Int64.toInt_mul, Int32.toInt_toInt64, Int32.toInt_toInt64]
    exact Int.bmod_eq_of_le_mul_two (by omega) (by omega)
  refine ⟨hproduct, ?_⟩
  change (run.product / 100).toInt = _
  rw [Int64.toInt_div_of_ne_right _ _ (by decide), hproduct]
  exact Int.tdiv_eq_ediv_of_nonneg hbelow

/-- The text is that of the number which the machine computes. -/
theorem heapMB_toInt :
    heapMB limitMB.toInt heapPercent.toInt =
      toString (heapRun limitMB heapPercent).heap.toInt ++ "M" := by
  have hquotient := (heapRun_exact limitMB heapPercent).quotient
  rw [heapRun_limitMB, heapRun_heapPercent] at hquotient
  have hmin : (Int64.ofInt minHeapMB).toInt = minHeapMB := rfl
  have hheap : (heapRun limitMB heapPercent).heap.toInt =
      heapSize (effectiveLimitMB limitMB.toInt) (effectivePercent heapPercent.toInt) := by
    change (if (heapRun limitMB heapPercent).quotient < Int64.ofInt minHeapMB then
      Int64.ofInt minHeapMB else (heapRun limitMB heapPercent).quotient).toInt = _
    rw [heapSize, ← hquotient]
    split_ifs with hlt <;> rw [Int64.lt_iff_toInt_lt, hmin] at hlt
    · rw [hmin, max_eq_left hlt.le]
    · rw [max_eq_right (not_lt.mp hlt)]
  rw [heapMB_eq, hheap]

end Machine

/-! ## The heap and the container -/

/-- The CRD admits the memory, or it is left out. -/
structure Resources.Admitted (r : Resources) : Prop where
  int32 : r.Int32
  memory : r.memoryLimitMB = 0 ∨ 256 ≤ r.memoryLimitMB

/-- The percentage is an `int32`. -/
def JVMOptions.Int32 (jvm : JVMOptions) : Prop :=
  -2 ^ 31 ≤ jvm.heapPercent ∧ jvm.heapPercent < 2 ^ 31

/-- The number in the `MEMORY` value of an environment. -/
def HeapOf (env : List EnvVar) (h : ℤ) : Prop :=
  (env.find? (·.name = "MEMORY")).map (·.value) = some (toString h ++ "M")

/-- The memory limit in `Mi` of the container. -/
def Resources.LimitOf (r : Resources) (parseQuantity : ParseQuantity) (limit : ℤ) : Prop :=
  ∃ req, resourceRequirements parseQuantity r = some req ∧
    req.limits.lookup resourceMemory = some (limit * 2 ^ 20 : ℚ)

/-- A heap for a container and a percentage. -/
structure HeapFits (heapPercent h limit : ℤ) : Prop where
  least : 256 ≤ h
  fits : h ≤ limit
  bounded : limit ≤ 2 ^ 31 - 1
  exact : 1 ≤ heapPercent → heapPercent ≤ 100 → 256 ≤ limit * heapPercent / 100 →
    h = limit * heapPercent / 100

section Container

variable {parseQuantity : ParseQuantity} {r : Resources} {jvm : JVMOptions} {h limit : ℤ}

theorem heapOf_jvmEnv_iff : HeapOf (jvmEnv jvm r.memoryLimitMB) h ↔
    h = heapSize r.limitMB (effectivePercent jvm.heapPercent) := by
  have hfind : ((jvmEnv jvm r.memoryLimitMB).find? (·.name = "MEMORY")).map (·.value) =
      some (heapMB r.memoryLimitMB jvm.heapPercent) := rfl
  rw [HeapOf, hfind, heapMB_eq, Option.some_inj, String.append_left_inj]
  exact toString_int_inj.trans eq_comm

theorem limitOf_iff (hparse : parseQuantity.Documented) (hr : r.Int32) :
    r.LimitOf parseQuantity limit ↔ limit = r.limitMB := by
  have hlookup : (ResourceList.withCPU [(resourceMemory, (r.limitMB : ℚ) * 2 ^ 20)]
      parseQuantity r.cpuLimit).lookup resourceMemory = some ((r.limitMB : ℚ) * 2 ^ 20) :=
    lookup_withCPU_memory
  constructor
  · rintro ⟨req, hreq, hlimit⟩
    rw [resourceRequirements_eq hparse hr] at hreq
    obtain rfl := Option.some.inj hreq
    rw [hlookup, Option.some.injEq, mul_left_inj' (by norm_num)] at hlimit
    exact_mod_cast hlimit.symm
  · rintro rfl
    exact ⟨_, resourceRequirements_eq hparse hr, hlookup⟩

theorem le_limitMB (hr : r.Admitted) : 256 ≤ r.limitMB := by
  unfold Resources.limitMB
  have hmemory := hr.memory
  split_ifs
  · decide
  · omega

/-- For memory that the CRD admits or that is left out, and for every percentage, the heap is
within the limit of the container. It is computed without an overflow, it grows with the limit,
and above the floor it is the percentage asked for. -/
theorem heap_fits_limit (hparse : parseQuantity.Documented) (hr : r.Admitted) (hjvm : jvm.Int32) :
    ∃ h limit, HeapOf (jvmEnv jvm r.memoryLimitMB) h ∧ r.LimitOf parseQuantity limit ∧
      HeapFits jvm.heapPercent h limit ∧
      (heapRun (.ofInt r.memoryLimitMB) (.ofInt jvm.heapPercent)).Exact ∧
      (heapRun (.ofInt r.memoryLimitMB) (.ofInt jvm.heapPercent)).heap.toInt = h ∧
      ∀ (r' : Resources) (jvm' : JVMOptions) (h' limit' : ℤ), r'.Admitted →
        jvm'.heapPercent = jvm.heapPercent → HeapOf (jvmEnv jvm' r'.memoryLimitMB) h' →
        r'.LimitOf parseQuantity limit' → limit ≤ limit' → h ≤ h' := by
  have hpercent := effectivePercent_mem jvm.heapPercent
  have hlimit : 256 ≤ r.limitMB := le_limitMB hr
  have hheap : HeapOf (jvmEnv jvm r.memoryLimitMB) _ := heapOf_jvmEnv_iff.mpr rfl
  refine ⟨_, _, hheap, (limitOf_iff hparse hr.int32).mpr rfl, ⟨?_, ?_, ?_, ?_⟩,
    heapRun_exact _ _, ?_, ?_⟩
  · exact minHeapMB_le_heapSize
  · exact heapSize_le hlimit (by omega) hpercent.2
  · have hlt := limitMB_lt hr.int32
    omega
  · intro hone hhundred hfloor
    rw [effectivePercent_of_mem hone hhundred]
    exact heapSize_eq hfloor
  · have hmachine := heapMB_toInt (.ofInt r.memoryLimitMB) (.ofInt jvm.heapPercent)
    rw [Int32.toInt_ofInt_of_le hr.int32.limit.1 hr.int32.limit.2,
      Int32.toInt_ofInt_of_le hjvm.1 hjvm.2] at hmachine
    exact heapOf_jvmEnv_iff.mp (congrArg some hmachine)
  · intro r' jvm' h' limit' hr' hsame hh' hlimit' hle
    rw [heapOf_jvmEnv_iff, hsame] at hh'
    rw [limitOf_iff hparse hr'.int32] at hlimit'
    rw [hh']
    exact heapSize_mono hpercent.1.le (hlimit' ▸ hle)

end Container

/-- All of the memory, at the top of the range. -/
def largest : Resources := { memoryLimitMB := 2 ^ 31 - 1 }

theorem heap_fits_limit_largest :
    ∃ h limit, HeapOf (jvmEnv { heapPercent := 100 } largest.memoryLimitMB) h ∧
      largest.LimitOf plainQuantity limit ∧ HeapFits 100 h limit ∧
      (heapRun (.ofInt largest.memoryLimitMB) (.ofInt 100)).Exact ∧
      (heapRun (.ofInt largest.memoryLimitMB) (.ofInt 100)).heap.toInt = h ∧
      ∀ (r' : Resources) (jvm' : JVMOptions) (h' limit' : ℤ), r'.Admitted →
        jvm'.heapPercent = 100 → HeapOf (jvmEnv jvm' r'.memoryLimitMB) h' →
        r'.LimitOf plainQuantity limit' → limit ≤ limit' → h ≤ h' :=
  heap_fits_limit plainQuantity_documented ⟨⟨by decide, by decide⟩, by decide⟩
    ⟨by decide, by decide⟩

end Minikura.Operator
