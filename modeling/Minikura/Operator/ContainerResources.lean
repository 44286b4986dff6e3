import Minikura.Data.NumberText
import Minikura.Operator.Resources

/-!
# Resources of a container

`ResourceRequirements` turns the memory and the CPU of a custom resource into what a container
requests and is limited to. The API server turns a pod down whose request is above its limit.
Memory is bounded by the limit; of the CPU each side is taken as it is given.

## Main definitions

* `resourceRequirements` — the requests and the limits of a container.
* `ResourceRequirements.Acceptable` — no request is above its limit, and memory is there.

## Main results

* `requirements_acceptable_iff` — they are acceptable if the CPU asked for is in order.
-/

namespace Minikura.Operator

/-! ## Quantities -/

/-- `resource.ParseQuantity`, with the amount for which a quantity stands. -/
abbrev ParseQuantity := String → Except Error ℚ

/-- A positive `int32` followed by `Mi` is a quantity. -/
def ParseQuantity.Documented (parseQuantity : ParseQuantity) : Prop :=
  ∀ n : ℤ, 0 < n → n < 2 ^ 31 → parseQuantity (toString n ++ "Mi") = .ok (n * 2 ^ 20)

/-- `resource.MustParse`, which panics where it has no value here. -/
def mustParse (parseQuantity : ParseQuantity) (s : String) : Option ℚ :=
  (parseQuantity s).toOption

/-! ## Requirements -/

/-- A `corev1.ResourceList`: amounts by the names of the resources. -/
abbrev ResourceList := List (String × ℚ)

def resourceMemory : String := "memory"
def resourceCPU : String := "cpu"

structure ResourceRequirements where
  requests : ResourceList
  limits : ResourceList

/-- The list with the CPU added, if the text is a quantity. -/
def ResourceList.withCPU (list : ResourceList) (parseQuantity : ParseQuantity) (cpu : String) :
    ResourceList :=
  if cpu ≠ "" then
    match parseQuantity cpu with
    | .ok q => setEntry list resourceCPU q
    | .error _ => list
  else list

def Resources.limitMB (r : Resources) : ℤ :=
  if r.memoryLimitMB ≤ 0 then defaultMemoryLimitMB else r.memoryLimitMB

def Resources.requestMB (r : Resources) : ℤ :=
  if r.memoryRequestMB ≤ 0 ∨ r.memoryRequestMB > r.limitMB then r.limitMB else r.memoryRequestMB

/-- `ResourceRequirements` -/
def resourceRequirements (parseQuantity : ParseQuantity) (r : Resources) :
    Option ResourceRequirements := do
  let requests := [(resourceMemory, ← mustParse parseQuantity (toString r.requestMB ++ "Mi"))]
  let limits := [(resourceMemory, ← mustParse parseQuantity (toString r.limitMB ++ "Mi"))]
  return {
    requests := ResourceList.withCPU requests parseQuantity r.cpuRequest
    limits := ResourceList.withCPU limits parseQuantity r.cpuLimit }

/-- The fields of the memory are `int32`s. -/
structure Resources.Int32 (r : Resources) : Prop where
  limit : -2 ^ 31 ≤ r.memoryLimitMB ∧ r.memoryLimitMB < 2 ^ 31
  request : -2 ^ 31 ≤ r.memoryRequestMB ∧ r.memoryRequestMB < 2 ^ 31

/-- The API server accepts them, and they bound the memory. -/
structure ResourceRequirements.Acceptable (req : ResourceRequirements) : Prop where
  order : ∀ name q q', req.requests.lookup name = some q → req.limits.lookup name = some q' →
    q ≤ q'
  request : ∃ q, req.requests.lookup resourceMemory = some q ∧ 0 < q
  limit : ∃ q, req.limits.lookup resourceMemory = some q ∧ 0 < q

/-- Where both sides of the CPU are quantities, the request is not above the limit. -/
def Resources.CPUInOrder (r : Resources) (parseQuantity : ParseQuantity) : Prop :=
  ∀ q q', r.cpuRequest ≠ "" → parseQuantity r.cpuRequest = .ok q →
    r.cpuLimit ≠ "" → parseQuantity r.cpuLimit = .ok q' → q ≤ q'

section Requirements

variable {parseQuantity : ParseQuantity} {r : Resources} {list : ResourceList} {cpu : String}

theorem lookup_withCPU_memory :
    (list.withCPU parseQuantity cpu).lookup resourceMemory = list.lookup resourceMemory := by
  unfold ResourceList.withCPU
  split_ifs
  · cases parseQuantity cpu with
    | error e => rfl
    | ok q => rw [lookup_setEntry, if_neg (by decide)]
  · rfl

theorem lookup_withCPU_cpu (h : list.lookup resourceCPU = none) (q : ℚ) :
    (list.withCPU parseQuantity cpu).lookup resourceCPU = some q ↔
      cpu ≠ "" ∧ parseQuantity cpu = .ok q := by
  unfold ResourceList.withCPU
  split_ifs with hcpu
  · cases parseQuantity cpu with
    | error e => simp [h]
    | ok q => simp [lookup_setEntry, hcpu]
  · simp [h, not_not.mp hcpu]

/-- Only memory and CPU are ever listed. -/
theorem name_of_lookup_withCPU {m q : ℚ} {name : String}
    (h : (ResourceList.withCPU [(resourceMemory, m)] parseQuantity cpu).lookup name = some q) :
    name = resourceMemory ∨ name = resourceCPU := by
  by_contra! hname
  have hmemory : ([(resourceMemory, m)] : ResourceList).lookup name = none := by
    rw [List.lookup_cons, beq_false_of_ne hname.1]
    rfl
  unfold ResourceList.withCPU at h
  split_ifs at h
  · cases hq : parseQuantity cpu with
    | error e => simp [hq, hmemory] at h
    | ok p => simp [hq, lookup_setEntry, hname.2, hmemory] at h
  · simp [hmemory] at h

theorem limitMB_pos : 0 < r.limitMB := by
  unfold Resources.limitMB
  split_ifs
  · decide
  · omega

theorem requestMB_pos : 0 < r.requestMB := by
  have hlimit : 0 < r.limitMB := limitMB_pos
  unfold Resources.requestMB
  split_ifs <;> omega

/-- The memory requested is bounded by the limit. -/
theorem requestMB_le_limitMB : r.requestMB ≤ r.limitMB := by
  unfold Resources.requestMB
  split_ifs <;> omega

theorem limitMB_lt (h : r.Int32) : r.limitMB < 2 ^ 31 := by
  unfold Resources.limitMB
  split_ifs
  · decide
  · exact h.limit.2

/-- No panic: memory is parsed on both sides. -/
theorem resourceRequirements_eq (hparse : parseQuantity.Documented) (h : r.Int32) :
    resourceRequirements parseQuantity r = some {
      requests := ResourceList.withCPU [(resourceMemory, r.requestMB * 2 ^ 20)] parseQuantity
        r.cpuRequest
      limits := ResourceList.withCPU [(resourceMemory, r.limitMB * 2 ^ 20)] parseQuantity
        r.cpuLimit } := by
  have hlimit : r.limitMB < 2 ^ 31 := limitMB_lt h
  have hlimit_pos : 0 < r.limitMB := limitMB_pos
  have hrequest_pos : 0 < r.requestMB := requestMB_pos
  have hrequest : r.requestMB ≤ r.limitMB := requestMB_le_limitMB
  rw [resourceRequirements, mustParse, mustParse, hparse _ hrequest_pos (by omega),
    hparse _ hlimit_pos hlimit]
  rfl

/-- The requirements are generated for every custom resource, and they are acceptable if and
only if the CPU requested is not above the CPU it is limited to. -/
theorem requirements_acceptable_iff (hparse : parseQuantity.Documented) (h : r.Int32) :
    (∃ req, resourceRequirements parseQuantity r = some req ∧ req.Acceptable) ↔
      r.CPUInOrder parseQuantity := by
  have hnone : ∀ m, ([(resourceMemory, m)] : ResourceList).lookup resourceCPU = none :=
    fun _ => rfl
  rw [resourceRequirements_eq hparse h]
  constructor
  · rintro ⟨_, ⟨⟩, hreq⟩ q q' hne hq hne' hq'
    exact hreq.order resourceCPU q q' ((lookup_withCPU_cpu (hnone _) q).mpr ⟨hne, hq⟩)
      ((lookup_withCPU_cpu (hnone _) q').mpr ⟨hne', hq'⟩)
  · intro hcpu
    have hmemory : (r.requestMB : ℚ) * 2 ^ 20 ≤ r.limitMB * 2 ^ 20 := by
      have hle : (r.requestMB : ℚ) ≤ r.limitMB := by exact_mod_cast requestMB_le_limitMB
      gcongr
    have hlimit : (0 : ℚ) < r.limitMB := by exact_mod_cast limitMB_pos
    have hrequest : (0 : ℚ) < r.requestMB := by exact_mod_cast requestMB_pos
    refine ⟨_, rfl, fun name q q' hq hq' => ?_, ?_, ?_⟩
    · rcases name_of_lookup_withCPU hq with rfl | rfl
      · rw [lookup_withCPU_memory] at hq hq'
        obtain rfl := Option.some.inj hq
        obtain rfl := Option.some.inj hq'
        exact hmemory
      · obtain ⟨hne, hq⟩ := (lookup_withCPU_cpu (hnone _) q).mp hq
        obtain ⟨hne', hq'⟩ := (lookup_withCPU_cpu (hnone _) q').mp hq'
        exact hcpu q q' hne hq hne' hq'
    · exact ⟨_, lookup_withCPU_memory, by positivity⟩
    · exact ⟨_, lookup_withCPU_memory, by positivity⟩

end Requirements

/-! ## Quantities to run it with -/

/-- Digits, followed by nothing, `m` or `Mi`. -/
def plainQuantity : ParseQuantity := fun s =>
  let number := s.toList.takeWhile Char.isDigit
  let unit : Option ℚ :=
    match s.toList.dropWhile Char.isDigit with
    | [] => some 1
    | ['m'] => some (1 / 1000)
    | ['M', 'i'] => some (2 ^ 20)
    | _ => none
  match digits 10 number, unit with
  | some n, some unit => .ok (n * unit)
  | _, _ => .error { message := "quantities must match the regular expression" }

theorem plainQuantity_documented : plainQuantity.Documented := by
  intro n hpos _
  obtain ⟨k, rfl⟩ := Int.eq_ofNat_of_zero_le hpos.le
  have hdigits : ∀ c ∈ Nat.toDigits 10 k, c.isDigit = true :=
    fun c hc => Nat.isDigit_of_mem_toDigits (by decide) (by decide) hc
  have htext : (toString (k : ℤ) ++ "Mi").toList = Nat.toDigits 10 k ++ ['M', 'i'] := by
    rw [String.toList_append]
    congr 1
    exact Nat.toList_repr
  have hnumber : (toString (k : ℤ) ++ "Mi").toList.takeWhile Char.isDigit =
      Nat.toDigits 10 k := by
    rw [htext, List.takeWhile_append_of_pos hdigits]
    simp
  have hunit : (toString (k : ℤ) ++ "Mi").toList.dropWhile Char.isDigit = ['M', 'i'] := by
    rw [htext, List.dropWhile_append_of_pos hdigits]
    simp
  simp only [plainQuantity, hnumber, hunit, digits_of_isDigit Nat.toDigits_ne_nil hdigits,
    Nat.ofDigitChars_ten_toDigits]
  rfl

/-- The CPU limit is set, the request is the default. -/
def lowLimit : Resources := { memoryLimitMB := 2048, cpuRequest := "500m", cpuLimit := "250m" }

def smallRequest : Resources := { memoryLimitMB := 2048, cpuRequest := "250m", cpuLimit := "2" }

theorem requirements_acceptable_iff_smallRequest :
    ∃ req, resourceRequirements plainQuantity smallRequest = some req ∧ req.Acceptable := by
  refine (requirements_acceptable_iff plainQuantity_documented ⟨by decide, by decide⟩).mpr ?_
  intro q q' _ hq _ hq'
  obtain rfl : 250 * (1 / 1000) = q := Except.ok.inj hq
  obtain rfl : 2 * 1 = q' := Except.ok.inj hq'
  norm_num

theorem low_limit_refused : ¬∀ r : Resources, r.Int32 →
    ∃ req, resourceRequirements plainQuantity r = some req ∧ req.Acceptable := by
  intro h
  obtain ⟨req, hreq, hacceptable⟩ := h lowLimit ⟨by decide, by decide⟩
  obtain rfl := Option.some.inj hreq
  have hle : (500 * (1 / 1000) : ℚ) ≤ 250 * (1 / 1000) := hacceptable.order "cpu" _ _ rfl rfl
  norm_num at hle

end Minikura.Operator
