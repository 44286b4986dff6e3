import Minikura.Data.NumberText

/-!
# Resource metrics

What the topology page makes of the quantities of the metrics API. Quotients are rounded to
doubles, and numbers that are not finite are left out.

## Main definitions

* `parseInt` — `Number.parseInt(text, 10)`.
* `parseK8sMetrics` — the usage, and its share of a capacity if there is one.
-/

namespace Minikura.Web

/-- `Number.parseInt(text, 10)` reads what it can of the beginning. Where it gives `Infinity`, for
a text of more than 308 digits, there is no result here. -/
def parseInt (text : String) : Option ℚ := do
  let n ← signed (fun t => (digits 10 (t.takeWhile Char.isDigit)).map fun n => (n : ℚ))
    (text.toList.dropWhile isBlank)
  toDouble n

/-- `Math.round` -/
def mathRound (q : ℚ) : ℤ := ⌊q + 1 / 2⌋

/-- `text.replace(part, "")` -/
def withoutFirst (part : List Char) : List Char → List Char
  | [] => []
  | c :: text =>
    if part <+: c :: text then (c :: text).drop part.length else c :: withoutFirst part text

/-- The number before a suffix, or around it. -/
def parseQuantityOf (suffix quantity : String) : Option ℚ :=
  parseInt (String.ofList (withoutFirst suffix.toList quantity.toList))

/-- The usage in a unit of the given size. -/
def parseUsage (suffix : String) (size : ℚ) (unit quantity : String) : Option String := do
  let usage ← parseQuantityOf suffix quantity
  return toString (mathRound (← toDouble (usage / size))) ++ unit

def calculatePercent (suffix usage capacity : String) : Option ℤ := do
  let usage ← parseQuantityOf suffix usage
  let capacity ← parseQuantityOf suffix capacity
  if capacity = 0 then none
  else return mathRound (← toDouble ((← toDouble (usage / capacity)) * 100))

def parseCpuUsage (cpuNano : String) : Option String := parseUsage "n" 1000000 "m" cpuNano

def calculateCpuPercent (cpuNano capacityNano : String) : Option ℤ :=
  calculatePercent "n" cpuNano capacityNano

def parseMemoryUsage (memoryKi : String) : Option String := parseUsage "Ki" 1024 "Mi" memoryKi

def calculateMemoryPercent (memoryKi capacityKi : String) : Option ℤ :=
  calculatePercent "Ki" memoryKi capacityKi

structure ResourceMetrics where
  cpuUsage : Option String := none
  cpuUsagePercent : Option ℤ := none
  memoryUsage : Option String := none
  memoryUsagePercent : Option ℤ := none
deriving DecidableEq

/-- An empty text counts as none. -/
def given (text : Option String) : Option String := text.filter (· ≠ "")

def parseK8sMetrics (cpuUsage memoryUsage : Option String) (cpuCapacity : Option String := none)
    (memoryCapacity : Option String := none) : ResourceMetrics where
  cpuUsage := (given cpuUsage).bind parseCpuUsage
  cpuUsagePercent := do calculateCpuPercent (← given cpuUsage) (← given cpuCapacity)
  memoryUsage := (given memoryUsage).bind parseMemoryUsage
  memoryUsagePercent := do calculateMemoryPercent (← given memoryUsage) (← given memoryCapacity)

end Minikura.Web
