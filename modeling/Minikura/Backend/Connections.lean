import Minikura.Backend.Ownership

/-!
# Where running resources are found

The names under which the backend and the topology page look for what the operator makes
of a row.

## Main definitions

* `serverServiceName`, `proxyServiceName` — the Services asked for connection information.
* `connectionAddress` — the address of a server that is sent to the proxies.
* `serverPodSelector`, `proxyPodSelector` — the label selectors of pods.
* `kubernetesResourceName` — the name that the topology page expects.

## Main results

* `kubernetesResourceName_accepted` — the page leaves the id of a resource as it is.
-/

namespace Minikura.Backend

/-! ## The backend -/

def labelPrefix : String := "minikura.kirameki.cafe"

def labelKeys.serverId : String := labelPrefix ++ "/server-id"

def labelKeys.proxyId : String := labelPrefix ++ "/proxy-id"

/-- `serviceName` in `getConnectionInfo` of a server. -/
def serverServiceName (id : String) : Except Error String := do
  return "minecraft-" ++ (← operatorResourceName id)

/-- `serviceName` in `getConnectionInfo` of a proxy. -/
def proxyServiceName (type : ReverseProxyServerType) (id : String) : Except Error String := do
  return String.ofList (type.name.toList.map Char.toLower) ++ "-" ++ (← operatorResourceName id)

/-- `connection_address` of a server in the list for the proxies. -/
def connectionAddress (ns id : String) : Except Error String := do
  return "minecraft-" ++ (← operatorResourceName id) ++ "." ++ ns ++ ".svc.cluster.local"

def serverPodSelector (id : String) : Except Error String := do
  return labelKeys.serverId ++ "=" ++ (← operatorResourceName id)

def proxyPodSelector (id : String) : Except Error String := do
  return labelKeys.proxyId ++ "=" ++ (← operatorResourceName id)

/-! ## The topology page -/

/-- `toLowerCase` of a character. Of the letters outside of ASCII only two have a lower case
with a character in ASCII, and the others become parts of a dash as they are. -/
def lowerCase (c : Char) : List Char :=
  if c = '\u212a' then ['k'] else if c = '\u0130' then ['i', '\u0307'] else [c.toLower]

/-- Each run of characters that are not to be kept becomes one dash. -/
def dashRuns (keep : Char → Bool) : List Char → List Char
  | [] => []
  | c :: cs =>
    if keep c then c :: dashRuns keep cs
    else if cs.head?.any fun d => !keep d then dashRuns keep cs
    else '-' :: dashRuns keep cs

/-- Both ends without the characters that are not to be kept. -/
def strip (keep : Char → Bool) (cs : List Char) : List Char :=
  ((cs.dropWhile fun c => !keep c).reverse.dropWhile fun c => !keep c).reverse

def kubernetesResourceName (id : String) : String :=
  let lower := id.toList.flatMap lowerCase
  let dashed := dashRuns (fun c => isLowerAlnum c || c == '.' || c == '-') lower
  String.ofList ((strip isLowerAlnum dashed).take 63)

theorem dashRuns_eq_self (keep : Char → Bool) {cs : List Char} (h : ∀ c ∈ cs, keep c) :
    dashRuns keep cs = cs := by
  induction cs with
  | nil => rfl
  | cons c cs ih =>
    rw [dashRuns, if_pos (h c (List.mem_cons_self ..)),
      ih fun d hd => h d (List.mem_cons_of_mem c hd)]

theorem dropWhile_eq_self {keep : Char → Bool} {cs : List Char}
    (h : ∀ c, cs.head? = some c → keep c) : (cs.dropWhile fun c => !keep c) = cs := by
  cases cs with
  | nil => rfl
  | cons c cs => simp [h c rfl]

theorem strip_eq_self {keep : Char → Bool} {cs : List Char}
    (hhead : ∀ c, cs.head? = some c → keep c) (hlast : ∀ c, cs.getLast? = some c → keep c) :
    strip keep cs = cs := by
  rw [strip, dropWhile_eq_self hhead, dropWhile_eq_self, List.reverse_reverse]
  intro c hc
  exact hlast c (List.getLast?_eq_head?_reverse.trans hc)

/-! ## Accepted ids -/

theorem toNat_of_isLowerAlnum {c : Char} (h : isLowerAlnum c) :
    (97 ≤ c.toNat ∧ c.toNat ≤ 122) ∨ (48 ≤ c.toNat ∧ c.toNat ≤ 57) := by
  simpa [isLowerAlnum, Char.le_def, UInt32.le_iff_toNat_le] using h

theorem lowerCase_of_isLowerAlnum {c : Char} (h : isLowerAlnum c) : lowerCase c = [c] := by
  have hval := toNat_of_isLowerAlnum h
  have hlower : c.toLower = c := by
    refine dif_neg fun hupper => ?_
    have hA : 65 ≤ c.toNat := hupper.1
    have hZ : c.toNat ≤ 90 := hupper.2
    omega
  have hkelvin : c ≠ '\u212a' := by
    rintro rfl
    exact absurd hval (by decide)
  have hdotted : c ≠ '\u0130' := by
    rintro rfl
    exact absurd hval (by decide)
  rw [lowerCase, if_neg hkelvin, if_neg hdotted, hlower]

variable {id : String}

/-- The characters of an accepted id, after the first. -/
theorem pattern_of_accepted (h : resourceIdAccepted id) :
    ∃ c cs, id.toList = c :: cs ∧ isLowerAlnum c ∧ (cs ≠ [] →
      (∀ d ∈ cs.dropLast, isLowerAlnum d ∨ d = '-') ∧
        ∃ d, cs.getLast? = some d ∧ isLowerAlnum d) := by
  simp only [resourceIdAccepted, Bool.and_eq_true] at h
  have hpattern := h.1
  unfold resourceIdPattern at hpattern
  split at hpattern
  · cases hpattern
  case h_2 c cs hid =>
    refine ⟨c, cs, hid, ?_⟩
    simpa [Option.any_eq_true, or_iff_not_imp_left] using hpattern

theorem head_of_accepted (h : resourceIdAccepted id) {c : Char} (hc : id.toList.head? = some c) :
    isLowerAlnum c := by
  obtain ⟨d, cs, hid, hd, -⟩ := pattern_of_accepted h
  rw [hid, List.head?_cons, Option.some.injEq] at hc
  exact hc ▸ hd

theorem last_of_accepted (h : resourceIdAccepted id) {c : Char}
    (hc : id.toList.getLast? = some c) : isLowerAlnum c := by
  obtain ⟨d, cs, hid, hd, hrest⟩ := pattern_of_accepted h
  rw [hid] at hc
  by_cases hcs : cs = []
  · subst hcs
    rw [List.getLast?_singleton, Option.some.injEq] at hc
    exact hc ▸ hd
  · obtain ⟨-, e, he, hlast⟩ := hrest hcs
    rw [List.getLast?_cons, he, Option.getD_some, Option.some.injEq] at hc
    exact hc ▸ hlast

theorem alnum_or_dash_of_accepted (h : resourceIdAccepted id) {c : Char} (hc : c ∈ id.toList) :
    isLowerAlnum c ∨ c = '-' := by
  obtain ⟨d, cs, hid, hd, hrest⟩ := pattern_of_accepted h
  rw [hid, List.mem_cons] at hc
  rcases hc with rfl | hc
  · exact .inl hd
  · obtain ⟨hinit, e, he, hlast⟩ := hrest (List.ne_nil_of_mem hc)
    rw [← List.dropLast_append_getLast? e he, List.mem_append, List.mem_singleton] at hc
    rcases hc with hc | rfl
    · exact hinit c hc
    · exact .inl hlast

theorem length_of_accepted (h : resourceIdAccepted id) : id.length ≤ 51 := by
  simp only [resourceIdAccepted, Bool.and_eq_true, decide_eq_true_eq] at h
  exact h.2

/-- The topology page leaves an accepted id as it is. -/
theorem kubernetesResourceName_accepted (h : resourceIdAccepted id) :
    kubernetesResourceName id = id := by
  have hlower : id.toList.flatMap lowerCase = id.toList := by
    have hsame : ∀ c ∈ id.toList, lowerCase c = [c] := by
      intro c hc
      rcases alnum_or_dash_of_accepted h hc with hc | rfl
      · exact lowerCase_of_isLowerAlnum hc
      · rfl
    rw [List.flatMap_congr hsame, List.flatMap_singleton']
  have hkeep : ∀ c ∈ id.toList, (isLowerAlnum c || c == '.' || c == '-') = true := by
    intro c hc
    rcases alnum_or_dash_of_accepted h hc with hc | rfl
    · rw [hc, Bool.true_or, Bool.true_or]
    · rfl
  have hdashed := dashRuns_eq_self _ hkeep
  have hlength := length_of_accepted h
  simp only [kubernetesResourceName, hlower, hdashed,
    strip_eq_self (fun _ => head_of_accepted h) (fun _ => last_of_accepted h)]
  rw [List.take_of_length_le (by rw [String.length_toList]; omega), String.ofList_toList]

end Minikura.Backend
