import Minikura.Data.Sha256
import Minikura.Operator.Types

/-!
# Names of generated objects

The names and labels of the objects generated for a custom resource. A name that does
not fit a DNS label is cut and ends in the first bytes of its hash. Names are ASCII, so
that bytes and characters are the same.
-/

namespace Minikura.Operator

/-- `strings.ToLower`, on ASCII -/
def toLower (s : String) : String := String.ofList (s.toList.map Char.toLower)

/-- `strings.TrimRight(s, cutset)`, with one character in the cutset -/
def trimRight (s : List Char) (c : Char) : List Char := (s.reverse.dropWhile (· = c)).reverse

def dnsLabelMaxLength : Nat := 63

def hexDigit (n : Nat) : Char := "0123456789abcdef".toList.getD n '0'

/-- `fmt.Sprintf("%x", sum[:4])` of the SHA-256 of a string. -/
def hashPrefix (s : String) : List Char :=
  let sum := Sha256.sum256 (s.toList.flatMap String.utf8EncodeChar)
  (List.range 8).reverse.map fun i => hexDigit (sum.a.toNat / 16 ^ i % 16)

/-- Irreducible, so that no proof computes a name by accident. -/
@[irreducible] def limitedName (name : String) (limit : Nat) : String :=
  if name.length ≤ limit then name
  else
    let suffix := '-' :: hashPrefix name
    String.ofList (trimRight (name.toList.take (limit - suffix.length)) '-' ++ suffix)

def serverName (name : String) : String := limitedName ("minecraft-" ++ name) dnsLabelMaxLength

def proxyName (kind name : String) : String :=
  limitedName (toLower kind ++ "-" ++ name) dnsLabelMaxLength

def configMapName (base : String) : String := limitedName (base ++ "-config") dnsLabelMaxLength

def labelValue (value : String) : String := limitedName value dnsLabelMaxLength

def serverLabels (mc : MinecraftServer) : Labels := [
  ("app", serverName mc.metadata.name),
  (Types.labelServerType, toLower mc.spec.type),
  (Types.labelServerID, labelValue mc.metadata.name),
  (Types.labelManagedBy, Types.managerName)]

def proxyLabels (rp : ReverseProxyServer) : Labels := [
  ("app", proxyName rp.spec.type rp.metadata.name),
  (Types.labelServerType, toLower rp.spec.type),
  (Types.labelProxyID, labelValue rp.metadata.name),
  (Types.labelManagedBy, Types.managerName)]

def selectorLabels (app : String) : Labels := [("app", app)]

/-! ## Lengths and beginnings -/

@[simp] theorem length_hashPrefix (s : String) : (hashPrefix s).length = 8 := by
  simp [hashPrefix]

theorem length_trimRight_le (s : List Char) (c : Char) :
    (trimRight s c).length ≤ s.length := by
  simpa [trimRight] using (List.dropWhile_sublist (l := s.reverse) _).length_le

theorem limitedName_of_le {name : String} {limit : Nat} (h : name.length ≤ limit) :
    limitedName name limit = name := by
  rw [limitedName, if_pos h]

theorem toList_limitedName_of_lt {name : String} {limit : Nat} (h : limit < name.length) :
    (limitedName name limit).toList =
      trimRight (name.toList.take (limit - 9)) '-' ++ '-' :: hashPrefix name := by
  rw [limitedName, if_neg (by omega)]
  simp

/-- A generated name fits the limit. -/
theorem length_limitedName {name : String} {limit : Nat} (h : 9 ≤ limit) :
    (limitedName name limit).length ≤ limit := by
  by_cases hl : name.length ≤ limit
  · rwa [limitedName_of_le hl]
  · have htrim := length_trimRight_le (name.toList.take (limit - 9)) '-'
    rw [← String.length_toList, toList_limitedName_of_lt (by omega)]
    simp only [List.length_append, List.length_cons, length_hashPrefix]
    simp only [List.length_take] at htrim
    omega

/-- A beginning that does not end in the character survives the trimming. -/
theorem prefix_trimRight {p s : List Char} {c : Char} (hp : p <+: s)
    (hlast : ∀ d, p.getLast? = some d → d ≠ c) : p <+: trimRight s c := by
  obtain ⟨t, rfl⟩ := hp
  have hkeep : p.reverse.dropWhile (· = c) = p.reverse := by
    cases h : p.reverse with
    | nil => rfl
    | cons d rest =>
      have hd := hlast d (by rw [List.getLast?_eq_head?_reverse, h, List.head?_cons])
      simp [hd]
  simp only [trimRight, List.reverse_append, List.dropWhile_append]
  split_ifs
  · simp [hkeep]
  · rw [List.reverse_append, List.reverse_reverse]
    exact List.prefix_append _ _

/-- A generated name starts as the name it is made of. -/
theorem head?_limitedName {name : String} {limit : Nat} {c : Char} (h : 10 ≤ limit)
    (hc : c ≠ '-') (hhead : name.toList.head? = some c) :
    (limitedName name limit).toList.head? = some c := by
  by_cases hl : name.length ≤ limit
  · rwa [limitedName_of_le hl]
  · obtain ⟨rest, hrest⟩ : ∃ rest, name.toList = c :: rest :=
      ⟨_, List.eq_cons_of_mem_head? hhead⟩
    have hp : [c] <+: name.toList.take (limit - 9) := by
      rw [hrest, show limit - 9 = limit - 10 + 1 by omega, List.take_succ_cons]
      exact ⟨_, rfl⟩
    obtain ⟨t, ht⟩ := prefix_trimRight hp fun d hd => by
      rw [List.getLast?_singleton, Option.some.injEq] at hd
      exact hd ▸ hc
    rw [toList_limitedName_of_lt (by omega), ← ht]
    rfl

theorem head?_proxyName {type : String} {c : Char} (hc : c ≠ '-')
    (h : (toLower type).toList.head? = some c) (name : String) :
    (proxyName type name).toList.head? = some c := by
  refine head?_limitedName (by decide) hc ?_
  rw [String.toList_append, String.toList_append, List.append_assoc, List.head?_append, h]
  rfl

theorem head?_configMapName {base : String} {c : Char} (hc : c ≠ '-')
    (h : base.toList.head? = some c) : (configMapName base).toList.head? = some c := by
  refine head?_limitedName (by decide) hc ?_
  rw [String.toList_append, List.head?_append, h]
  rfl

/-! ## Endings -/

theorem hexDigit_mem (n : Nat) : hexDigit n ∈ "0123456789abcdef".toList := by
  rw [hexDigit, List.getD_eq_getElem?_getD]
  cases h : "0123456789abcdef".toList[n]? with
  | none => decide
  | some c => exact List.mem_of_getElem? h

/-- A name that was cut ends in a digit of its hash. -/
theorem getLast?_limitedName_of_lt {name : String} {limit : Nat} (h : limit < name.length) :
    ∃ c ∈ "0123456789abcdef".toList, (limitedName name limit).toList.getLast? = some c := by
  refine ⟨hexDigit ((Sha256.sum256 (name.toList.flatMap String.utf8EncodeChar)).a.toNat % 16),
    hexDigit_mem _, ?_⟩
  rw [toList_limitedName_of_lt h]
  simp [hashPrefix, List.range_succ]

/-- Two names stay different if they end in no digit of a hash and do not share a hash. -/
theorem limitedName_ne {name name' : String} {limit : Nat} (hne : name ≠ name')
    (hhash : limit < name.length → limit < name'.length → hashPrefix name ≠ hashPrefix name')
    (hend : ∀ c ∈ name.toList.getLast?, c ∉ "0123456789abcdef".toList)
    (hend' : ∀ c ∈ name'.toList.getLast?, c ∉ "0123456789abcdef".toList) :
    limitedName name limit ≠ limitedName name' limit := by
  intro he
  rcases Nat.lt_or_ge limit name.length with hl | hl <;>
    rcases Nat.lt_or_ge limit name'.length with hl' | hl'
  · -- both are cut, and end in their hashes
    have hlist := congrArg String.toList he
    rw [toList_limitedName_of_lt hl, toList_limitedName_of_lt hl'] at hlist
    have htail := (List.append_inj' hlist (by simp)).2
    exact hhash hl hl' (List.cons.inj htail).2
  · obtain ⟨c, hc, hlast⟩ := getLast?_limitedName_of_lt hl
    rw [he, limitedName_of_le hl'] at hlast
    exact hend' c hlast hc
  · obtain ⟨c, hc, hlast⟩ := getLast?_limitedName_of_lt hl'
    rw [← he, limitedName_of_le hl] at hlast
    exact hend c hlast hc
  · rw [limitedName_of_le hl, limitedName_of_le hl'] at he
    exact hne he

theorem configMapName_ne {base base' : String} (hne : base ≠ base')
    (hhash : dnsLabelMaxLength < (base ++ "-config").length →
      dnsLabelMaxLength < (base' ++ "-config").length →
      hashPrefix (base ++ "-config") ≠ hashPrefix (base' ++ "-config")) :
    configMapName base ≠ configMapName base' := by
  have hend : ∀ b : String, ∀ c ∈ (b ++ "-config").toList.getLast?,
      c ∉ "0123456789abcdef".toList := by
    intro b c hc
    have hg : (b ++ "-config").toList.getLast? = some 'g' := by
      rw [String.toList_append]
      exact List.getLast?_append_of_ne_nil _ (by decide)
    rw [hg, Option.mem_some_iff] at hc
    exact hc ▸ by decide
  have hraw : base ++ "-config" ≠ base' ++ "-config" :=
    fun he => hne ((String.append_left_inj _).mp he)
  exact limitedName_ne hraw hhash (hend base) (hend base')

end Minikura.Operator
